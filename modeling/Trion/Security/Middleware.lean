import Trion.Library.OrderedDict
import Trion.Security.TokenRuns

/-!
# The security middleware

Every request passes the middleware before a handler sees it.  It answers itself unless the
request is one of three open ones, carries a service token whose contract allows the route, or
carries a session, which for a method that changes something needs its CSRF token too.
-/

namespace Trion.Security

open Trion.Python

/-! ### Routes of services -/

/-- `ServiceRouteContract`. -/
structure ServiceRouteContract where
  principalKind : PrincipalKind
  method : String
  exactPaths : List String
  pathPrefix : Option String

/-- `ServiceRouteContract.matches_path`. -/
def ServiceRouteContract.matchesPath (contract : ServiceRouteContract) (path : String) : Bool :=
  match contract.pathPrefix with
  | none => contract.exactPaths.contains path
  | some start =>
    let suffix := if startsWith path start then path.toList.drop start.length else []
    !suffix.isEmpty && !suffix.contains '/'

/-- `ServiceRouteContract.allows`. -/
def ServiceRouteContract.allows (contract : ServiceRouteContract) (method path : String) : Bool :=
  method == contract.method && contract.matchesPath path

/-- `SECRET_RESOLVE_ROUTE_CONTRACT`. -/
def secretResolveRouteContract : ServiceRouteContract where
  principalKind := .secretResolve
  method := "GET"
  exactPaths := []
  pathPrefix := some "/api/secrets/resolve/"

/-- `MEMORY_READ_ROUTES`. -/
def memoryReadRoutes : List String :=
  ["/api/settings/models/effective", "/api/settings/embeddings/runtime",
    "/api/runtime/compute/routing"]

/-- `MEMORY_READ_ROUTE_CONTRACT`. -/
def memoryReadRouteContract : ServiceRouteContract where
  principalKind := .memoryRead
  method := "GET"
  exactPaths := memoryReadRoutes
  pathPrefix := none

/-- `SERVICE_ROUTE_CONTRACTS.get(kind)`. -/
def serviceRouteContract : PrincipalKind → Option ServiceRouteContract
  | .secretResolve => some secretResolveRouteContract
  | .memoryRead => some memoryReadRouteContract
  | .browser => none

/-- `service_route_allowed`. -/
def serviceRouteAllowed (kind : PrincipalKind) (method path : String) : Bool :=
  match serviceRouteContract kind with
  | some contract => contract.allows method path
  | none => false

/-- `_resolve_path`. -/
def resolvePath (path : String) : Bool :=
  secretResolveRouteContract.matchesPath path

/-! ### Requests -/

/-- `MiddlewareConfig`, as far as the middleware reads it. -/
structure MiddlewareConfig where
  cookieName : String
  csrfHeaderName : String
  allowedOrigins : List String

/-- The scope of a request. -/
structure Scope where
  kind : String
  method : String
  path : String
  headers : List (List UInt8 × List UInt8)

/-- The standard library with `SimpleCookie`: the names and values of a `Cookie` header, `none`
where it raises a `CookieError`. -/
structure MiddlewareRuntime extends TokenRuntime where
  parseCookie : String → Option (List (String × String))

/-- `bytes.decode("latin-1")`. -/
def decodeLatin1 (bytes : List UInt8) : String :=
  String.ofList (bytes.map fun b => Char.ofNat b.toNat)

/-- `value.rstrip("/")`. -/
def rstripSlash (s : String) : String :=
  String.ofList (s.toList.rdropWhile (· == '/'))

/-- `_SAFE_METHODS`. -/
def safeMethods : List String := ["GET", "HEAD"]

section Headers

variable (rt : MiddlewareRuntime)

/-- `_headers`. -/
def headerDict (scope : Scope) : List (String × String) :=
  OrderedDict.insertAll (fun header : List UInt8 × List UInt8 => rt.lower (decodeLatin1 header.1))
    (fun header => decodeLatin1 header.2) [] scope.headers

/-- `headers.get(name, "")`. -/
def header (scope : Scope) (name : String) : String :=
  (OrderedDict.get? (headerDict rt scope) name).getD ""

/-- `_cookie`. -/
def cookie (scope : Scope) (name : String) : String :=
  match rt.parseCookie (header rt scope "cookie") with
  | some jar => (OrderedDict.get? jar name).getD ""
  | none => ""

/-- The origin of the request is one of the allowed ones. -/
def originAllowed (config : MiddlewareConfig) (scope : Scope) : Bool :=
  config.allowedOrigins.contains (rstripSlash (header rt scope "origin"))

end Headers

/-! ### The middleware -/

/-- What the middleware adds to `scope["state"]`. -/
structure AuthState where
  principal : AuthenticatedPrincipal
  token : String
  delegationHeaders : List (String × String)
  deriving DecidableEq

/-- How a request ends: the wrapped application is called, the middleware answers itself, or an
exception escapes. -/
inductive Handled where
  | app (state : Option AuthState)
  | respond (status : ℕ) (code : String)
  | raised (error : PyError)
  deriving DecidableEq

section Middleware

variable {Path : Type} (rt : MiddlewareRuntime) (platform : Platform Path)
  (authority : SecurityAuthority Path) (config : MiddlewareConfig) (files : Path → MaterialFile)
  (now : ℤ) (scope : Scope)

/-- The part of `SecurityMiddleware.__call__` for a request with an `Authorization` header. -/
def handleService (authorization : String) : Handled :=
  let token := afterFirst ' ' authorization
  let authenticated :=
    if beforeFirst ' ' authorization = "Bearer" ∧ ' ' ∈ authorization.toList then
      authority.authenticateService files token
    else .ok none
  match authenticated with
  | .error error => .raised error
  | .ok none => .respond 403 "AUTH_SERVICE_FORBIDDEN"
  | .ok (some principal) =>
    if serviceRouteAllowed principal.kind scope.method scope.path then
      .app (some ⟨principal, token, []⟩)
    else .respond 403 "AUTH_SERVICE_FORBIDDEN"

/-- The part of `SecurityMiddleware.__call__` for a recognised session: the origin and the CSRF
token of a request that changes something. -/
def handleBrowser (sessionToken : String) (principal : AuthenticatedPrincipal) : Handled :=
  let delegation := [("Cookie", config.cookieName ++ "=" ++ sessionToken)]
  if scope.method ∈ safeMethods then .app (some ⟨principal, sessionToken, delegation⟩)
  else
    let origin := rstripSlash (header rt scope "origin")
    let csrf := header rt scope config.csrfHeaderName
    if !originAllowed rt config scope then .respond 403 "AUTH_ORIGIN_REJECTED"
    else
      match principal.csrfToken with
      | none => .respond 403 "AUTH_CSRF_REJECTED"
      | some expected =>
        if expected = "" then .respond 403 "AUTH_CSRF_REJECTED"
        else
          match compareDigest csrf expected with
          | .error error => .raised error
          | .ok false => .respond 403 "AUTH_CSRF_REJECTED"
          | .ok true =>
            .app (some ⟨principal, sessionToken, OrderedDict.insert
              (OrderedDict.insert delegation "Origin" origin) config.csrfHeaderName csrf⟩)

/-- The part of `SecurityMiddleware.__call__` for a request without an `Authorization` header. -/
def handleSession : Handled :=
  let sessionToken := cookie rt scope config.cookieName
  let authenticated :=
    if sessionToken = "" then .ok none
    else authority.authenticateSession rt.toTokenRuntime platform files sessionToken now
  match authenticated with
  | .error error => .raised error
  | .ok none => .respond 401 "AUTH_REQUIRED"
  | .ok (some principal) =>
    if resolvePath scope.path ∧ principal.kind = .browser then .respond 401 "AUTH_REQUIRED"
    else handleBrowser rt config scope sessionToken principal

/-- `SecurityMiddleware.__call__`. -/
def handle : Handled :=
  if scope.kind ≠ "http" then .app none
  else if scope.method = "GET" ∧ scope.path = "/health" then .app none
  else if scope.method = "POST" ∧ scope.path = "/api/auth/login" then
    if !authority.isProvisioned platform files then .respond 503 "AUTH_NOT_PROVISIONED"
    else if !originAllowed rt config scope then .respond 403 "AUTH_ORIGIN_REJECTED"
    else .app none
  else if !authority.isProvisioned platform files then .respond 503 "AUTH_NOT_PROVISIONED"
  else if scope.method = "OPTIONS" then
    if !originAllowed rt config scope then .respond 403 "AUTH_ORIGIN_REJECTED" else .app none
  else if header rt scope "authorization" ≠ "" then
    handleService authority files scope (header rt scope "authorization")
  else handleSession rt platform authority config files now scope

end Middleware

/-! ### Who reaches a handler -/

section Authenticated

variable {Path : Type} (rt : MiddlewareRuntime) (platform : Platform Path)
  (authority : SecurityAuthority Path) (config : MiddlewareConfig) (files : Path → MaterialFile)
  (now : ℤ) (scope : Scope)

/-- A request that needs no credential: `GET /health`, a login, or `OPTIONS` from an allowed
origin. -/
def OpenRequest : Prop :=
  scope.method = "GET" ∧ scope.path = "/health" ∨
    scope.method = "POST" ∧ scope.path = "/api/auth/login" ∨
      scope.method = "OPTIONS" ∧ originAllowed rt config scope = true

/-- The `Authorization` header carries the token of a service whose contract allows this method
and path. -/
def ServiceRequest : Prop :=
  ∃ token path kind contract, header rt scope "authorization" = "Bearer " ++ token ∧
    (path, kind) ∈ authority.serviceTokens ∧ (files path).readNonempty = some token ∧
      serviceRouteContract kind = some contract ∧ contract.allows scope.method scope.path = true

/-- The cookie carries a session that is valid now, the path is no secret-resolve path, and for a
method that changes something the origin is allowed and the CSRF header is the CSRF token of the
session. -/
def SessionRequest : Prop :=
  ∃ codec generation claims, authority.codec files = some codec ∧
    authority.generation rt.toTokenRuntime platform files = some generation ∧
      codec.verify rt.toTokenRuntime (cookie rt scope config.cookieName) generation now =
        .ok claims ∧
      resolvePath scope.path = false ∧
        (scope.method ∈ safeMethods ∨ originAllowed rt config scope = true ∧
          header rt scope config.csrfHeaderName = claims.csrfToken)

variable {rt platform authority config files now scope}

lemma compareDigest_eq_true {a b : String} (h : compareDigest a b = .ok true) : a = b := by
  unfold compareDigest at h
  split at h
  · simpa using h
  · simp at h

/-- A service that is recognised has presented the token in one of the token files. -/
lemma mem_of_findService {token : String} {principal : AuthenticatedPrincipal} :
    ∀ {tokens : List (Path × PrincipalKind)},
      findService files token tokens = .ok (some principal) →
        ∃ path, (path, principal.kind) ∈ tokens ∧ (files path).readNonempty = some token
  | [], h => by simp [findService] at h
  | (path, kind) :: rest, h => by
    have hrest : findService files token rest = .ok (some principal) →
        ∃ p, (p, principal.kind) ∈ (path, kind) :: rest ∧ (files p).readNonempty = some token := by
      intro hfound
      obtain ⟨p, hp, hread⟩ := mem_of_findService hfound
      exact ⟨p, List.mem_cons_of_mem _ hp, hread⟩
    unfold findService at h
    split at h
    · exact hrest h
    · rename_i expected hread
      obtain ⟨same, hsame, hfound⟩ := ok_of_bind h
      cases same with
      | false => exact hrest (by simpa using hfound)
      | true =>
        obtain rfl := compareDigest_eq_true hsame
        obtain rfl := Option.some.inj (Except.ok.inj hfound)
        exact ⟨path, List.mem_cons_self, hread⟩

lemma serviceRequest_of_handleService {state : Option AuthState}
    (h : handleService authority files scope (header rt scope "authorization") = .app state) :
    ServiceRequest rt authority files scope := by
  simp only [handleService] at h
  by_cases hbearer : beforeFirst ' ' (header rt scope "authorization") = "Bearer" ∧
      ' ' ∈ (header rt scope "authorization").toList
  · rw [if_pos hbearer] at h
    split at h
    · simp at h
    · simp at h
    · rename_i principal hprincipal
      split_ifs at h with hallowed
      obtain ⟨path, hpath, hread⟩ := mem_of_findService hprincipal
      unfold serviceRouteAllowed at hallowed
      split at hallowed
      · rename_i contract hcontract
        refine ⟨_, path, principal.kind, contract, ?_, hpath, hread, hcontract, hallowed⟩
        refine String.toList_inj.mp ((toList_eq_parts hbearer.2).trans ?_)
        simp [hbearer.1]
      · simp at hallowed
  · rw [if_neg hbearer] at h
    simp at h

/-- A session that is recognised is a token that `verify` accepts. -/
lemma claims_of_authenticateSession {token : String} {principal : AuthenticatedPrincipal}
    (h : authority.authenticateSession rt.toTokenRuntime platform files token now =
      .ok (some principal)) :
    ∃ codec generation claims, authority.codec files = some codec ∧
      authority.generation rt.toTokenRuntime platform files = some generation ∧
        codec.verify rt.toTokenRuntime token generation now = .ok claims ∧
          principal = ⟨claims.subject, .browser, some claims.csrfToken, some claims.expiresAt⟩ := by
  unfold SecurityAuthority.authenticateSession at h
  split at h
  · rename_i codec generation hcodec hgeneration
    split at h
    · rename_i claims hverify
      exact ⟨codec, generation, claims, hcodec, hgeneration, hverify,
        (Option.some.inj (Except.ok.inj h)).symm⟩
    · simp at h
    · simp at h
  · simp at h

/-- A session that changes something is let through from an allowed origin with its CSRF token. -/
lemma safe_of_handleBrowser {token subject csrfToken : String} {kind : PrincipalKind}
    {expiresAt : Option ℤ} {state : Option AuthState}
    (h : handleBrowser rt config scope token ⟨subject, kind, some csrfToken, expiresAt⟩ =
      .app state) :
    scope.method ∈ safeMethods ∨ originAllowed rt config scope = true ∧
      header rt scope config.csrfHeaderName = csrfToken := by
  by_cases hsafe : scope.method ∈ safeMethods
  · exact .inl hsafe
  · simp only [handleBrowser, if_neg hsafe] at h
    split_ifs at h with horigin hempty
    split at h
    · simp at h
    · simp at h
    · rename_i hsame
      exact .inr ⟨by simpa using horigin, compareDigest_eq_true hsame⟩

lemma sessionRequest_of_handleSession {state : Option AuthState}
    (h : handleSession rt platform authority config files now scope = .app state) :
    SessionRequest rt platform authority config files now scope := by
  simp only [handleSession] at h
  by_cases hempty : cookie rt scope config.cookieName = ""
  · rw [if_pos hempty] at h
    simp at h
  · rw [if_neg hempty] at h
    split at h
    · simp at h
    · simp at h
    · rename_i principal hprincipal
      split_ifs at h with hresolve
      obtain ⟨codec, generation, claims, hcodec, hgeneration, hverify, rfl⟩ :=
        claims_of_authenticateSession hprincipal
      refine ⟨codec, generation, claims, hcodec, hgeneration, hverify, ?_,
        safe_of_handleBrowser h⟩
      simpa using hresolve

/-- The wrapped application is called for a request that is not open only with security
provisioned and the request authenticated. -/
theorem authenticated_of_handle {state : Option AuthState} (hhttp : scope.kind = "http")
    (hopen : ¬ OpenRequest rt config scope)
    (h : handle rt platform authority config files now scope = .app state) :
    authority.isProvisioned platform files = true ∧
      (ServiceRequest rt authority files scope ∨
        SessionRequest rt platform authority config files now scope) := by
  simp only [OpenRequest, not_or] at hopen
  obtain ⟨hhealth, hlogin, hoptions⟩ := hopen
  unfold handle at h
  rw [if_neg (not_not.mpr hhttp), if_neg hhealth, if_neg hlogin] at h
  split_ifs at h with hprovisioned hmethod horigin hauthorization
  · exact absurd ⟨hmethod, by simpa using horigin⟩ hoptions
  · exact ⟨by simpa using hprovisioned, .inl (serviceRequest_of_handleService h)⟩
  · exact ⟨by simpa using hprovisioned, .inr (sessionRequest_of_handleSession h)⟩

end Authenticated

/-! ### A request of the memory service -/

/-- The built-ins on ASCII text; the request has neither a session nor a cookie. -/
def readerRuntime : MiddlewareRuntime where
  toPyRuntime := .ascii
  hmacSha256 _ _ := []
  loads _ := none
  parseCookie _ := some []

def readerPlatform : Platform String where
  withName _ name := name
  parents _ := []
  scrypt _ _ := []

def readerAuthority : SecurityAuthority String :=
  ⟨⟨"credential.hash", "session.key", "secret-resolve", "memory-read"⟩, 28800⟩

def readerConfig : MiddlewareConfig := ⟨"trion_session", "x-csrf-token", ["http://localhost:8400"]⟩

def readerFiles (path : String) : MaterialFile :=
  .file (encode ((if path = "memory-read" then "reader" else "other") ++ "\n"))

def latin1 (s : String) : List UInt8 := s.toList.map fun c => UInt8.ofNat c.toNat

def readerScope : Scope :=
  ⟨"http", "GET", "/api/runtime/compute/routing",
    [(latin1 "Authorization", latin1 "Bearer reader")]⟩

lemma readNonempty_readerFiles (path : String) :
    (readerFiles path).readNonempty =
      some (if path = "memory-read" then "reader" else "other") := by
  have hline : ∀ text : String, text ≠ "" → text.toList.all (!isSpace ·) = true →
      (MaterialFile.file (encode (text ++ "\n"))).readNonempty = some text := by
    intro text hne hspace
    exact readNonempty_line hne fun c hc => by simpa using List.all_eq_true.mp hspace c hc
  unfold readerFiles
  split_ifs
  · exact hline "reader" (by decide) (by decide)
  · exact hline "other" (by decide) (by decide)

lemma isProvisioned_readerFiles :
    readerAuthority.isProvisioned readerPlatform readerFiles = true := by
  refine List.all_eq_true.mpr fun path _ => ?_
  have hread := readNonempty_readerFiles path
  rcases hfile : readerFiles path with _ | size | _ | ⟨byte, content⟩
  · simp [readerFiles] at hfile
  · simp [readerFiles] at hfile
  · have hempty : (MaterialFile.file []).readNonempty = none := by decide
    rw [hfile, hempty] at hread
    exact absurd hread (Option.some_ne_none _).symm
  · simp [MaterialFile.hasContent]

lemma handle_readerScope :
    handle readerRuntime readerPlatform readerAuthority readerConfig readerFiles 0 readerScope =
      .app (some ⟨⟨"memory_read", .memoryRead, none, none⟩, "reader", []⟩) := by
  have hheader : header readerRuntime readerScope "authorization" = "Bearer reader" := by decide
  have hservice : readerAuthority.authenticateService readerFiles "reader" =
      .ok (some ⟨"memory_read", .memoryRead, none, none⟩) := by
    simp only [SecurityAuthority.authenticateService, SecurityAuthority.serviceTokens,
      readerAuthority, findService, readNonempty_readerFiles]
    decide
  have htoken : afterFirst ' ' "Bearer reader" = "reader" := by decide
  simp only [handle, isProvisioned_readerFiles, hheader, handleService, htoken, hservice]
  decide

/-- The memory service reaches the routes it is allowed. -/
theorem authenticated_of_handle_reader :
    readerAuthority.isProvisioned readerPlatform readerFiles = true ∧
      (ServiceRequest readerRuntime readerAuthority readerFiles readerScope ∨
        SessionRequest readerRuntime readerPlatform readerAuthority readerConfig readerFiles 0
          readerScope) :=
  authenticated_of_handle rfl (by simp [OpenRequest, readerScope]) handle_readerScope

end Trion.Security
