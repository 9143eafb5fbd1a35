import Trion.Security.Middleware

/-!
# Requests without an answer

`hmac.compare_digest` takes texts of ASCII characters only, and the header bytes are decoded to
texts of any Latin-1 characters.  A request with another service or CSRF token gets no answer: the
`TypeError` leaves the middleware.  So does the `OverflowError` of a signed token that names an
infinite number.
-/

namespace Trion.Security

open Trion.Python

/-! ### What is promised -/

/-- The error responses. -/
def fixedErrors : List (ℕ × String) :=
  [(503, "AUTH_NOT_PROVISIONED"), (403, "AUTH_ORIGIN_REJECTED"), (403, "AUTH_SERVICE_FORBIDDEN"),
    (401, "AUTH_REQUIRED"), (403, "AUTH_CSRF_REJECTED")]

/-- The wrapped application is called, or one of the error responses is sent. -/
def Handled.IsAnswer : Handled → Prop
  | .app _ => True
  | .respond status code => (status, code) ∈ fixedErrors
  | .raised _ => False

/-! ### When it is kept -/

/-- The text is one of ASCII characters. -/
def isAscii (s : String) : Bool := s.toList.all (·.toNat < 128)

/-- The value is a number that `int` cannot take. -/
def IsInfinite (value : PyVal) : Prop := value = .float .inf ∨ value = .float .negInf

/-- `data[key]`. -/
def claimed? (data : PyVal) (key : String) : Option PyVal :=
  match data with
  | .dict d => d.lookup key
  | _ => none

/-- The JSON value of a token names an infinite generation, or an infinite expiry next to a
generation that is a number. -/
def NamesInfinity (rt : PyRuntime) (data : PyVal) : Prop :=
  (claimed? data "sub").isSome ∧ (claimed? data "nonce").isSome ∧
    ∃ gen, claimed? data "gen" = some gen ∧
      (IsInfinite gen ∨ (∃ n, gen.toInt rt = .ok n) ∧
        ∃ exp, claimed? data "exp" = some exp ∧ IsInfinite exp)

/-- The JSON value of a token whose second part is the keyed hash of the first. -/
def SessionCodec.signedData (rt : TokenRuntime) (codec : SessionCodec) (token : String) :
    Option PyVal :=
  if '.' ∈ token.toList ∧ afterFirst '.' token = codec.keyed rt (beforeFirst '.' token) then
    (b64decode (beforeFirst '.' token).toList).bind rt.loads
  else none

section Conditions

variable {Path : Type} (rt : MiddlewareRuntime) (platform : Platform Path)
  (authority : SecurityAuthority Path) (config : MiddlewareConfig) (files : Path → MaterialFile)
  (now : ℤ) (scope : Scope)

/-- The request gets as far as its credential. -/
def NeedsCredential : Prop :=
  scope.kind = "http" ∧ ¬(scope.method = "GET" ∧ scope.path = "/health") ∧
    ¬(scope.method = "POST" ∧ scope.path = "/api/auth/login") ∧
      authority.isProvisioned platform files = true ∧ scope.method ≠ "OPTIONS"

/-- Whenever the token is compared with an installed one, both are ASCII. -/
def ComparesAscii (token : String) (tokens : List (Path × PrincipalKind)) : Prop :=
  ∀ before path kind after expected, tokens = before ++ (path, kind) :: after →
    (files path).readNonempty = some expected →
      (∀ entry ∈ before, (files entry.1).readNonempty ≠ some token) →
        isAscii token = true ∧ isAscii expected = true

/-- The service token, if the request has one, can be compared. -/
def ServiceComparable : Prop :=
  beforeFirst ' ' (header rt scope "authorization") = "Bearer" →
    ' ' ∈ (header rt scope "authorization").toList →
      ComparesAscii files (afterFirst ' ' (header rt scope "authorization")) authority.serviceTokens

/-- The session token, if it is signed, names finite numbers, and if it is valid for a request that
changes something, the CSRF header can be compared. -/
def SessionComparable : Prop :=
  cookie rt scope config.cookieName ≠ "" →
    ∀ codec generation, authority.codec files = some codec →
      authority.generation rt.toTokenRuntime platform files = some generation →
        (∀ data,
          codec.signedData rt.toTokenRuntime (cookie rt scope config.cookieName) = some data →
            ¬NamesInfinity rt.toPyRuntime data) ∧
        ∀ claims,
          codec.verify rt.toTokenRuntime (cookie rt scope config.cookieName) generation now =
              .ok claims →
            resolvePath scope.path = false → scope.method ∉ safeMethods →
              originAllowed rt config scope = true → claims.csrfToken ≠ "" →
                isAscii (header rt scope config.csrfHeaderName) = true

end Conditions

/-! ### Comparisons of service tokens -/

section Service

variable {Path : Type} {authority : SecurityAuthority Path} {files : Path → MaterialFile}
  {token : String}

lemma compareDigest_cases (a b : String) :
    (isAscii a = true ∧ isAscii b = true ∧ compareDigest a b = .ok (a == b)) ∨
      (¬(isAscii a = true ∧ isAscii b = true) ∧ compareDigest a b = .error .typeError) := by
  unfold compareDigest
  split_ifs with h
  · rw [Bool.and_eq_true] at h
    exact .inl ⟨h.1, h.2, rfl⟩
  · rw [Bool.and_eq_true] at h
    exact .inr ⟨h, rfl⟩

/-- What the first token file means for the condition. -/
lemma comparesAscii_cons {path : Path} {kind : PrincipalKind}
    {tokens : List (Path × PrincipalKind)} :
    ComparesAscii files token ((path, kind) :: tokens) ↔
      (∀ expected, (files path).readNonempty = some expected →
        isAscii token = true ∧ isAscii expected = true) ∧
      ((files path).readNonempty ≠ some token → ComparesAscii files token tokens) := by
  constructor
  · intro h
    refine ⟨fun expected hread => h [] path kind tokens expected rfl hread nofun, ?_⟩
    rintro hother before path' kind' after expected rfl hread hbefore
    refine h ((path, kind) :: before) path' kind' after expected rfl hread ?_
    exact List.forall_mem_cons.mpr ⟨hother, hbefore⟩
  · rintro ⟨hfirst, hrest⟩ before path' kind' after expected heq hread hbefore
    cases before with
    | nil =>
      obtain ⟨hhead, -⟩ := List.cons_eq_cons.mp heq
      obtain ⟨rfl, -⟩ := Prod.mk.inj hhead
      exact hfirst expected hread
    | cons entry before =>
      obtain ⟨rfl, rfl⟩ := List.cons_eq_cons.mp heq
      obtain ⟨hother, hbefore⟩ := List.forall_mem_cons.mp hbefore
      exact hrest hother before path' kind' after expected rfl hread hbefore

/-- The loop of `authenticate_service` returns just where every comparison is one of ASCII
texts. -/
lemma findService_returns_iff {tokens : List (Path × PrincipalKind)} :
    (∃ found, findService files token tokens = .ok found) ↔
      ComparesAscii files token tokens := by
  induction tokens with
  | nil =>
    refine iff_of_true ⟨none, rfl⟩ ?_
    intro before path kind after expected heq
    exact absurd heq.symm (List.append_ne_nil_of_right_ne_nil _ (List.cons_ne_nil _ _))
  | cons entry tokens ih =>
    obtain ⟨path, kind⟩ := entry
    rw [comparesAscii_cons, ← ih, findService]
    cases hread : (files path).readNonempty with
    | none => simp
    | some expected =>
      rcases compareDigest_cases token expected with ⟨htoken, hexpected, hsame⟩ | ⟨hnot, hraise⟩
      · simp only [hsame, bind_ok]
        by_cases heq : token = expected
        · subst heq
          simp [htoken, pure, Except.pure]
        · simp [htoken, hexpected, heq, Ne.symm heq]
      · simp only [hraise]
        refine iff_of_false ?_ fun h => hnot (h.1 expected rfl)
        rintro ⟨found, hfound⟩
        cases hfound

end Service

/-! ### Session tokens -/

section Session

variable {rt : TokenRuntime} {codec : SessionCodec} {token : String} {generation now : ℤ}
  {data : PyVal}

lemma claim_eq (data : PyVal) (key : String) :
    claim data key = orMalformed (claimed? data key) := by
  cases data with
  | dict d =>
    simp only [claim, claimed?]
    cases d.lookup key <;> rfl
  | _ => rfl

/-- `int` raises an error that `verify` does not catch just on infinite numbers. -/
lemma claimInt_raised_iff {rt : PyRuntime} {value : PyVal} :
    (∃ error, claimInt rt value = .error (.raised error)) ↔ IsInfinite value := by
  unfold claimInt
  cases value with
  | float f => cases f <;> simp [PyVal.toInt, IsInfinite]
  | str text =>
    simp only [PyVal.toInt, IsInfinite]
    cases rt.parseInt text <;> simp
  | _ => simp [PyVal.toInt, IsInfinite]

lemma claimInt_ok_iff {rt : PyRuntime} {value : PyVal} {n : ℤ} :
    claimInt rt value = .ok n ↔ value.toInt rt = .ok n := by
  unfold claimInt
  split <;> simp_all

lemma error_bind {ε α β : Type} (e : ε) (f : α → Except ε β) :
    (.error e : Except ε α) >>= f = .error e := rfl

/-- What `int` makes of a claim, one case for each end. -/
lemma claimInt_cases (rt : PyRuntime) (value : PyVal) :
    (∃ n, claimInt rt value = .ok n ∧ value.toInt rt = .ok n ∧ ¬IsInfinite value) ∨
      (∃ error, claimInt rt value = .error (.raised error) ∧ IsInfinite value) ∨
        (∃ reason, claimInt rt value = .error (.rejected reason) ∧ ¬IsInfinite value ∧
          ¬∃ n, value.toInt rt = .ok n) := by
  have hraised := @claimInt_raised_iff rt value
  cases hint : claimInt rt value with
  | ok n =>
    refine .inl ⟨n, rfl, claimInt_ok_iff.mp hint, fun hinf => ?_⟩
    obtain ⟨error, herror⟩ := hraised.mpr hinf
    exact nomatch hint.symm.trans herror
  | error end_ =>
    cases end_ with
    | raised error => exact .inr (.inl ⟨error, rfl, hraised.mp ⟨error, hint⟩⟩)
    | rejected reason =>
      refine .inr (.inr ⟨reason, rfl, fun hinf => ?_, ?_⟩)
      · obtain ⟨error, herror⟩ := hraised.mpr hinf
        exact nomatch hint.symm.trans herror
      · rintro ⟨n, hn⟩
        exact nomatch hint.symm.trans (claimInt_ok_iff.mpr hn)

/-- Reading the claims of a token raises just where they name an infinite number. -/
lemma readClaims_raised_iff :
    (∃ error, codec.readClaims rt data generation now = .error (.raised error)) ↔
      NamesInfinity rt.toPyRuntime data := by
  unfold SessionCodec.readClaims NamesInfinity
  simp only [claim_eq]
  cases claimed? data "sub" with
  | none => simp [orMalformed, error_bind]
  | some sub =>
    cases claimed? data "nonce" with
    | none => simp [orMalformed, error_bind, bind_ok]
    | some nonce =>
      cases claimed? data "gen" with
      | none => simp [orMalformed, error_bind, bind_ok]
      | some gen =>
        simp only [orMalformed, bind_ok, Option.isSome_some, true_and, Option.some.injEq,
          exists_eq_left']
        rcases claimInt_cases rt.toPyRuntime gen with ⟨n, hint, hn, hfinite⟩ |
          ⟨error, hint, hinf⟩ | ⟨reason, hint, hfinite, hnone⟩
        · simp only [hint, bind_ok, hfinite, false_or, hn]
          cases claimed? data "exp" with
          | none => simp [error_bind]
          | some exp =>
            simp only [bind_ok]
            rcases claimInt_cases rt.toPyRuntime exp with ⟨m, hexp, -, hfinite⟩ |
              ⟨error, hexp, hinf⟩ | ⟨reason, hexp, hfinite, -⟩
            · simp only [hexp, bind_ok]
              refine iff_of_false ?_ (by simp [hfinite])
              rintro ⟨error, herror⟩
              split_ifs at herror
              cases herror
            · simp [hexp, error_bind, hinf]
            · simp [hexp, error_bind, hfinite]
        · simp [hint, error_bind, hinf]
        · simp only [hint, error_bind, hfinite, hnone, false_or, false_and, iff_false]
          rintro ⟨error, herror⟩
          cases herror

/-- A token whose second part is the keyed hash of the first is judged by its claims. -/
lemma verify_of_signed (h : codec.signedData rt token = some data) :
    codec.verify rt token generation now = codec.readClaims rt data generation now := by
  unfold SessionCodec.signedData at h
  split_ifs at h with hsigned
  obtain ⟨hdot, hsignature⟩ := hsigned
  obtain ⟨payload, hpayload, hdata⟩ := Option.bind_eq_some_iff.mp h
  have hascii := encodeAscii_of_payload ((b64decode_eq_some_iff _ _).mp hpayload)
  have hsupplied := b64decode_keyed rt codec (beforeFirst '.' token)
  rw [← hsignature] at hsupplied
  unfold SessionCodec.verify
  rw [if_neg (not_not.mpr hdot)]
  simp only [hascii, hsupplied, hpayload, hdata, orMalformed, bind_ok, ne_eq, not_true_eq_false,
    if_false]

/-- Any other token is rejected. -/
lemma verify_of_unsigned (h : codec.signedData rt token = none) :
    ∃ reason, codec.verify rt token generation now = .error (.rejected reason) := by
  unfold SessionCodec.verify
  by_cases hdot : '.' ∉ token.toList
  · exact ⟨_, if_pos hdot⟩
  · rw [if_neg hdot]
    rw [not_not] at hdot
    cases hmessage : encodeAscii (beforeFirst '.' token) with
    | none => exact ⟨"malformed", by simp only [hmessage, orMalformed, error_bind]⟩
    | some message =>
      cases hsupplied : b64decode (afterFirst '.' token).toList with
      | none =>
        exact ⟨"malformed", by simp only [hmessage, hsupplied, orMalformed, bind_ok, error_bind]⟩
      | some signature =>
        simp only [hmessage, hsupplied, orMalformed, bind_ok]
        by_cases hkeyed : rt.hmacSha256 codec.signingKey message = signature
        · obtain ⟨-, rfl⟩ := encodeAscii_eq_some_iff.mp hmessage
          have hsignature : afterFirst '.' token = codec.keyed rt (beforeFirst '.' token) := by
            rw [SessionCodec.keyed, hkeyed, ← (b64decode_eq_some_iff _ _).mp hsupplied,
              String.ofList_toList]
          rw [SessionCodec.signedData, if_pos ⟨hdot, hsignature⟩] at h
          rw [if_neg (not_not.mpr hkeyed)]
          cases hpayload : b64decode (beforeFirst '.' token).toList with
          | none => exact ⟨_, rfl⟩
          | some payload =>
            rw [hpayload, Option.bind_some] at h
            simp only [h, bind_ok]
            exact ⟨_, rfl⟩
        · exact ⟨_, if_pos hkeyed⟩

/-- `verify` raises an error it does not catch just for a signed token that names an infinite
number. -/
lemma verify_raised_iff : (∃ error, codec.verify rt token generation now = .error (.raised error)) ↔
    ∃ data, codec.signedData rt token = some data ∧ NamesInfinity rt.toPyRuntime data := by
  cases hsigned : codec.signedData rt token with
  | none =>
    obtain ⟨reason, hreason⟩ := @verify_of_unsigned _ _ _ generation now hsigned
    simp [hreason]
  | some data => simp [verify_of_signed hsigned, readClaims_raised_iff]

end Session

/-! ### The middleware -/

section Requests

variable {Path : Type} {rt : MiddlewareRuntime} {platform : Platform Path}
  {authority : SecurityAuthority Path} {config : MiddlewareConfig} {files : Path → MaterialFile}
  {now : ℤ} {scope : Scope}

lemma handleService_isAnswer_iff :
    (handleService authority files scope (header rt scope "authorization")).IsAnswer ↔
      ServiceComparable rt authority files scope := by
  unfold ServiceComparable
  by_cases hbearer : beforeFirst ' ' (header rt scope "authorization") = "Bearer" ∧
      ' ' ∈ (header rt scope "authorization").toList
  · simp only [handleService, hbearer.1, hbearer.2, forall_const,
      SecurityAuthority.authenticateService]
    rw [← findService_returns_iff]
    cases findService files (afterFirst ' ' (header rt scope "authorization"))
        authority.serviceTokens with
    | error error => simp [Handled.IsAnswer]
    | ok found =>
      cases found with
      | none => simp [Handled.IsAnswer, fixedErrors]
      | some principal =>
        by_cases hallowed : serviceRouteAllowed principal.kind scope.method scope.path = true
        · simp [hallowed, Handled.IsAnswer]
        · simp [hallowed, Handled.IsAnswer, fixedErrors]
  · simp only [handleService, if_neg hbearer]
    refine iff_of_true (by simp [Handled.IsAnswer, fixedErrors]) fun hname hspace => ?_
    exact absurd ⟨hname, hspace⟩ hbearer

/-- The CSRF token of a session is ASCII. -/
lemma isAscii_keyed (rt : TokenRuntime) (codec : SessionCodec) (text : String) :
    isAscii (codec.keyed rt text) = true := by
  refine List.all_eq_true.mpr fun c hc => ?_
  rw [SessionCodec.keyed, String.toList_ofList] at hc
  exact decide_eq_true (ascii_of_mem_b64encode hc)

lemma handleBrowser_isAnswer_iff {token subject csrfToken : String} {kind : PrincipalKind}
    {expiresAt : Option ℤ} (hcsrf : isAscii csrfToken = true) :
    (handleBrowser rt config scope token ⟨subject, kind, some csrfToken, expiresAt⟩).IsAnswer ↔
      (scope.method ∉ safeMethods → originAllowed rt config scope = true → csrfToken ≠ "" →
        isAscii (header rt scope config.csrfHeaderName) = true) := by
  by_cases hsafe : scope.method ∈ safeMethods
  · simp [handleBrowser, hsafe, Handled.IsAnswer]
  by_cases horigin : originAllowed rt config scope = true
  · by_cases hempty : csrfToken = ""
    · simp [handleBrowser, hsafe, horigin, hempty, Handled.IsAnswer, fixedErrors]
    · simp only [handleBrowser, horigin, Bool.not_true, Bool.false_eq_true, if_false, hsafe,
        not_false_eq_true, ne_eq, hempty, forall_const]
      rcases compareDigest_cases (header rt scope config.csrfHeaderName) csrfToken with
        ⟨hascii, -, hsame⟩ | ⟨hnot, hraise⟩
      · simp only [hsame, hascii, iff_true]
        cases header rt scope config.csrfHeaderName == csrfToken <;>
          simp [Handled.IsAnswer, fixedErrors]
      · simp only [hraise]
        exact iff_of_false id fun hascii => hnot ⟨hascii, hcsrf⟩
  · simp [handleBrowser, hsafe, horigin, Handled.IsAnswer, fixedErrors]

/-- The CSRF token of a session that is accepted is a keyed text. -/
lemma csrfToken_of_verify {rt : TokenRuntime} {codec : SessionCodec} {token : String}
    {generation now : ℤ} {claims : SessionClaims}
    (h : codec.verify rt token generation now = .ok claims) :
    ∃ text, claims.csrfToken = codec.keyed rt text := by
  obtain ⟨-, -, payload, data, -, -, h⟩ := verify_eq_ok_iff.mp h
  unfold SessionCodec.readClaims at h
  obtain ⟨subject, -, h⟩ := ok_of_bind h
  obtain ⟨nonce, -, h⟩ := ok_of_bind h
  obtain ⟨_, -, h⟩ := ok_of_bind h
  obtain ⟨tokenGeneration, -, h⟩ := ok_of_bind h
  obtain ⟨_, -, h⟩ := ok_of_bind h
  obtain ⟨_, -, h⟩ := ok_of_bind h
  split_ifs at h
  obtain rfl := Except.ok.inj h
  exact ⟨_, rfl⟩

lemma handleSession_isAnswer_iff :
    (handleSession rt platform authority config files now scope).IsAnswer ↔
      SessionComparable rt platform authority config files now scope := by
  have hrejected : (Handled.respond 401 "AUTH_REQUIRED").IsAnswer := by
    simp [Handled.IsAnswer, fixedErrors]
  by_cases hempty : cookie rt scope config.cookieName = ""
  · simp only [handleSession, if_pos hempty]
    exact iff_of_true hrejected fun h => absurd hempty h
  refine Iff.trans ?_ (forall_prop_of_true hempty).symm
  simp only [handleSession, if_neg hempty, SecurityAuthority.authenticateSession]
  cases hcodec : authority.codec files with
  | none => exact iff_of_true hrejected fun _ _ h => by cases h
  | some codec =>
    cases hgeneration : authority.generation rt.toTokenRuntime platform files with
    | none => exact iff_of_true hrejected fun _ _ _ h => by cases h
    | some generation =>
      refine Iff.trans ?_ ⟨fun h _ _ hsame hsame' => Option.some.inj hsame ▸
        Option.some.inj hsame' ▸ h, fun h => h codec generation rfl rfl⟩
      have hraised := @verify_raised_iff rt.toTokenRuntime codec
        (cookie rt scope config.cookieName) generation now
      cases hverify : codec.verify rt.toTokenRuntime (cookie rt scope config.cookieName) generation
          now with
      | ok claims =>
        have hfinite : ∀ data, codec.signedData rt.toTokenRuntime
            (cookie rt scope config.cookieName) = some data →
            ¬NamesInfinity rt.toPyRuntime data := by
          intro data hdata hinf
          obtain ⟨error, herror⟩ := hraised.mpr ⟨data, hdata, hinf⟩
          rw [hverify] at herror
          cases herror
        have hcsrf : isAscii claims.csrfToken = true := by
          obtain ⟨text, htext⟩ := csrfToken_of_verify hverify
          rw [htext]
          exact isAscii_keyed _ _ _
        rw [and_iff_right hfinite]
        refine Iff.trans ?_ ⟨fun h _ hsame => Except.ok.inj hsame ▸ h, fun h => h claims rfl⟩
        by_cases hresolve : resolvePath scope.path = true
        · simp [hverify, hresolve, hrejected]
        · simp only [hverify, hresolve, Bool.false_eq_true, false_and, if_false, forall_const]
          exact handleBrowser_isAnswer_iff hcsrf
      | error end_ =>
        cases end_ with
        | rejected reason =>
          simp only [hverify]
          refine iff_of_true hrejected ⟨fun data hdata hinf => ?_, fun _ h => by cases h⟩
          obtain ⟨error, herror⟩ := hraised.mpr ⟨data, hdata, hinf⟩
          rw [hverify] at herror
          cases herror
        | raised error =>
          obtain ⟨data, hdata, hinf⟩ := hraised.mp ⟨error, hverify⟩
          simp only [hverify]
          exact iff_of_false id fun h => h.1 data hdata hinf

/-- A request is answered just where it does not get as far as its credential, or what is compared
with its service or CSRF token is ASCII and a signed session token names finite numbers. -/
theorem handle_isAnswer_iff :
    (handle rt platform authority config files now scope).IsAnswer ↔
      (NeedsCredential platform authority files scope →
        if header rt scope "authorization" ≠ "" then ServiceComparable rt authority files scope
        else SessionComparable rt platform authority config files now scope) := by
  have hfixed : ∀ {status code}, (status, code) ∈ fixedErrors →
      (Handled.respond status code).IsAnswer := id
  unfold handle
  by_cases hkind : scope.kind = "http"
  swap
  · rw [if_pos hkind]
    exact iff_of_true trivial fun h => absurd h.1 hkind
  rw [if_neg (not_not.mpr hkind)]
  by_cases hhealth : scope.method = "GET" ∧ scope.path = "/health"
  · rw [if_pos hhealth]
    exact iff_of_true trivial fun h => absurd hhealth h.2.1
  rw [if_neg hhealth]
  by_cases hlogin : scope.method = "POST" ∧ scope.path = "/api/auth/login"
  · rw [if_pos hlogin]
    refine iff_of_true ?_ fun h => absurd hlogin h.2.2.1
    split_ifs
    · exact hfixed (by simp [fixedErrors])
    · exact hfixed (by simp [fixedErrors])
    · exact trivial
  rw [if_neg hlogin]
  by_cases hprovisioned : authority.isProvisioned platform files = true
  swap
  · rw [if_pos (by simpa using hprovisioned)]
    exact iff_of_true (hfixed (by simp [fixedErrors])) fun h => absurd h.2.2.2.1 hprovisioned
  rw [if_neg (by simpa using hprovisioned)]
  by_cases hoptions : scope.method = "OPTIONS"
  · rw [if_pos hoptions]
    refine iff_of_true ?_ fun h => absurd hoptions h.2.2.2.2
    split_ifs
    · exact hfixed (by simp [fixedErrors])
    · exact trivial
  -- the request gets as far as its credential
  rw [if_neg hoptions, forall_prop_of_true (show NeedsCredential platform authority files scope from
    ⟨hkind, hhealth, hlogin, hprovisioned, hoptions⟩)]
  by_cases hauthorization : header rt scope "authorization" ≠ ""
  · rw [if_pos hauthorization, if_pos hauthorization]
    exact handleService_isAnswer_iff
  · rw [if_neg hauthorization, if_neg hauthorization]
    exact handleSession_isAnswer_iff

end Requests

/-! ### A token that is not ASCII -/

/-- A request of the memory service whose token is the byte `0xE9`. -/
def foreignScope : Scope :=
  ⟨"http", "GET", "/api/runtime/compute/routing",
    [(latin1 "Authorization", latin1 "Bearer " ++ [0xE9])]⟩

lemma handle_foreignScope :
    handle readerRuntime readerPlatform readerAuthority readerConfig readerFiles 0 foreignScope =
      .raised .typeError := by
  have hheader : header readerRuntime foreignScope "authorization" = "Bearer é" := by decide
  have htoken : afterFirst ' ' "Bearer é" = "é" := by decide
  have hservice : readerAuthority.authenticateService readerFiles "é" = .error .typeError := by
    simp only [SecurityAuthority.authenticateService, SecurityAuthority.serviceTokens,
      readerAuthority, findService, readNonempty_readerFiles]
    decide
  simp only [handle, isProvisioned_readerFiles, hheader, handleService, htoken, hservice]
  decide

/-- It is not answered. -/
theorem not_isAnswer_foreignScope :
    ¬(handle readerRuntime readerPlatform readerAuthority readerConfig readerFiles 0
      foreignScope).IsAnswer := by
  rw [handle_foreignScope]
  exact id

end Trion.Security
