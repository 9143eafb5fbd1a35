import Trion.Library.OperationRun
import Trion.Python.CanonicalJson
import Trion.Security.Contracts

/-!
# Session tokens

A token is the base64 text of a JSON payload and the base64 text of the keyed hash of that text.
The codec keys the CSRF token of a session with the same key.  The authority keeps the key and
the generation of the valid sessions in files, and a revocation writes the next generation.

The keyed hash and `json.loads` are parameters.
-/

namespace Trion.Security

open Trion.Python OperationRun

/-- What the token code uses of the standard library: `hmac.new(key, message, sha256).digest()`,
and `json.loads` on bytes, `none` where it raises a `ValueError`; that it raises a
`RecursionError` on a deeply nested text is left out. -/
structure TokenRuntime extends PyRuntime where
  hmacSha256 (key message : List UInt8) : List UInt8
  loads : List UInt8 → Option PyVal

/-- `str.encode("ascii")`, `none` where it raises a `ValueError`. -/
def encodeAscii (s : String) : Option (List UInt8) :=
  if s.toList.all (·.toNat < 128) then some (encode s) else none

/-! ### The codec -/

/-- `SessionCodec`. -/
structure SessionCodec where
  signingKey : List UInt8
  ttlSeconds : ℤ
  key_length : 16 ≤ signingKey.length
  ttl_pos : 0 < ttlSeconds

/-- `SessionCodec.__init__`, `none` where it raises a `ValueError`. -/
def SessionCodec.create? (signingKey : List UInt8) (ttlSeconds : ℤ) : Option SessionCodec :=
  if h : 16 ≤ signingKey.length ∧ 0 < ttlSeconds then some ⟨signingKey, ttlSeconds, h.1, h.2⟩
  else none

/-- How `verify` fails: by `SessionRejected` with its reason, or by an exception that it does
not catch. -/
inductive VerifyError where
  | rejected (reason : String)
  | raised (error : PyError)
  deriving DecidableEq

/-- The text that `_csrf` hashes. -/
def csrfText (subject : String) (generation : ℤ) (nonce : String) : String :=
  "csrf:" ++ subject ++ ":" ++ toString generation ++ ":" ++ nonce

/-- The dictionary that `issue` writes. -/
def sessionPayload (subject : String) (generation expires : ℤ) (nonce : String) : PyDict :=
  [("sub", .str subject), ("gen", .int generation), ("exp", .int expires), ("nonce", .str nonce)]

/-- The first part of a token: `_b64encode` of the payload. -/
def encodedPayload (rt : PyRuntime) (subject : String) (generation expires : ℤ) (nonce : String) :
    String :=
  String.ofList (b64encode (encode (String.ofList
    ((PyVal.dict (sessionPayload subject generation expires nonce)).document.text rt))))

/-- `data[key]`, where a `KeyError` and a `TypeError` are a rejected token. -/
def claim (data : PyVal) (key : String) : Except VerifyError PyVal :=
  match data with
  | .dict d =>
    match d.lookup key with
    | some value => .ok value
    | none => .error (.rejected "malformed")
  | _ => .error (.rejected "malformed")

/-- `int(value)` inside `verify`, which catches a `ValueError` and a `TypeError`. -/
def claimInt (rt : PyRuntime) (value : PyVal) : Except VerifyError ℤ :=
  match value.toInt rt with
  | .ok n => .ok n
  | .error .overflowError => .error (.raised .overflowError)
  | .error _ => .error (.rejected "malformed")

/-- A call that raises a `ValueError` where it gives nothing. -/
def orMalformed {α : Type} : Option α → Except VerifyError α
  | some a => .ok a
  | none => .error (.rejected "malformed")

section Codec

variable (rt : TokenRuntime) (codec : SessionCodec)

/-- `_b64encode` of the keyed hash of a text. -/
def SessionCodec.keyed (text : String) : String :=
  String.ofList (b64encode (rt.hmacSha256 codec.signingKey (encode text)))

/-- `SessionCodec._csrf`. -/
def SessionCodec.csrf (subject : String) (generation : ℤ) (nonce : String) : String :=
  codec.keyed rt (csrfText subject generation nonce)

/-- `SessionCodec.issue`. -/
def SessionCodec.issue (subject : String) (generation now : ℤ) (nonce : String) : IssuedSession :=
  let expires := now + codec.ttlSeconds
  let encoded := encodedPayload rt.toPyRuntime subject generation expires nonce
  { token := encoded ++ "." ++ codec.keyed rt encoded
    csrfToken := codec.csrf rt subject generation nonce
    expiresAt := expires }

/-- The claims in the JSON value of a token whose signature fits. -/
def SessionCodec.readClaims (data : PyVal) (generation now : ℤ) :
    Except VerifyError SessionClaims := do
  let subject := (← claim data "sub").toStr rt.toPyRuntime
  let nonce := (← claim data "nonce").toStr rt.toPyRuntime
  let tokenGeneration ← claimInt rt.toPyRuntime (← claim data "gen")
  let expires ← claimInt rt.toPyRuntime (← claim data "exp")
  if subject = "" ∨ tokenGeneration ≠ generation ∨ expires ≤ now then
    .error (.rejected "claims")
  else
    .ok ⟨subject, tokenGeneration, codec.csrf rt subject tokenGeneration nonce, expires⟩

/-- `SessionCodec.verify`. -/
def SessionCodec.verify (token : String) (generation now : ℤ) : Except VerifyError SessionClaims :=
  if '.' ∉ token.toList then .error (.rejected "malformed")
  else do
    let encoded := beforeFirst '.' token
    let supplied := afterFirst '.' token
    let message ← orMalformed (encodeAscii encoded)
    let signature ← orMalformed (b64decode supplied.toList)
    if rt.hmacSha256 codec.signingKey message ≠ signature then .error (.rejected "signature")
    else do
      let payload ← orMalformed (b64decode encoded.toList)
      let data ← orMalformed (rt.loads payload)
      codec.readClaims rt data generation now

end Codec

/-! ### The authority -/

/-- What is at the path of a credential: no regular file that can be looked at, one that cannot
be opened, or one that is read. -/
inductive MaterialFile where
  | missing
  | unreadable (size : ℕ)
  | file (content : List UInt8)
  deriving DecidableEq

/-- `path.is_file() and path.stat().st_size > 0`. -/
def MaterialFile.hasContent : MaterialFile → Bool
  | .missing => false
  | .unreadable size => 0 < size
  | .file content => 0 < content.length

/-- `path.read_bytes()`, `none` where it raises an `OSError`. -/
def MaterialFile.readBytes : MaterialFile → Option (List UInt8)
  | .file content => some content
  | _ => none

/-- The line ends of a text file are read as `\n`. -/
def universalNewlines : List Char → List Char
  | [] => []
  | '\r' :: '\n' :: cs => '\n' :: universalNewlines cs
  | '\r' :: cs => '\n' :: universalNewlines cs
  | c :: cs => c :: universalNewlines cs

/-- `path.read_text(encoding="utf-8")`, `none` where it raises an `OSError` or a `ValueError`. -/
def MaterialFile.readText (file : MaterialFile) : Option String := do
  let content ← file.readBytes
  let text ← String.fromUTF8? content.toByteArray
  return String.ofList (universalNewlines text.toList)

/-- `_read_nonempty(path)`. -/
def MaterialFile.readNonempty (file : MaterialFile) : Option String := do
  let text ← file.readText
  let value := strip text
  if value = "" then none else some value

/-- `_read_nonempty(path, binary=True)`. -/
def MaterialFile.readNonemptyBytes (file : MaterialFile) : Option (List UInt8) := do
  let content ← file.readBytes
  if content = [] then none else some content

/-- `SecurityPaths.material_paths`. -/
def SecurityPaths.materialPaths {Path : Type} (paths : SecurityPaths Path) : List Path :=
  [paths.credentialHash, paths.sessionKey, paths.secretResolveToken, paths.memoryReadToken]

/-- `hmac.compare_digest` of two texts: it takes ASCII text only. -/
def compareDigest (a b : String) : Except PyError Bool :=
  if a.toList.all (·.toNat < 128) && b.toList.all (·.toNat < 128) then .ok (a == b)
  else .error .typeError

/-- `SecurityAuthority`. -/
structure SecurityAuthority (Path : Type) where
  paths : SecurityPaths Path
  ttlSeconds : ℤ

/-- The call of `revoke_sessions` that raises: `write_bytes` before or after it has opened the
file, with what it leaves in it, or one of the calls after it. -/
inductive RevokeFault where
  | open
  | write (left : List UInt8)
  | chmod
  | replace
  deriving DecidableEq

section Authority

variable {Path : Type} (rt : TokenRuntime) (platform : Platform Path)
  (authority : SecurityAuthority Path) (files : Path → MaterialFile)

/-- `SecurityAuthority.is_provisioned`. -/
def SecurityAuthority.isProvisioned : Bool :=
  (authority.paths.materialPaths ++ [authority.paths.sessionGeneration platform]).all fun path =>
    (files path).hasContent

/-- `SecurityAuthority._generation`, `none` where it raises. -/
def SecurityAuthority.generation : Option ℤ := do
  let text ← (files (authority.paths.sessionGeneration platform)).readNonempty
  rt.parseInt text

/-- `SecurityAuthority._codec`, `none` where it raises. -/
def SecurityAuthority.codec : Option SessionCodec := do
  let key ← (files authority.paths.sessionKey).readNonemptyBytes
  SessionCodec.create? key authority.ttlSeconds

/-- `SecurityAuthority.issue_session` at the time `now` with the bytes of `os.urandom`, `none`
where it raises. -/
def SecurityAuthority.issueSession (now : ℤ) (random : List UInt8) : Option IssuedSession := do
  let codec ← authority.codec files
  let generation ← authority.generation rt platform files
  return codec.issue rt "admin" generation now (String.ofList (b64encode random))

/-- `SecurityAuthority.authenticate_session` at the time `now`. -/
def SecurityAuthority.authenticateSession (token : String) (now : ℤ) :
    Except PyError (Option AuthenticatedPrincipal) :=
  match authority.codec files, authority.generation rt platform files with
  | some codec, some generation =>
    match codec.verify rt token generation now with
    | .ok claims =>
      .ok (some ⟨claims.subject, .browser, some claims.csrfToken, some claims.expiresAt⟩)
    | .error (.rejected _) => .ok none
    | .error (.raised error) => .error error
  | _, _ => .ok none

/-- The token files in the order of `authenticate_service`. -/
def SecurityAuthority.serviceTokens : List (Path × PrincipalKind) :=
  [(authority.paths.secretResolveToken, .secretResolve),
    (authority.paths.memoryReadToken, .memoryRead)]

/-- The loop of `authenticate_service`. -/
def findService (token : String) :
    List (Path × PrincipalKind) → Except PyError (Option AuthenticatedPrincipal)
  | [] => .ok none
  | (path, kind) :: rest =>
    match (files path).readNonempty with
    | none => findService token rest
    | some expected => do
      if ← compareDigest token expected then return some ⟨kind.value, kind, none, none⟩
      else findService token rest

/-- `SecurityAuthority.authenticate_service`. -/
def SecurityAuthority.authenticateService (token : String) :
    Except PyError (Option AuthenticatedPrincipal) :=
  findService files token authority.serviceTokens

/-- The path `session.generation` with the suffix `.tmp`. -/
def SecurityAuthority.temporary : Path :=
  platform.withName authority.paths.credentialHash "session.tmp"

variable [DecidableEq Path]

/-- The file at the path is replaced. -/
def setFile (path : Path) (file : MaterialFile) : Path → MaterialFile :=
  fun p => if p = path then file else files p

/-- `SecurityAuthority.revoke_sessions`: the files after it and whether it returns. -/
def SecurityAuthority.revokeSessions (fault : Option RevokeFault) : (Path → MaterialFile) × Bool :=
  match authority.generation rt platform files with
  | none => (files, false)
  | some generation =>
    let value := encode (toString (generation + 1) ++ "\n")
    let temporary := authority.temporary platform
    match fault with
    | some .open => (files, false)
    | some (.write left) => (setFile files temporary (.file left), false)
    | some .chmod | some .replace => (setFile files temporary (.file value), false)
    | none =>
      (setFile (setFile files temporary .missing) (authority.paths.sessionGeneration platform)
        (.file value), true)

/-! ### Runs -/

/-- A call of the authority. -/
inductive AuthorityCall where
  | issue (now : ℤ) (random : List UInt8)
  | authenticate (token : String) (now : ℤ)
  | revoke (fault : Option RevokeFault)

/-- What a call leads to. -/
inductive AuthorityEvent where
  | issued (session : IssuedSession)
  | accepted (token : String) (principal : AuthenticatedPrincipal)
  | revoked

/-- A call of the authority and the files after it. -/
def SecurityAuthority.calls : System (Path → MaterialFile) AuthorityCall (List AuthorityEvent) :=
  fun files call =>
    match call with
    | .issue now random =>
      (files, ((authority.issueSession rt platform files now random).map .issued).toList)
    | .authenticate token now =>
      match authority.authenticateSession rt platform files token now with
      | .ok (some principal) => (files, [.accepted token principal])
      | _ => (files, [])
    | .revoke fault =>
      let (files', returned) := authority.revokeSessions rt platform files fault
      (files', if returned then [.revoked] else [])

end Authority

end Trion.Security
