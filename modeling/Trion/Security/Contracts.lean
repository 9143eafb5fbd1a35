import Trion.Python.Base64

/-!
# What the security modules of the admin API exchange

The places of the credentials, the material they are provisioned with, the text that a password
is stored as, and what is known of a session or a service that has been recognised.
-/

namespace Trion.Security

open Trion.Python

/-- What the operating system and `hashlib` do: the path beside another one, the directories
above a path, and the scrypt digest of a password with a salt. -/
structure Platform (Path : Type) where
  withName : Path → String → Path
  parents : Path → List Path
  scrypt : List UInt8 → List UInt8 → List UInt8

/-- `SecurityPaths`. -/
structure SecurityPaths (Path : Type) where
  credentialHash : Path
  sessionKey : Path
  secretResolveToken : Path
  memoryReadToken : Path

/-- `SecurityPaths.session_generation`. -/
def SecurityPaths.sessionGeneration {Path : Type} (platform : Platform Path)
    (paths : SecurityPaths Path) : Path :=
  platform.withName paths.credentialHash "session.generation"

/-- `BootstrapMaterial`. -/
structure BootstrapMaterial where
  initialPassword : String
  credentialSalt : List UInt8
  sessionKey : List UInt8
  secretResolveToken : String
  memoryReadToken : String

/-- `BootstrapResult`. -/
structure BootstrapResult where
  created : Bool
  initialPassword : Option String
  deriving DecidableEq

/-- `PrincipalKind`. -/
inductive PrincipalKind where
  | browser
  | secretResolve
  | memoryRead
  deriving DecidableEq

/-- The value of a `PrincipalKind`. -/
def PrincipalKind.value : PrincipalKind → String
  | .browser => "browser"
  | .secretResolve => "secret_resolve"
  | .memoryRead => "memory_read"

/-- `AuthenticatedPrincipal`. -/
structure AuthenticatedPrincipal where
  subject : String
  kind : PrincipalKind
  csrfToken : Option String
  expiresAt : Option ℤ
  deriving DecidableEq

/-- `IssuedSession`. -/
structure IssuedSession where
  token : String
  csrfToken : String
  expiresAt : ℤ
  deriving DecidableEq

/-- `SessionClaims`. -/
structure SessionClaims where
  subject : String
  generation : ℤ
  csrfToken : String
  expiresAt : ℤ
  deriving DecidableEq

/-! ### Texts and bytes -/

/-- `str.encode()`. -/
def encode (s : String) : List UInt8 :=
  s.toUTF8.toList

/-- `_b64encode`. -/
def b64encode (value : List UInt8) : List Char :=
  rstripPadding (urlsafeB64encode value)

/-- `_b64decode`, `none` where it raises a `ValueError`: the text has to be the one that
`_b64encode` writes. -/
def b64decode (value : List Char) : Option (List UInt8) := do
  let decoded ← urlsafeB64decode (value ++ List.replicate ((4 - value.length % 4) % 4) '=')
  if b64encode decoded ≠ value then none else some decoded

/-- `_b64decode` accepts exactly what `_b64encode` writes. -/
theorem b64decode_eq_some_iff (value : List Char) (bytes : List UInt8) :
    b64decode value = some bytes ↔ value = b64encode bytes := by
  constructor
  · intro h
    obtain ⟨decoded, -, hdecoded⟩ := Option.bind_eq_some_iff.mp h
    split_ifs at hdecoded with hcanonical
    obtain rfl := Option.some.inj hdecoded
    exact (not_not.mp hcanonical).symm
  · rintro rfl
    unfold b64decode b64encode
    rw [rstripPadding_pad, urlsafeB64decode_urlsafeB64encode]
    simp

lemma b64encode_injective : Function.Injective b64encode := by
  intro a b h
  have ha := (b64decode_eq_some_iff (b64encode a) a).mpr rfl
  rw [h, (b64decode_eq_some_iff (b64encode b) b).mpr rfl] at ha
  exact (Option.some.inj ha).symm

/-- `hash_credential`. -/
def hashCredential {Path : Type} (platform : Platform Path) (password : String)
    (salt : List UInt8) : String :=
  let digest := platform.scrypt (encode password) salt
  "scrypt$16384$8$1$" ++ String.ofList (b64encode salt) ++ "$" ++
    String.ofList (b64encode digest)

end Trion.Security
