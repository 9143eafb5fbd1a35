import Trion.Library.OperationRun
import Trion.Library.OrderedDict

/-!
# The vault of the admin API

The routes of `vault_routes.py`: the salt file, the rows of the database and the sessions in
memory.  Key derivation and encryption are parameters, the random values and the faults of the
database come with each request, and time passes between the requests.
-/

namespace Trion.Vault

open OperationRun

/-! ### Encryption -/

/-- PBKDF2 and Fernet.  `encrypt` also takes what it draws at random. -/
structure Fernet (Key Cipher : Type) where
  deriveKey : String → List UInt8 → Key
  encrypt : Key → ℕ → String → Cipher
  decrypt : Key → Cipher → Option String

/-- What the routes rely on: a text is decrypted with its key, and with no other one. -/
structure Fernet.Lawful {Key Cipher : Type} (fernet : Fernet Key Cipher) : Prop where
  decrypt_encrypt : ∀ key seed text, fernet.decrypt key (fernet.encrypt key seed text) = some text
  key_of_decrypt : ∀ key key' seed text text',
    fernet.decrypt key' (fernet.encrypt key seed text) = some text' → key' = key

/-! ### The state -/

/-- A row of `vault_entries`.  The empty `password_enc`, which no encryption yields, is
`none`. -/
structure VaultRow (Cipher : Type) where
  id : String
  title : String
  username : String
  passwordEnc : Option Cipher
  url : String
  category : String
  icon : String
  tags : String
  notes : String
  favorite : Bool
  expires : String
  totpSecret : String
  createdAt : ℕ
  updatedAt : ℕ
  deriving DecidableEq

/-- A value of `_sessions`. -/
structure Session (Key : Type) where
  key : Key
  expires : ℕ
  deriving DecidableEq

/-- The salt file, the rows in the order of their row ids, the sessions under their tokens and
the clock. -/
structure VaultState (Key Cipher : Type) where
  salt : Option (List UInt8)
  rows : List (VaultRow Cipher)
  sessions : List (String × Session Key)
  now : ℕ
  deriving DecidableEq

/-- `EntryCreate` and `EntryUpdate`, with the tags as their JSON text. -/
structure EntryCreate where
  title : String
  username : String := ""
  password : String := ""
  url : String := ""
  category : String := "internet"
  icon : String := "🔑"
  tags : String := "[]"
  notes : String := ""
  favorite : Bool := false
  expires : String := ""
  totpSecret : String := ""

/-- `SESSION_TTL`, in seconds. -/
def sessionTtl : ℕ := 300

/-- The id of the marker that `setup_vault` stores. -/
def setupMarker : String := "__setup_marker__"

/-- The answers of the routes. -/
inductive VaultReply where
  | session (token : String)
  | password (plain : String)
  | done
  | error (status : ℕ) (detail : String)
  deriving DecidableEq

section Routes

variable {Key Cipher : Type} (fernet : Fernet Key Cipher) (s : VaultState Key Cipher)

/-! ### Rows -/

/-- `SELECT password_enc FROM vault_entries LIMIT 1`, where it is not empty. -/
def firstPassword (rows : List (VaultRow Cipher)) : Option Cipher :=
  rows.head?.bind VaultRow.passwordEnc

/-- `DELETE FROM vault_entries WHERE id=?`. -/
def deleteRow (rows : List (VaultRow Cipher)) (id : String) : List (VaultRow Cipher) :=
  rows.filter fun row => row.id ≠ id

/-- There is a row with the id. -/
def hasRow (rows : List (VaultRow Cipher)) (id : String) : Bool :=
  rows.any fun row => row.id = id

/-- `_encrypt(key32, body.password) if body.password else ""`. -/
def passwordEnc (key : Key) (seed : ℕ) (password : String) : Option Cipher :=
  if password = "" then none else some (fernet.encrypt key seed password)

/-- The row that `create_entry` inserts. -/
def entryRow (entryId : String) (body : EntryCreate) (enc : Option Cipher) (now : ℕ) :
    VaultRow Cipher where
  id := entryId
  title := body.title
  username := body.username
  passwordEnc := enc
  url := body.url
  category := body.category
  icon := body.icon
  tags := body.tags
  notes := body.notes
  favorite := body.favorite
  expires := body.expires
  totpSecret := body.totpSecret
  createdAt := now
  updatedAt := now

/-- The row that `setup_vault` stores. -/
def markerRow (enc : Cipher) (now : ℕ) : VaultRow Cipher :=
  entryRow setupMarker { title := "__setup_marker__", category := "system", icon := "🔐" }
    (some enc) now

/-- `UPDATE vault_entries SET … WHERE id=?`. -/
def updateRow (rows : List (VaultRow Cipher)) (entryId : String) (body : EntryCreate)
    (enc : Option Cipher) (now : ℕ) : List (VaultRow Cipher) :=
  rows.map fun row =>
    if row.id = entryId then { entryRow entryId body enc now with createdAt := row.createdAt }
    else row

/-! ### Sessions -/

/-- `_purge_expired`. -/
def purgeExpired : List (String × Session Key) :=
  s.sessions.filter fun e => ¬ e.2.expires < s.now

/-- `_new_session`. -/
def newSession (key : Key) (token : String) : VaultState Key Cipher :=
  { s with sessions := OrderedDict.insert s.sessions token ⟨key, s.now + sessionTtl⟩ }

/-- `_get_session_key`. -/
def getSessionKey (token : String) : VaultState Key Cipher × Except VaultReply Key :=
  let s := { s with sessions := purgeExpired s }
  match OrderedDict.get? s.sessions token with
  | none => (s, .error (.error 401 "Session expired or invalid"))
  | some session =>
    if session.expires < s.now then
      ({ s with sessions := OrderedDict.erase s.sessions token },
        .error (.error 401 "Session expired"))
    else
      ({ s with
        sessions := OrderedDict.insert s.sessions token ⟨session.key, s.now + sessionTtl⟩ },
        .ok session.key)

/-- The body of a route that needs a session: `_get_session_key(_get_token(x_vault_token))`. -/
def withSession (header : Option String)
    (body : VaultState Key Cipher → Key → VaultState Key Cipher × VaultReply) :
    VaultState Key Cipher × VaultReply :=
  let token := header.getD ""
  if token = "" then (s, .error 401 "Missing X-Vault-Token")
  else
    match getSessionKey s token with
    | (s, .error reply) => (s, reply)
    | (s, .ok key) => body s key

/-! ### Routes -/

/-- Whether the look-up of the marker or the `INSERT` of it raises. -/
structure SetupFaults where
  lookupRaises : Bool := false
  storeRaises : Bool := false

/-- `setup_vault` answers 409. -/
def setupRefused (faults : SetupFaults) : Bool :=
  s.salt.isSome && !faults.lookupRaises && hasRow s.rows setupMarker

/-- `setup_vault`. -/
def setupVault (masterPassword : String) (salt : List UInt8) (seed : ℕ) (token : String)
    (faults : SetupFaults) : VaultState Key Cipher × VaultReply :=
  if setupRefused s faults then (s, .error 409 "Vault already initialized")
  else
    let s := { s with salt := some salt }
    let key := fernet.deriveKey masterPassword salt
    let markerEnc := fernet.encrypt key seed "__trion_vault_ok__"
    if faults.storeRaises then (s, .error 500 "Internal Server Error")
    else
      -- `INSERT OR REPLACE`: the old marker goes, the new one gets the highest row id
      let s := { s with rows := deleteRow s.rows setupMarker ++ [markerRow markerEnc s.now] }
      (newSession s key token, .session token)

/-- `unlock`. -/
def unlock (masterPassword : String) (salt : List UInt8) (token : String) (dbRaises : Bool) :
    VaultState Key Cipher × VaultReply :=
  let salt := s.salt.getD salt
  let s := { s with salt := some salt }
  let key := fernet.deriveKey masterPassword salt
  if dbRaises then (s, .error 500 "Internal Server Error")
  else
    match firstPassword s.rows with
    | none => (newSession s key token, .session token)
    | some enc =>
      if (fernet.decrypt key enc).isNone then (s, .error 401 "Wrong master password")
      else (newSession s key token, .session token)

/-- `lock`. -/
def lock (header : Option String) : VaultState Key Cipher × VaultReply :=
  let token := header.getD ""
  if token ≠ "" ∧ OrderedDict.has s.sessions token then
    ({ s with sessions := OrderedDict.erase s.sessions token }, .done)
  else (s, .done)

/-- `get_password`. -/
def getPassword (entryId : String) (header : Option String) :
    VaultState Key Cipher × VaultReply :=
  withSession s header fun s key =>
    match s.rows.find? fun row => row.id = entryId with
    | none => (s, .error 404 "Entry not found")
    | some row =>
      match row.passwordEnc with
      | none => (s, .password "")
      | some enc =>
        match fernet.decrypt key enc with
        | some plain => (s, .password plain)
        | none => (s, .error 500 "Decryption failed")

/-- `create_entry`. -/
def createEntry (body : EntryCreate) (entryId : String) (seed : ℕ) (header : Option String)
    (dbRaises : Bool) : VaultState Key Cipher × VaultReply :=
  withSession s header fun s key =>
    let enc := passwordEnc fernet key seed body.password
    if dbRaises || hasRow s.rows entryId then (s, .error 500 "Internal Server Error")
    else ({ s with rows := s.rows ++ [entryRow entryId body enc s.now] }, .done)

/-- `update_entry`. -/
def updateEntry (entryId : String) (body : EntryCreate) (seed : ℕ) (header : Option String)
    (dbRaises : Bool) : VaultState Key Cipher × VaultReply :=
  withSession s header fun s key =>
    let enc := passwordEnc fernet key seed body.password
    if dbRaises then (s, .error 500 "Internal Server Error")
    else ({ s with rows := updateRow s.rows entryId body enc s.now }, .done)

/-- `delete_entry`. -/
def deleteEntry (entryId : String) (header : Option String) (dbRaises : Bool) :
    VaultState Key Cipher × VaultReply :=
  withSession s header fun s _ =>
    if dbRaises then (s, .error 500 "Internal Server Error")
    else ({ s with rows := deleteRow s.rows entryId }, .done)

end Routes

/-! ### Runs -/

/-- The requests, and the time that passes between them. -/
inductive VaultRequest where
  | setup (masterPassword : String) (salt : List UInt8) (seed : ℕ) (token : String)
      (faults : SetupFaults)
  | unlock (masterPassword : String) (salt : List UInt8) (token : String) (dbRaises : Bool)
  | lock (header : Option String)
  | getPassword (entryId : String) (header : Option String)
  | createEntry (body : EntryCreate) (entryId : String) (seed : ℕ) (header : Option String)
      (dbRaises : Bool)
  | updateEntry (entryId : String) (body : EntryCreate) (seed : ℕ) (header : Option String)
      (dbRaises : Bool)
  | deleteEntry (entryId : String) (header : Option String) (dbRaises : Bool)
  | tick (elapsed : ℕ)

/-- The answer to a request. -/
def serve {Key Cipher : Type} (fernet : Fernet Key Cipher) (s : VaultState Key Cipher) :
    VaultRequest → VaultState Key Cipher × VaultReply
  | .setup masterPassword salt seed token faults =>
    setupVault fernet s masterPassword salt seed token faults
  | .unlock masterPassword salt token dbRaises => unlock fernet s masterPassword salt token dbRaises
  | .lock header => lock s header
  | .getPassword entryId header => getPassword fernet s entryId header
  | .createEntry body entryId seed header dbRaises =>
    createEntry fernet s body entryId seed header dbRaises
  | .updateEntry entryId body seed header dbRaises =>
    updateEntry fernet s entryId body seed header dbRaises
  | .deleteEntry entryId header dbRaises => deleteEntry s entryId header dbRaises
  | .tick elapsed => ({ s with now := s.now + elapsed }, .done)

/-- The vault and the master password of the last set-up that went through. -/
structure VaultHistory (Key Cipher : Type) where
  vault : VaultState Key Cipher
  master : Option String

/-- The master password after the request. -/
def masterAfter (master : Option String) : VaultRequest → VaultReply → Option String
  | .setup masterPassword _ _ _ _, .session _ => some masterPassword
  | _, _ => master

/-- The vault answers its requests one after the other. -/
def vault {Key Cipher : Type} (fernet : Fernet Key Cipher) :
    System (VaultHistory Key Cipher) VaultRequest VaultReply :=
  fun h request =>
    let answer := serve fernet h.vault request
    (⟨answer.1, masterAfter h.master request answer.2⟩, answer.2)

/-- The vault before the first request. -/
def newVault (Key Cipher : Type) (now : ℕ) : VaultHistory Key Cipher where
  vault := { salt := none, rows := [], sessions := [], now := now }
  master := none

end Trion.Vault
