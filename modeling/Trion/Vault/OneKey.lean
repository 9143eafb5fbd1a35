import Trion.Vault.Routes

/-!
# One key for all entries

`unlock` checks the password against the first row only, and not at all where the first row has
none.  As long as every set-up finds an empty vault, every unlocking finds a first row to check
against or a key that fits, and no request takes the password out of the first row of a vault
that has been set up, all rows and sessions have the key of one master password.
-/

namespace Trion.Vault

open OperationRun System

variable {Key Cipher : Type} {fernet : Fernet Key Cipher} {s : VaultState Key Cipher}
  {h : VaultHistory Key Cipher} {rows : List (VaultRow Cipher)} {master : String}

/-! ### What the vault promises -/

/-- The stored passwords are encrypted with the key of one master password, every live session
opens every entry, and a vault that has been set up is unlocked with the key of its master
password only. -/
structure OneKey (fernet : Fernet Key Cipher) (h : VaultHistory Key Cipher) : Prop where
  stored : ∃ master, (∀ m, h.master = some m → m = master) ∧
    ∀ row ∈ h.vault.rows, ∀ enc, row.passwordEnc = some enc →
      ∃ salt seed text, h.vault.salt = some salt ∧
        enc = fernet.encrypt (fernet.deriveKey master salt) seed text
  opens : ∀ e ∈ purgeExpired h.vault, ∀ row ∈ h.vault.rows, ∀ enc,
    row.passwordEnc = some enc → (fernet.decrypt e.2.key enc).isSome
  unlocks : ∀ m, h.master = some m → ∀ masterPassword salt token token' dbRaises,
    (unlock fernet h.vault masterPassword salt token dbRaises).2 = .session token' →
      ∃ salt, h.vault.salt = some salt ∧
        fernet.deriveKey masterPassword salt = fernet.deriveKey m salt

/-! ### Where it goes well -/

/-- The key fits all that is there: it decrypts the stored passwords and is the key of the live
sessions. -/
def Fits (fernet : Fernet Key Cipher) (s : VaultState Key Cipher) (key : Key) : Prop :=
  (∀ row ∈ s.rows, ∀ enc, row.passwordEnc = some enc → (fernet.decrypt key enc).isSome) ∧
    ∀ e ∈ purgeExpired s, e.2.key = key

/-- The request has the token of a live session. -/
def hasSession (s : VaultState Key Cipher) (header : Option String) : Bool :=
  decide (header.getD "" ≠ "") && OrderedDict.has (purgeExpired s) (header.getD "")

/-- A set-up that is not refused finds no row but the marker and no live session, and where it
fails to store the marker, no row at all.  An unlocking finds a password in the first row, or its
key fits.  In a vault that has been set up, the first row is not updated without a password, nor
removed where the next one has none. -/
def Orderly (fernet : Fernet Key Cipher) (h : VaultHistory Key Cipher) : VaultRequest → Prop
  | .setup _ _ _ _ faults => setupRefused h.vault faults = true ∨
      (∀ row ∈ h.vault.rows, row.id = setupMarker) ∧ purgeExpired h.vault = [] ∧
        (faults.storeRaises = true → h.vault.rows = [])
  | .unlock masterPassword salt _ dbRaises => dbRaises = true ∨
      (firstPassword h.vault.rows).isSome ∨
        Fits fernet h.vault (fernet.deriveKey masterPassword (h.vault.salt.getD salt))
  | .updateEntry entryId body _ header dbRaises =>
      h.master.isSome → hasSession h.vault header = true → dbRaises = false →
        h.vault.rows.head?.map VaultRow.id = some entryId → body.password ≠ ""
  | .deleteEntry entryId header dbRaises =>
      h.master.isSome → hasSession h.vault header = true → dbRaises = false →
        (firstPassword (deleteRow h.vault.rows entryId)).isSome
  | _ => True

/-! ### The invariant -/

/-- The text is encrypted with the key of the master password and the salt. -/
def EncryptedWith (fernet : Fernet Key Cipher) (salt : Option (List UInt8)) (master : String)
    (enc : Cipher) : Prop :=
  ∃ current seed text, salt = some current ∧
    enc = fernet.encrypt (fernet.deriveKey master current) seed text

/-- Every stored password is encrypted with the key of the master password. -/
def RowsUnder (fernet : Fernet Key Cipher) (salt : Option (List UInt8)) (master : String)
    (rows : List (VaultRow Cipher)) : Prop :=
  ∀ row ∈ rows, ∀ enc, row.passwordEnc = some enc → EncryptedWith fernet salt master enc

/-- Every live session has the key of the master password. -/
def SessionsUnder (fernet : Fernet Key Cipher) (s : VaultState Key Cipher) (master : String) :
    Prop :=
  ∀ e ∈ purgeExpired s, ∃ salt, s.salt = some salt ∧ e.2.key = fernet.deriveKey master salt

/-- Rows and sessions have the key of the master password, and once the vault has been set up,
the first row has a password. -/
structure Under (fernet : Fernet Key Cipher) (h : VaultHistory Key Cipher) (master : String) :
    Prop where
  rows : RowsUnder fernet h.vault.salt master h.vault.rows
  sessions : SessionsUnder fernet h.vault master
  first : ∀ m, h.master = some m → m = master ∧ (firstPassword h.vault.rows).isSome

lemma decrypt_isSome_iff (hF : fernet.Lawful) {key : Key} {salt : List UInt8} {enc : Cipher}
    (henc : EncryptedWith fernet (some salt) master enc) :
    (fernet.decrypt key enc).isSome ↔ key = fernet.deriveKey master salt := by
  obtain ⟨current, seed, text, hsalt, rfl⟩ := henc
  obtain rfl := Option.some.inj hsalt
  constructor
  · intro hopen
    obtain ⟨text', htext'⟩ := Option.isSome_iff_exists.mp hopen
    exact hF.key_of_decrypt _ _ _ _ _ htext'
  · rintro rfl
    rw [hF.decrypt_encrypt]
    rfl

lemma mem_of_firstPassword {enc : Cipher} (henc : firstPassword rows = some enc) :
    ∃ row ∈ rows, row.passwordEnc = some enc := by
  cases rows with
  | nil => simp [firstPassword] at henc
  | cons row rows => exact ⟨row, List.mem_cons_self, henc⟩

/-- The invariant is enough for what the vault promises. -/
theorem oneKey_of_under (hF : fernet.Lawful) (hunder : Under fernet h master) :
    OneKey fernet h where
  stored := ⟨master, fun m hm => (hunder.first m hm).1, hunder.rows⟩
  opens := by
    intro e he row hrow enc henc
    obtain ⟨salt, hsalt, hkey⟩ := hunder.sessions e he
    have hwith := hunder.rows row hrow enc henc
    rw [hsalt] at hwith
    exact (decrypt_isSome_iff hF hwith).mpr hkey
  unlocks := by
    intro m hm masterPassword salt token token' dbRaises hreply
    obtain ⟨rfl, hfirst⟩ := hunder.first m hm
    obtain ⟨enc, henc⟩ := Option.isSome_iff_exists.mp hfirst
    obtain ⟨row, hrow, hrowEnc⟩ := mem_of_firstPassword henc
    have hwith := hunder.rows row hrow enc hrowEnc
    obtain ⟨current, -, -, hsalt, -⟩ := id hwith
    refine ⟨current, hsalt, ?_⟩
    rw [hsalt] at hwith
    refine (decrypt_isSome_iff hF hwith).mp ?_
    rw [unlock, hsalt, Option.getD_some] at hreply
    split at hreply
    · cases hreply
    · simp only [henc] at hreply
      split at hreply
      · cases hreply
      · rename_i hopen
        simpa [Option.isNone_iff_eq_none, Option.isSome_iff_ne_none] using hopen

/-! ### Sessions -/

section Sessions

variable {key : Key} {token : String}

/-- The sessions of `s'` are sessions of `s`, renewed or not, and nothing else is different. -/
structure SameVault (s s' : VaultState Key Cipher) : Prop where
  salt : s'.salt = s.salt
  rows : s'.rows = s.rows
  sessions : ∀ e' ∈ purgeExpired s', ∃ e ∈ purgeExpired s, e'.2.key = e.2.key

lemma SameVault.sessionsUnder {s' : VaultState Key Cipher} (hsame : SameVault s s')
    (hs : SessionsUnder fernet s master) : SessionsUnder fernet s' master := by
  intro e' he'
  obtain ⟨e, he, hkey⟩ := hsame.sessions e' he'
  rw [hsame.salt, hkey]
  exact hs e he

lemma mem_purgeExpired {e : String × Session Key} :
    e ∈ purgeExpired s ↔ e ∈ s.sessions ∧ ¬ e.2.expires < s.now := by
  simp [purgeExpired]

/-- The entries after writing are old ones and the new one. -/
lemma mem_insert {d : List (String × Session Key)} {session : Session Key}
    {e : String × Session Key} (he : e ∈ OrderedDict.insert d token session) :
    e ∈ d ∨ e = (token, session) := by
  unfold OrderedDict.insert at he
  split at he
  · obtain ⟨e', he', heq⟩ := List.mem_map.mp he
    split at heq
    · exact .inr heq.symm
    · exact .inl (heq ▸ he')
  · simpa using he

lemma sessionsUnder_of_none (hnone : purgeExpired s = []) : SessionsUnder fernet s master := by
  intro e he
  rw [hnone] at he
  cases he

/-- A session is added. -/
lemma sessionsUnder_newSession {salt : List UInt8} (hsalt : s.salt = some salt)
    (hs : SessionsUnder fernet s master) (hkey : key = fernet.deriveKey master salt) :
    SessionsUnder fernet (newSession s key token) master := by
  intro e he
  obtain ⟨hmem, hlive⟩ := mem_purgeExpired.mp he
  obtain hold | rfl := mem_insert hmem
  · exact hs e (mem_purgeExpired.mpr ⟨hold, hlive⟩)
  · exact ⟨salt, hsalt, hkey⟩

/-- Looking up a session renews it, and drops what has expired. -/
lemma getSessionKey_same : SameVault s (getSessionKey s token).1 := by
  have hdropped {d : List (String × Session Key)} (hd : ∀ e ∈ d, e ∈ purgeExpired s) :
      SameVault s { s with sessions := d } :=
    ⟨rfl, rfl, fun e' he' => ⟨e', hd e' (mem_purgeExpired.mp he').1, rfl⟩⟩
  simp only [getSessionKey]
  split
  · exact hdropped fun e he => he
  · rename_i session hsession
    split
    · exact hdropped fun e he => (List.mem_filter.mp he).1
    · refine ⟨rfl, rfl, fun e' he' => ?_⟩
      obtain hold | rfl := mem_insert (mem_purgeExpired.mp he').1
      · exact ⟨e', hold, rfl⟩
      · exact ⟨_, OrderedDict.mem_of_get? hsession, rfl⟩

/-- The key that a session gives is the key of a live session. -/
lemma getSessionKey_ok (hok : (getSessionKey s token).2 = .ok key) :
    ∃ e ∈ purgeExpired s, e.1 = token ∧ e.2.key = key := by
  simp only [getSessionKey] at hok
  split at hok
  · cases hok
  · rename_i session hsession
    split at hok
    · cases hok
    · cases hok
      exact ⟨_, OrderedDict.mem_of_get? hsession, rfl, rfl⟩

/-- A route that needs a session refuses the request, or goes on with the key of a live one. -/
lemma withSession_cases (header : Option String)
    (body : VaultState Key Cipher → Key → VaultState Key Cipher × VaultReply) :
    SameVault s (withSession s header body).1 ∨
      ∃ s' key, SameVault s s' ∧ withSession s header body = body s' key ∧
        hasSession s header = true ∧ ∃ e ∈ purgeExpired s, e.2.key = key := by
  by_cases htoken : header.getD "" = ""
  · refine .inl ?_
    simp only [withSession, htoken, if_true]
    exact ⟨rfl, rfl, fun e he => ⟨e, he, rfl⟩⟩
  have hsame : SameVault s (getSessionKey s (header.getD "")).1 := getSessionKey_same
  rcases hanswer : getSessionKey s (header.getD "") with ⟨s', answer⟩
  rw [hanswer] at hsame
  cases answer with
  | error reply =>
    refine .inl ?_
    simpa only [withSession, htoken, if_false, hanswer] using hsame
  | ok key =>
    have hok : (getSessionKey s (header.getD "")).2 = .ok key := by rw [hanswer]
    obtain ⟨e, he, htokenEq, hkey⟩ := getSessionKey_ok hok
    refine .inr ⟨s', key, hsame, ?_, ?_, e, he, hkey⟩
    · simp only [withSession, htoken, if_false, hanswer]
    · simp only [hasSession, htoken, ne_eq, not_false_eq_true, decide_true, Bool.true_and]
      exact List.any_eq_true.mpr ⟨e, he, by simpa using htokenEq⟩

end Sessions

/-! ### Rows -/

section Rows

variable {key : Key} {salt : Option (List UInt8)} {seed : ℕ} {entryId password : String}
  {body : EntryCreate} {enc : Option Cipher} {now : ℕ}

/-- A password that is stored under the key of a live session. -/
lemma encryptedWith_passwordEnc {c : Cipher} (hc : passwordEnc fernet key seed password = some c)
    (hkey : ∃ current, salt = some current ∧ key = fernet.deriveKey master current) :
    EncryptedWith fernet salt master c := by
  obtain ⟨current, hsalt, rfl⟩ := hkey
  unfold passwordEnc at hc
  split at hc
  · cases hc
  · cases hc
    exact ⟨current, seed, password, hsalt, rfl⟩

lemma rowsUnder_append {row : VaultRow Cipher} (hrows : RowsUnder fernet salt master rows)
    (hrow : ∀ c, row.passwordEnc = some c → EncryptedWith fernet salt master c) :
    RowsUnder fernet salt master (rows ++ [row]) := by
  intro r hr c hc
  obtain hr | hr := List.mem_append.mp hr
  · exact hrows r hr c hc
  · rw [List.mem_singleton] at hr
    exact hrow c (hr ▸ hc)

lemma rowsUnder_deleteRow (hrows : RowsUnder fernet salt master rows) :
    RowsUnder fernet salt master (deleteRow rows entryId) :=
  fun row hrow => hrows row (List.mem_filter.mp hrow).1

lemma rowsUnder_updateRow (hrows : RowsUnder fernet salt master rows)
    (henc : ∀ c, enc = some c → EncryptedWith fernet salt master c) :
    RowsUnder fernet salt master (updateRow rows entryId body enc now) := by
  intro row hrow c hc
  obtain ⟨old, hold, rfl⟩ := List.mem_map.mp hrow
  split at hc
  · exact henc c hc
  · exact hrows old hold c hc

lemma firstPassword_append {row : VaultRow Cipher} (hfirst : (firstPassword rows).isSome) :
    (firstPassword (rows ++ [row])).isSome := by
  cases rows with
  | nil => simp [firstPassword] at hfirst
  | cons first rows => exact hfirst

/-- The first row keeps a password, unless it is the one that is updated without. -/
lemma firstPassword_updateRow (hfirst : (firstPassword rows).isSome)
    (hpassword : rows.head?.map VaultRow.id = some entryId → enc.isSome) :
    (firstPassword (updateRow rows entryId body enc now)).isSome := by
  cases rows with
  | nil => simp [firstPassword] at hfirst
  | cons first rows =>
    by_cases hid : first.id = entryId
    · simpa [firstPassword, updateRow, hid, entryRow] using hpassword (by simp [hid])
    · simpa [firstPassword, updateRow, hid] using hfirst

end Rows

/-! ### One request -/

section Step

variable {h' : VaultHistory Key Cipher} {s' : VaultState Key Cipher} {key : Key}

/-- The invariant after a request that leaves the vault as it is, up to its sessions. -/
lemma under_of_same (hunder : Under fernet h master) (hsame : SameVault h.vault s') :
    Under fernet ⟨s', h.master⟩ master where
  rows := by
    have hrows := hunder.rows
    rw [← hsame.salt, ← hsame.rows] at hrows
    exact hrows
  sessions := hsame.sessionsUnder hunder.sessions
  first := fun m hm => by
    obtain ⟨hmaster, hfirst⟩ := hunder.first m hm
    exact ⟨hmaster, by rw [hsame.rows]; exact hfirst⟩

/-- The invariant after a request that has written rows. -/
lemma under_of_rows (hunder : Under fernet h master) (hsame : SameVault h.vault s')
    (hrows : RowsUnder fernet h.vault.salt master rows)
    (hfirst : h.master.isSome → (firstPassword h.vault.rows).isSome →
      (firstPassword rows).isSome) :
    Under fernet ⟨{ s' with rows := rows }, h.master⟩ master where
  rows := by
    have hsalt := hsame.salt
    rw [← hsalt] at hrows
    exact hrows
  sessions := hsame.sessionsUnder hunder.sessions
  first := fun m hm => by
    obtain ⟨hmaster, hold⟩ := hunder.first m hm
    exact ⟨hmaster, hfirst (Option.isSome_of_eq_some hm) hold⟩

/-- The key of a live session is that of the master password. -/
lemma key_of_live (hunder : Under fernet h master)
    (hlive : ∃ e ∈ purgeExpired h.vault, e.2.key = key) :
    ∃ current, h.vault.salt = some current ∧ key = fernet.deriveKey master current := by
  obtain ⟨e, he, rfl⟩ := hlive
  exact hunder.sessions e he

/-- The invariant after a route that needs a session, if its body keeps it. -/
lemma under_withSession (hunder : Under fernet h master) (header : Option String)
    (body : VaultState Key Cipher → Key → VaultState Key Cipher × VaultReply)
    (hbody : ∀ s' key, SameVault h.vault s' → hasSession h.vault header = true →
      (∃ e ∈ purgeExpired h.vault, e.2.key = key) →
        Under fernet ⟨(body s' key).1, h.master⟩ master) :
    Under fernet ⟨(withSession h.vault header body).1, h.master⟩ master := by
  obtain hsame | ⟨s', key, hsame, hanswer, hsession, hlive⟩ := withSession_cases header body
  · exact under_of_same hunder hsame
  · rw [hanswer]
    exact hbody s' key hsame hsession hlive

lemma under_getPassword (hunder : Under fernet h master) (entryId : String)
    (header : Option String) :
    Under fernet ⟨(getPassword fernet h.vault entryId header).1, h.master⟩ master := by
  refine under_withSession hunder header _ fun s' key hsame _ _ => ?_
  have hkept := under_of_same hunder hsame
  split
  · exact hkept
  split
  · exact hkept
  split <;> exact hkept

lemma under_createEntry (hunder : Under fernet h master) (body : EntryCreate)
    (entryId : String) (seed : ℕ) (header : Option String) (dbRaises : Bool) :
    Under fernet ⟨(createEntry fernet h.vault body entryId seed header dbRaises).1, h.master⟩
      master := by
  refine under_withSession hunder header _ fun s' key hsame _ hlive => ?_
  split
  · exact under_of_same hunder hsame
  · refine under_of_rows hunder hsame ?_ ?_
    · rw [hsame.rows]
      exact rowsUnder_append hunder.rows fun c hc =>
        encryptedWith_passwordEnc hc (key_of_live hunder hlive)
    · rw [hsame.rows]
      exact fun _ => firstPassword_append

lemma under_updateEntry (hunder : Under fernet h master) (entryId : String) (body : EntryCreate)
    (seed : ℕ) (header : Option String) (dbRaises : Bool)
    (horderly : Orderly fernet h (.updateEntry entryId body seed header dbRaises)) :
    Under fernet ⟨(updateEntry fernet h.vault entryId body seed header dbRaises).1, h.master⟩
      master := by
  refine under_withSession hunder header _ fun s' key hsame hsession hlive => ?_
  split
  · exact under_of_same hunder hsame
  · rename_i hraises
    refine under_of_rows hunder hsame ?_ fun hmaster hfirst => ?_
    · rw [hsame.rows]
      exact rowsUnder_updateRow hunder.rows fun c hc =>
        encryptedWith_passwordEnc hc (key_of_live hunder hlive)
    · rw [hsame.rows]
      refine firstPassword_updateRow hfirst fun hid => ?_
      have hpassword := horderly hmaster hsession (by simpa using hraises) hid
      simp [passwordEnc, hpassword]

lemma under_deleteEntry (hunder : Under fernet h master) (entryId : String)
    (header : Option String) (dbRaises : Bool)
    (horderly : Orderly fernet h (.deleteEntry entryId header dbRaises)) :
    Under fernet ⟨(deleteEntry h.vault entryId header dbRaises).1, h.master⟩ master := by
  refine under_withSession hunder header _ fun s' key hsame hsession _ => ?_
  split
  · exact under_of_same hunder hsame
  · rename_i hraises
    refine under_of_rows hunder hsame ?_ fun hmaster _ => ?_
    · rw [hsame.rows]
      exact rowsUnder_deleteRow hunder.rows
    · rw [hsame.rows]
      exact horderly hmaster hsession (by simpa using hraises)

lemma under_lock (hunder : Under fernet h master) (header : Option String) :
    Under fernet ⟨(lock h.vault header).1, h.master⟩ master := by
  simp only [lock]
  split
  · refine under_of_same hunder ⟨rfl, rfl, fun e he => ⟨e, ?_, rfl⟩⟩
    obtain ⟨hmem, hlive⟩ := mem_purgeExpired.mp he
    exact mem_purgeExpired.mpr ⟨(List.mem_filter.mp hmem).1, hlive⟩
  · exact under_of_same hunder ⟨rfl, rfl, fun e he => ⟨e, he, rfl⟩⟩

/-- Time only makes sessions expire. -/
lemma under_tick (hunder : Under fernet h master) (elapsed : ℕ) :
    Under fernet ⟨{ h.vault with now := h.vault.now + elapsed }, h.master⟩ master := by
  refine under_of_same hunder ⟨rfl, rfl, fun e he => ⟨e, ?_, rfl⟩⟩
  obtain ⟨hmem, hlive⟩ := mem_purgeExpired.mp he
  simp only at hmem hlive
  exact mem_purgeExpired.mpr ⟨hmem, by omega⟩

/-- A salt is created where there is none, and then nothing is stored yet. -/
lemma under_salt (hunder : Under fernet h master) (salt : List UInt8) :
    Under fernet ⟨{ h.vault with salt := some (h.vault.salt.getD salt) }, h.master⟩ master where
  rows := by
    intro row hrow enc henc
    obtain ⟨current, seed, text, hsalt, heq⟩ := hunder.rows row hrow enc henc
    exact ⟨current, seed, text, by simp [hsalt], heq⟩
  sessions := by
    intro e he
    obtain ⟨current, hsalt, hkey⟩ := hunder.sessions e he
    exact ⟨current, by simp [hsalt], hkey⟩
  first := hunder.first

/-- The invariant after a session has been added. -/
lemma under_newSession (hunder : Under fernet h master) {salt : List UInt8} {token : String}
    (hsalt : h.vault.salt = some salt) (hkey : key = fernet.deriveKey master salt) :
    Under fernet ⟨newSession h.vault key token, h.master⟩ master where
  rows := hunder.rows
  sessions := sessionsUnder_newSession hsalt hunder.sessions hkey
  first := hunder.first

/-- Where the first row has no password, a key that fits may become the key of the vault. -/
lemma under_of_fits (hF : fernet.Lawful) (hunder : Under fernet h master) {salt : List UInt8}
    {masterPassword : String} (hsalt : h.vault.salt = some salt)
    (hfirst : firstPassword h.vault.rows = none)
    (hfits : Fits fernet h.vault (fernet.deriveKey masterPassword salt)) :
    Under fernet h masterPassword where
  rows := by
    intro row hrow enc henc
    have hwith := hunder.rows row hrow enc henc
    rw [hsalt] at hwith ⊢
    have hkey := (decrypt_isSome_iff hF hwith).mp (hfits.1 row hrow enc henc)
    obtain ⟨current, seed, text, heq, rfl⟩ := hwith
    obtain rfl := Option.some.inj heq
    exact ⟨salt, seed, text, rfl, by rw [hkey]⟩
  sessions := fun e he => ⟨salt, hsalt, hfits.2 e he⟩
  first := fun m hm => by
    have hsome := (hunder.first m hm).2
    rw [hfirst] at hsome
    cases hsome

/-- Unlocking: the key is checked against the first row, or it fits all that is there. -/
lemma under_unlock (hF : fernet.Lawful) (hunder : Under fernet h master)
    (masterPassword : String) (salt : List UInt8) (token : String) (dbRaises : Bool)
    (horderly : Orderly fernet h (.unlock masterPassword salt token dbRaises)) :
    ∃ master, Under fernet
      ⟨(unlock fernet h.vault masterPassword salt token dbRaises).1, h.master⟩ master := by
  have hsalted := under_salt hunder salt
  simp only [unlock]
  split
  · exact ⟨master, hsalted⟩
  rename_i hraises
  split
  · rename_i hnone
    simp only [Orderly, hraises, hnone, Option.isSome_none, Bool.false_eq_true, false_or]
      at horderly
    exact ⟨masterPassword,
      under_newSession (under_of_fits hF hsalted rfl hnone horderly) rfl rfl⟩
  · rename_i enc henc
    split
    · exact ⟨master, hsalted⟩
    · rename_i hopen
      obtain ⟨row, hrow, hrowEnc⟩ := mem_of_firstPassword henc
      have hkey := (decrypt_isSome_iff hF (hsalted.rows row hrow enc hrowEnc)).mp
        (by simpa [Option.isSome_iff_ne_none] using hopen)
      exact ⟨master, under_newSession hsalted rfl hkey⟩

/-- A set-up that goes through makes its master password that of the vault. -/
lemma under_setup (hunder : Under fernet h master) (masterPassword : String) (salt : List UInt8)
    (seed : ℕ) (token : String) (faults : SetupFaults)
    (horderly : Orderly fernet h (.setup masterPassword salt seed token faults)) :
    ∃ master, Under fernet
      ((vault fernet) h (.setup masterPassword salt seed token faults)).1 master := by
  simp only [vault, serve, setupVault]
  split
  · exact ⟨master, hunder⟩
  rename_i hrefused
  simp only [Orderly, hrefused, Bool.false_eq_true, false_or] at horderly
  obtain ⟨hmarker, hnone, hempty⟩ := horderly
  split
  · rename_i hraises
    have hrows := hempty hraises
    refine ⟨master, fun row hrow => ?_, sessionsUnder_of_none hnone, fun m hm => ?_⟩
    · simp [hrows] at hrow
    · have hfirst := (hunder.first m hm).2
      simp [hrows, firstPassword] at hfirst
  · have hdeleted : deleteRow h.vault.rows setupMarker = [] :=
      List.filter_eq_nil_iff.mpr fun row hrow => by simp [hmarker row hrow]
    refine ⟨masterPassword, ?_, ?_, ?_⟩
    · intro row hrow enc henc
      simp only [newSession, hdeleted, List.nil_append, List.mem_singleton] at hrow
      subst hrow
      cases henc
      exact ⟨salt, seed, _, rfl, rfl⟩
    · exact sessionsUnder_newSession rfl (sessionsUnder_of_none hnone) rfl
    · intro m hm
      cases hm
      exact ⟨rfl, by simp [newSession, hdeleted, firstPassword, markerRow, entryRow]⟩

/-- One request keeps the invariant. -/
theorem vault_step (hF : fernet.Lawful) (request : VaultRequest)
    (hunder : ∃ master, Under fernet h master) (horderly : Orderly fernet h request) :
    ∃ master, Under fernet (vault fernet h request).1 master := by
  obtain ⟨master, hunder⟩ := hunder
  cases request with
  | setup masterPassword salt seed token faults =>
    exact under_setup hunder masterPassword salt seed token faults horderly
  | unlock masterPassword salt token dbRaises =>
    exact under_unlock hF hunder masterPassword salt token dbRaises horderly
  | lock header => exact ⟨master, under_lock hunder header⟩
  | getPassword entryId header => exact ⟨master, under_getPassword hunder entryId header⟩
  | createEntry body entryId seed header dbRaises =>
    exact ⟨master, under_createEntry hunder body entryId seed header dbRaises⟩
  | updateEntry entryId body seed header dbRaises =>
    exact ⟨master, under_updateEntry hunder entryId body seed header dbRaises horderly⟩
  | deleteEntry entryId header dbRaises =>
    exact ⟨master, under_deleteEntry hunder entryId header dbRaises horderly⟩
  | tick elapsed => exact ⟨master, under_tick hunder elapsed⟩

end Step

/-! ### All runs -/

lemma under_newVault (now : ℕ) : Under fernet (newVault Key Cipher now) "" where
  rows := fun _ hrow => by cases hrow
  sessions := fun _ he => by cases he
  first := fun _ hm => by cases hm

/-- In a run of orderly requests the vault keeps what it promises. -/
theorem oneKey_of_orderly (hF : fernet.Lawful) (now : ℕ) (requests : List VaultRequest)
    (horderly : (vault fernet).Always (Orderly fernet) (newVault Key Cipher now) requests) :
    OneKey fernet ((vault fernet).after (newVault Key Cipher now) requests) := by
  obtain ⟨master, hunder⟩ := invariant (fun h request => vault_step hF request) horderly
    ⟨"", under_newVault now⟩
  exact oneKey_of_under hF hunder

/-! The key is the password with the salt, and a text carries the key it was encrypted with. -/

/-- Encryption in the open. -/
def plainFernet : Fernet (String × List UInt8) ((String × List UInt8) × String) where
  deriveKey := fun password salt => (password, salt)
  encrypt := fun key _ text => (key, text)
  decrypt := fun key enc => if enc.1 = key then some enc.2 else none

lemma plainFernet_lawful : plainFernet.Lawful where
  decrypt_encrypt := fun key seed text => if_pos rfl
  key_of_decrypt := fun key key' seed text text' htext => by
    by_contra hne
    simp [plainFernet, Ne.symm hne] at htext

/-- A vault that is set up and used as it should be. -/
def orderlyRequests : List VaultRequest :=
  [.setup "a" [1] 0 "t" {},
    .createEntry { title := "mail", password := "p" } "id" 0 (some "t") false,
    .unlock "a" [2] "u" false, .deleteEntry "id" (some "u") false]

theorem orderlyRequests_oneKey :
    OneKey plainFernet ((vault plainFernet).after (newVault _ _ 0) orderlyRequests) := by
  refine oneKey_of_orderly plainFernet_lawful 0 orderlyRequests ⟨.inr ?_, trivial, .inr (.inl ?_),
    fun _ _ _ => ?_, trivial⟩ <;> decide

/-- The marker is updated like an entry, without a password. -/
def emptiedMarker : List VaultRequest :=
  [.setup "a" [1] 0 "t" {},
    .updateEntry setupMarker { title := setupMarker } 0 (some "t") false]

/-- After that any password unlocks the vault. -/
theorem emptiedMarker_unlocked : plainFernet.Lawful ∧
    ¬ OneKey plainFernet ((vault plainFernet).after (newVault _ _ 0) emptiedMarker) := by
  refine ⟨plainFernet_lawful, fun hone => ?_⟩
  have hunlocked : (unlock plainFernet
      ((vault plainFernet).after (newVault _ _ 0) emptiedMarker).vault "b" [2] "u" false).2 =
        .session "u" := by decide
  obtain ⟨salt, -, hkey⟩ := hone.unlocks "a" (by decide) "b" [2] "u" "u" false hunlocked
  exact absurd (congrArg Prod.fst hkey) (by simp [plainFernet])

end Trion.Vault
