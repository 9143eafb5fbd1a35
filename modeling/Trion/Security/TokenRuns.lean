import Trion.Python.SameJson
import Trion.Security.TokenLaws

/-!
# Revoked tokens

A revocation writes the next generation, and a token names the one it was issued for.  So a token
that was issued or accepted before a revocation is not accepted after it, whatever the authority
is asked for in between.
-/

namespace Trion.Security

open Trion.Python OperationRun System

/-! ### The generation file -/

lemma universalNewlines_eq_self : ∀ {cs : List Char}, '\r' ∉ cs → universalNewlines cs = cs
  | [], _ => rfl
  | c :: cs, h => by
    have hc : c ≠ '\r' := fun heq => h (heq ▸ List.mem_cons_self)
    have hrest := universalNewlines_eq_self fun hmem => h (List.mem_cons_of_mem c hmem)
    rw [universalNewlines, hrest]
    · rintro _ heq -
      exact hc heq
    · exact hc

lemma fromUTF8?_encode (s : String) : String.fromUTF8? (encode s).toByteArray = some s := by
  rw [toByteArray_encode, String.fromUTF8?, dif_pos s.isValidUTF8]
  rfl

/-- The end of a line goes with the white space. -/
lemma strip_line {text : String} (hspace : ∀ c ∈ text.toList, isSpace c = false) :
    strip (text ++ "\n") = text := by
  have hnone : ∀ {cs : List Char}, (∀ c ∈ cs, isSpace c = false) → cs.dropWhile isSpace = cs := by
    intro cs hcs
    cases cs with
    | nil => rfl
    | cons c cs => exact List.dropWhile_cons_of_neg (by simp [hcs c List.mem_cons_self])
  have hnewline : isSpace '\n' = true := by decide
  have hreverse : ∀ c ∈ text.toList.reverse, isSpace c = false :=
    fun c hc => hspace c (List.mem_reverse.mp hc)
  unfold strip
  rcases htext : text.toList with _ | ⟨c, cs⟩
  · have hempty : text = "" := String.toList_inj.mp htext
    rw [hempty]
    decide
  · have hkept : (text ++ "\n").toList.dropWhile isSpace = text.toList ++ ['\n'] := by
      rw [String.toList_append, htext]
      exact List.dropWhile_cons_of_neg (by simp [hspace c (by simp [htext])])
    rw [hkept, List.reverse_append, List.reverse_singleton, List.singleton_append,
      List.dropWhile_cons_of_pos hnewline, hnone hreverse, List.reverse_reverse,
      String.ofList_toList]

/-- A line of a text file without white space is read as it was written. -/
lemma readNonempty_line {text : String} (hne : text ≠ "")
    (hspace : ∀ c ∈ text.toList, isSpace c = false) :
    (MaterialFile.file (encode (text ++ "\n"))).readNonempty = some text := by
  have hreturn : '\r' ∉ (text ++ "\n").toList := by
    rw [String.toList_append, List.mem_append, not_or]
    refine ⟨fun hmem => ?_, by decide⟩
    exact absurd (hspace _ hmem) (by decide)
  have hread : (MaterialFile.file (encode (text ++ "\n"))).readText = some (text ++ "\n") := by
    simp only [MaterialFile.readText, MaterialFile.readBytes, Option.bind_eq_bind,
      Option.bind_some, fromUTF8?_encode, universalNewlines_eq_self hreturn, String.ofList_toList]
    rfl
  rw [MaterialFile.readNonempty, hread]
  simp [strip_line hspace, hne]

lemma readNonempty_int (n : ℤ) :
    (MaterialFile.file (encode (toString n ++ "\n"))).readNonempty = some (toString n) := by
  refine readNonempty_line ?_ fun c hc => ?_
  · cases n with
    | ofNat m => exact Nat.repr_ne_empty
    | negSucc m =>
      intro hempty
      have hlist : ("-" ++ toString (m + 1)).toList = [] := congrArg String.toList hempty
      simp at hlist
  · rcases mem_intText hc with rfl | hdigit
    · decide
    · exact isSpace_of_isDigit hdigit

/-! ### The generation a token names -/

/-- The generation in the payload of a token. -/
def namedGeneration (rt : TokenRuntime) (token : String) : Option ℤ := do
  let payload ← b64decode (beforeFirst '.' token).toList
  let data ← rt.loads payload
  (claimedGeneration rt data).toOption

section Named

variable {rt : TokenRuntime}

lemma namedGeneration_of_verify {codec : SessionCodec} {token : String} {generation now : ℤ}
    {claims : SessionClaims} (h : codec.verify rt token generation now = .ok claims) :
    namedGeneration rt token = some generation := by
  obtain ⟨-, -, payload, data, hpayload, hdata, hclaims⟩ := verify_eq_ok_iff.mp h
  simp [namedGeneration, (b64decode_eq_some_iff _ _).mpr hpayload, hdata,
    readClaims_generation hclaims, Except.toOption]

lemma namedGeneration_session (hrt : rt.ReadsBack) (call : IssueCall) :
    namedGeneration rt (call.session rt).token = some call.generation := by
  have hpayload : b64decode (call.encoded rt).toList = some (encode (String.ofList
      ((PyVal.dict (sessionPayload call.subject call.generation
        (call.now + call.codec.ttlSeconds) call.nonce)).document.text rt.toPyRuntime))) := by
    rw [b64decode_eq_some_iff, IssueCall.encoded, encodedPayload, String.toList_ofList]
  rw [namedGeneration, beforeFirst_session_token, hpayload, Option.bind_eq_bind, Option.bind_some,
    loads_sessionPayload hrt]
  rfl

end Named

/-! ### A call -/

/-- The token that was issued or accepted. -/
def AuthorityEvent.token? : AuthorityEvent → Option String
  | .issued session => some session.token
  | .accepted token _ => some token
  | .revoked => none

section Steps

variable {Path : Type} {rt : TokenRuntime} {platform : Platform Path}
  {authority : SecurityAuthority Path} {files : Path → MaterialFile}

lemma issueSession_named (hrt : rt.ReadsBack) {now : ℤ} {random : List UInt8}
    {session : IssuedSession}
    (h : authority.issueSession rt platform files now random = some session) :
    ∃ g, authority.generation rt platform files = some g ∧
      namedGeneration rt session.token = some g := by
  obtain ⟨codec, -, h⟩ := Option.bind_eq_some_iff.mp h
  obtain ⟨g, hg, h⟩ := Option.bind_eq_some_iff.mp h
  obtain rfl := Option.some.inj h
  exact ⟨g, hg, namedGeneration_session hrt ⟨codec, "admin", g, now, _⟩⟩

lemma authenticateSession_named {token : String} {now : ℤ} {principal : AuthenticatedPrincipal}
    (h : authority.authenticateSession rt platform files token now = .ok (some principal)) :
    ∃ g, authority.generation rt platform files = some g ∧ namedGeneration rt token = some g := by
  unfold SecurityAuthority.authenticateSession at h
  split at h
  · rename_i codec g _ hg
    refine ⟨g, hg, ?_⟩
    split at h
    · rename_i claims hverify
      exact namedGeneration_of_verify hverify
    · simp at h
    · simp at h
  · simp at h

variable [DecidableEq Path]

lemma generation_setFile (hrt : rt.ReadsBack) (n : ℤ) :
    authority.generation rt platform (setFile files (authority.paths.sessionGeneration platform)
      (.file (encode (toString n ++ "\n")))) = some n := by
  rw [SecurityAuthority.generation, setFile, if_pos rfl, readNonempty_int]
  exact hrt.parseInt_toString n

/-- A revocation that returns has written the next generation, and one that raises has left the
generation as it was. -/
lemma revokeSessions_generation (files : Path → MaterialFile) (hrt : rt.ReadsBack)
    (hapart : authority.temporary platform ≠ authority.paths.sessionGeneration platform)
    (fault : Option RevokeFault) :
    if (authority.revokeSessions rt platform files fault).2 then
      ∃ g, authority.generation rt platform files = some g ∧
        authority.generation rt platform
          (authority.revokeSessions rt platform files fault).1 = some (g + 1)
    else
      authority.generation rt platform (authority.revokeSessions rt platform files fault).1 =
        authority.generation rt platform files := by
  unfold SecurityAuthority.revokeSessions
  rcases hg : authority.generation rt platform files with _ | g
  · simp [hg]
  · have hkept : ∀ file, authority.generation rt platform
        (setFile files (authority.temporary platform) file) = some g := by
      intro file
      rw [← hg]
      simp [SecurityAuthority.generation, setFile, hapart.symm]
    rcases fault with _ | _ | left | _ | _
    · exact ⟨g, rfl, generation_setFile hrt (g + 1)⟩
    · exact hg
    · exact hkept _
    · exact hkept _
    · exact hkept _

/-- A revocation returns if the generation can be read and no write fails. -/
lemma calls_revoke (hrt : rt.ReadsBack) {g : ℤ}
    (hg : authority.generation rt platform files = some g) :
    (authority.calls rt platform files (.revoke none)).2 = [.revoked] ∧
      authority.generation rt platform (authority.calls rt platform files (.revoke none)).1 =
        some (g + 1) := by
  simp only [SecurityAuthority.calls, SecurityAuthority.revokeSessions, hg]
  exact ⟨rfl, generation_setFile hrt (g + 1)⟩

/-- What a call can do: nothing to the sessions, name a token of the generation, or go on to the
next generation. -/
lemma calls_cases (files : Path → MaterialFile) (hrt : rt.ReadsBack)
    (hapart : authority.temporary platform ≠ authority.paths.sessionGeneration platform)
    (call : AuthorityCall) :
    ((authority.calls rt platform files call).2 = [] ∧
        authority.generation rt platform (authority.calls rt platform files call).1 =
          authority.generation rt platform files) ∨
      (∃ event token g, (authority.calls rt platform files call).2 = [event] ∧
        event.token? = some token ∧ namedGeneration rt token = some g ∧
          authority.generation rt platform files = some g ∧
            authority.generation rt platform (authority.calls rt platform files call).1 = some g) ∨
      ∃ g, (authority.calls rt platform files call).2 = [.revoked] ∧
        authority.generation rt platform files = some g ∧
          authority.generation rt platform (authority.calls rt platform files call).1 =
            some (g + 1) := by
  cases call with
  | issue now random =>
    rcases hissue : authority.issueSession rt platform files now random with _ | session
    · exact .inl (by simp [SecurityAuthority.calls, hissue])
    · obtain ⟨g, hg, hnamed⟩ := issueSession_named hrt hissue
      exact .inr (.inl ⟨.issued session, session.token, g,
        by simp [SecurityAuthority.calls, hissue], rfl, hnamed, hg, hg⟩)
  | authenticate token now =>
    rcases hsession : authority.authenticateSession rt platform files token now with
      _ | _ | principal
    · exact .inl (by simp [SecurityAuthority.calls, hsession])
    · exact .inl (by simp [SecurityAuthority.calls, hsession])
    · obtain ⟨g, hg, hnamed⟩ := authenticateSession_named hsession
      exact .inr (.inl ⟨.accepted token principal, token, g,
        by simp [SecurityAuthority.calls, hsession], rfl, hnamed, hg,
        by simpa [SecurityAuthority.calls, hsession] using hg⟩)
  | revoke fault =>
    have hgeneration := revokeSessions_generation files hrt hapart fault
    rcases hrevoke : authority.revokeSessions rt platform files fault with ⟨files', _ | _⟩
    · rw [hrevoke] at hgeneration
      exact .inl ⟨by simp [SecurityAuthority.calls, hrevoke],
        by simpa [SecurityAuthority.calls, hrevoke] using hgeneration⟩
    · rw [hrevoke] at hgeneration
      obtain ⟨g, hg, hnext⟩ := hgeneration
      exact .inr (.inr ⟨g, by simp [SecurityAuthority.calls, hrevoke], hg,
        by simpa [SecurityAuthority.calls, hrevoke] using hnext⟩)

end Steps

/-! ### Runs -/

/-- The token was issued or accepted. -/
def Named (events : List AuthorityEvent) (token : String) : Prop :=
  ∃ event ∈ events, event.token? = some token

/-- The token was issued or accepted before a revocation. -/
def Retired (events : List AuthorityEvent) (token : String) : Prop :=
  ∃ before later, events = before ++ .revoked :: later ∧ Named before token

section Retired

variable {events : List AuthorityEvent} {event : AuthorityEvent} {token : String}

lemma named_append_singleton :
    Named (events ++ [event]) token ↔ Named events token ∨ event.token? = some token := by
  simp only [Named, List.mem_append, List.mem_singleton, or_and_right, exists_or,
    exists_eq_left]

lemma Retired.named (h : Retired events token) : Named events token := by
  obtain ⟨before, later, rfl, e, he, htoken⟩ := h
  exact ⟨e, List.mem_append_left _ he, htoken⟩

lemma retired_append_singleton (h : Retired (events ++ [event]) token) :
    Retired events token ∨ event = .revoked ∧ Named events token := by
  obtain ⟨before, later, heq, hnamed⟩ := h
  rcases List.eq_nil_or_concat later with rfl | ⟨later, last, rfl⟩
  · obtain ⟨rfl, hlast⟩ := List.append_inj' heq rfl
    exact .inr ⟨List.singleton_inj.mp hlast, hnamed⟩
  · rw [List.concat_eq_append, ← List.cons_append, ← List.append_assoc] at heq
    exact .inl ⟨before, later, (List.append_inj' heq rfl).1, hnamed⟩

end Retired

/-- The tokens of a run are from the generations up to now, the retired ones from earlier ones,
and no retired token has been issued or accepted again. -/
structure GenerationsFit {Path : Type} (rt : TokenRuntime) (platform : Platform Path)
    (authority : SecurityAuthority Path) (events : List AuthorityEvent)
    (files : Path → MaterialFile) : Prop where
  named : ∀ token, Named events token → ∃ n g, namedGeneration rt token = some n ∧
    authority.generation rt platform files = some g ∧ n ≤ g
  retired : ∀ token, Retired events token → ∃ n g, namedGeneration rt token = some n ∧
    authority.generation rt platform files = some g ∧ n < g
  refused : EachEvent (fun before event => ∀ token, event.token? = some token →
    ¬ Retired before token) events

section Runs

variable {Path : Type} [DecidableEq Path] {rt : TokenRuntime} {platform : Platform Path}
  {authority : SecurityAuthority Path} {files : Path → MaterialFile}
  {events : List AuthorityEvent}

lemma generationsFit_calls (hrt : rt.ReadsBack)
    (hapart : authority.temporary platform ≠ authority.paths.sessionGeneration platform)
    (hfit : GenerationsFit rt platform authority events files) (call : AuthorityCall) :
    GenerationsFit rt platform authority (events ++ (authority.calls rt platform files call).2)
      (authority.calls rt platform files call).1 := by
  obtain ⟨hnone, hsame⟩ | ⟨event, token, g, hevent, htoken, hname, hg, hg'⟩ |
    ⟨g, hevent, hg, hg'⟩ := calls_cases files hrt hapart call
  · rw [hnone, List.append_nil]
    exact ⟨hsame ▸ hfit.named, hsame ▸ hfit.retired, hfit.refused⟩
  · -- a token of the present generation, which is not retired
    have hold : ∀ t, Retired (events ++ [event]) t → Retired events t := by
      intro t ht
      rcases retired_append_singleton ht with h | ⟨rfl, -⟩
      · exact h
      · simp [AuthorityEvent.token?] at htoken
    rw [hevent]
    refine ⟨fun t ht => ?_, fun t ht => ?_, ?_⟩
    · rcases named_append_singleton.mp ht with h | h
      · rw [hg', ← hg]
        exact hfit.named t h
      · obtain rfl := Option.some.inj (htoken.symm.trans h)
        exact ⟨g, g, hname, hg', Int.le_refl g⟩
    · rw [hg', ← hg]
      exact hfit.retired t (hold t ht)
    · refine eachEvent_append_singleton.mpr ⟨hfit.refused, fun t ht hretired => ?_⟩
      obtain rfl := Option.some.inj (htoken.symm.trans ht)
      obtain ⟨n, m, hn, hm, hlt⟩ := hfit.retired token hretired
      obtain rfl := Option.some.inj (hname.symm.trans hn)
      obtain rfl := Option.some.inj (hg.symm.trans hm)
      exact Int.lt_irrefl g hlt
  · have hbelow : ∀ t, Named events t → ∃ n m, namedGeneration rt t = some n ∧
        authority.generation rt platform (authority.calls rt platform files call).1 = some m ∧
          n < m := by
      intro t ht
      obtain ⟨n, m, hn, hm, hle⟩ := hfit.named t ht
      obtain rfl := Option.some.inj (hg.symm.trans hm)
      exact ⟨n, g + 1, hn, hg', by omega⟩
    rw [hevent]
    refine ⟨fun t ht => ?_, fun t ht => ?_, ?_⟩
    · rcases named_append_singleton.mp ht with h | h
      · obtain ⟨n, m, hn, hm, hlt⟩ := hbelow t h
        exact ⟨n, m, hn, hm, Int.le_of_lt hlt⟩
      · simp [AuthorityEvent.token?] at h
    · rcases retired_append_singleton ht with h | ⟨-, h⟩
      · exact hbelow t h.named
      · exact hbelow t h
    · refine eachEvent_append_singleton.mpr ⟨hfit.refused, fun t ht => ?_⟩
      simp [AuthorityEvent.token?] at ht

/-- After a revocation no token that was issued or accepted before it is accepted. -/
theorem revoked_not_accepted (hrt : rt.ReadsBack)
    (hapart : authority.temporary platform ≠ authority.paths.sessionGeneration platform)
    (calls : List AuthorityCall) {before later : List AuthorityEvent} {token : String}
    {principal : AuthenticatedPrincipal}
    (hevents : (authority.calls rt platform).events files calls = before ++ .revoked :: later)
    (hnamed : Named before token) : .accepted token principal ∉ later := by
  have hempty : GenerationsFit rt platform authority [] files := by
    refine ⟨?_, ?_, eachEvent_nil⟩
    · rintro token ⟨event, hevent, -⟩
      simp at hevent
    · rintro token ⟨before, later, heq, -⟩
      simp at heq
  have hall : (authority.calls rt platform).Always (fun _ _ => True) files calls :=
    always_of_forall fun _ _ => trivial
  have hfit := events_invariant (C := fun _ _ => True) (I := GenerationsFit rt platform authority)
    (fun _ _ call hI _ => generationsFit_calls hrt hapart hI call) hall hempty
  intro hmem
  obtain ⟨first, last, rfl⟩ := List.append_of_mem hmem
  have hsplit : (authority.calls rt platform).events files calls =
      (before ++ .revoked :: first) ++ .accepted token principal :: last := by
    rw [hevents, List.append_assoc, List.cons_append]
  exact hfit.refused _ _ _ hsplit token rfl ⟨before, first, rfl, hnamed⟩

end Runs

/-! ### The tokens of a key -/

/-- The messages that calls of `issue` have computed the keyed hash of. -/
def keyedMessages (rt : TokenRuntime) (calls : List IssueCall) : List (List UInt8) :=
  calls.flatMap (·.keyedMessages rt)

/-- The tokens of a key whose hashes are not forged.

* `verify` accepts exactly what `issue` has written with this key for a subject that is not empty,
  for this generation and with an expiry after this time, and returns what `issue` has returned.
* No CSRF token signs an accepted token, nor does any keyed value that was computed for something
  else than this token.
* No two spellings of the same bytes are accepted.
* After a revocation no earlier token is accepted, in no run of the authority; and a revocation
  returns where the generation can be read and its writes work. -/
theorem session_tokens {rt : TokenRuntime} (hrt : rt.ReadsBack) (codec : SessionCodec)
    (calls : List IssueCall) (hkey : ∀ call ∈ calls, call.codec.signingKey = codec.signingKey) :
    (∀ (token : String) (generation now : ℤ) (claims : SessionClaims),
      Unforgeable rt codec.signingKey (keyedMessages rt calls) token →
        (codec.verify rt token generation now = .ok claims ↔
          ∃ call ∈ calls, call.subject ≠ "" ∧ call.generation = generation ∧
            now < (call.session rt).expiresAt ∧ token = (call.session rt).token ∧
              claims = ⟨call.subject, generation, (call.session rt).csrfToken,
                (call.session rt).expiresAt⟩)) ∧
    (∀ (token : String) (generation now : ℤ) (claims : SessionClaims),
      Unforgeable rt codec.signingKey (keyedMessages rt calls) token →
        codec.verify rt token generation now = .ok claims →
          (∀ call ∈ calls, afterFirst '.' token ≠ (call.session rt).csrfToken) ∧
            ∀ message ∈ keyedMessages rt calls, afterFirst '.' token =
              String.ofList (b64encode (rt.hmacSha256 codec.signingKey message)) →
                message = encode (beforeFirst '.' token)) ∧
    (∀ (token token' : String) (generation generation' now now' : ℤ)
      (claims claims' : SessionClaims), codec.verify rt token generation now = .ok claims →
        codec.verify rt token' generation' now' = .ok claims' → spelled token = spelled token' →
          token = token') ∧
    (∀ (Path : Type) [DecidableEq Path] (platform : Platform Path)
      (authority : SecurityAuthority Path) (files : Path → MaterialFile)
      (requests : List AuthorityCall) (before later : List AuthorityEvent) (token : String)
      (principal : AuthenticatedPrincipal),
      authority.temporary platform ≠ authority.paths.sessionGeneration platform →
        (authority.calls rt platform).events files requests = before ++ .revoked :: later →
          Named before token → .accepted token principal ∉ later) ∧
    (∀ (Path : Type) [DecidableEq Path] (platform : Platform Path)
      (authority : SecurityAuthority Path) (files : Path → MaterialFile) (generation : ℤ),
      authority.generation rt platform files = some generation →
        (authority.calls rt platform files (.revoke none)).2 = [.revoked] ∧
          authority.generation rt platform (authority.calls rt platform files (.revoke none)).1 =
            some (generation + 1)) := by
  refine ⟨?_, ?_, ?_, ?_, ?_⟩
  · intro token generation now claims hforge
    exact verify_iff_issued hrt hkey hforge
  · intro token generation now claims hforge hverify
    exact ⟨fun call hcall => csrfToken_ne_signature hkey hforge hcall hverify,
      fun message hmessage hsigned => signature_of_verify hforge hmessage hsigned hverify⟩
  · intro token token' generation generation' now now' claims claims' h h' hsame
    exact token_of_spelled h h' hsame
  · intro Path _ platform authority files requests before later token principal hapart hevents
      hnamed
    exact revoked_not_accepted hrt hapart requests hevents hnamed
  · intro Path _ platform authority files generation hreads
    exact calls_revoke hrt hreads

/-! ### A session of the administrator -/

section ReadBack

variable {rt : PyRuntime} {rows rows' : PyDict} {bytes : List UInt8}

/-- The bytes are the JSON text of a dictionary of texts and integers. -/
def SpellsRows (rt : PyRuntime) (bytes : List UInt8) (rows : PyDict) : Prop :=
  (rows.map Prod.fst).Nodup ∧ (∀ row ∈ rows, isPlain row.2) ∧
    ∃ text, canonicalJson? rt (.dict rows) = some text ∧ bytes = encode (String.ofList text)

lemma SpellsRows.fromJson (h : SpellsRows rt bytes rows) : (PyVal.dict rows).FromJson := by
  refine fromJson_dict.mpr ⟨h.1, fun row hrow => ?_⟩
  have hplain := h.2.1 row hrow
  rcases row with ⟨key, _ | _ | _ | _ | _ | _ | _ | _ | _⟩
  all_goals trivial

/-- The text or the integer of a document. -/
def plainOf : Json → PyVal
  | .str s => .str s
  | .scalar (.int n) => .int n
  | _ => .none

lemma SpellsRows.map_plainOf (h : SpellsRows rt bytes rows) :
    (PyVal.documentRows rows).map (fun row => (row.1, plainOf row.2)) = rows := by
  rw [documentRows_eq, List.map_map]
  conv_rhs => rw [← List.map_id rows]
  refine List.map_congr_left fun row hrow => ?_
  have hplain := h.2.1 row hrow
  rcases row with ⟨key, _ | _ | _ | _ | _ | _ | _ | _ | _⟩
  all_goals first | rfl | simp [isPlain] at hplain

/-- The bytes tell the dictionary up to the order of its keys. -/
lemma SpellsRows.sorted (hfloat : FloatTexts rt) (h : SpellsRows rt bytes rows)
    (h' : SpellsRows rt bytes rows') : sortByKey rows = sortByKey rows' := by
  obtain ⟨-, -, text, htext, hbytes⟩ := id h
  obtain ⟨-, -, text', htext', hbytes'⟩ := id h'
  have hsame : SameJson (.dict rows) (.dict rows') := by
    refine sameJson_of_canonicalJson hfloat h.fromJson h'.fromJson ?_
    rw [htext, htext', String.ofList_inj.mp (encode_injective (hbytes.symm.trans hbytes'))]
  have hperm : (PyVal.documentRows rows).Perm (PyVal.documentRows rows') := by
    refine (sortByKey_eq_iff ?_).mp (by simpa [SameJson, PyVal.document] using hsame)
    rw [keys_documentRows]
    exact h.1
  refine (sortByKey_eq_iff h.1).mpr ?_
  have hmapped := hperm.map fun row => (row.1, plainOf row.2)
  rwa [h.map_plainOf, h'.map_plainOf] at hmapped

open Classical in
/-- What `json.loads` gives for the JSON text of a dictionary of texts and integers. -/
noncomputable def readRows (rt : PyRuntime) (bytes : List UInt8) : Option PyVal :=
  if h : ∃ rows, SpellsRows rt bytes rows then some (.dict (sortByKey h.choose)) else none

lemma readRows_eq (hfloat : FloatTexts rt) (h : SpellsRows rt bytes rows) :
    readRows rt bytes = some (.dict (sortByKey rows)) := by
  have hexists : ∃ rows, SpellsRows rt bytes rows := ⟨rows, h⟩
  rw [readRows, dif_pos hexists, hexists.choose_spec.sorted hfloat h]

end ReadBack

/-- The built-ins on ASCII text. -/
def adminBuiltins : PyRuntime where
  lower := PyRuntime.ascii.lower
  parseInt := PyRuntime.ascii.parseInt
  reprOf
    | .float (.finite q) => toString q.num ++ "." ++ toString (q.den : ℤ)
    | _ => ""

/-- The bytes from 1 to 32. -/
def adminKey : List UInt8 := (List.range' 1 32).map UInt8.ofNat

def adminCodec : SessionCodec := ⟨adminKey, 3600, by decide, by decide⟩

def adminCall : IssueCall := ⟨adminCodec, "admin", 1, 1000, "bm9uY2U"⟩

/-- The HMAC of `eyJleHAiOjQ2MDAsImdlbiI6MSwibm9uY2UiOiJibTl1WTJVIiwic3ViIjoiYWRtaW4ifQ`, which is
`_b64encode` of the payload. -/
def adminSignature : List UInt8 :=
  [125, 226, 34, 166, 104, 8, 111, 226, 23, 207, 18, 40, 58, 16, 254, 194, 163, 197, 171, 47, 222,
    107, 37, 219, 251, 155, 115, 25, 26, 66, 126, 37]

/-- The HMAC of `csrf:admin:1:bm9uY2U`. -/
def adminCsrf : List UInt8 :=
  [157, 123, 126, 237, 139, 118, 63, 165, 68, 18, 208, 44, 14, 213, 253, 218, 80, 145, 102, 20, 239,
    34, 14, 59, 66, 235, 26, 121, 232, 140, 114, 243]

/-- The standard library on the messages of the call. -/
noncomputable def adminRuntime : TokenRuntime where
  toPyRuntime := adminBuiltins
  hmacSha256 _ message :=
    if message = encode (encodedPayload adminBuiltins "admin" 1 4600 "bm9uY2U") then adminSignature
    else if message = encode (csrfText "admin" 1 "bm9uY2U") then adminCsrf
    else []
  loads := readRows adminBuiltins

lemma adminBuiltins_floats : FloatTexts adminBuiltins := floatTexts_of_fractions fun _ => rfl

lemma adminRuntime_readsBack : adminRuntime.ReadsBack := by
  refine ⟨fun rows text hkeys hplain htext => ?_, fun n => ?_⟩
  · have hspells : SpellsRows adminBuiltins (encode (String.ofList text)) rows :=
      ⟨hkeys, hplain, text, htext, rfl⟩
    exact readRows_eq adminBuiltins_floats hspells
  · simp only [adminRuntime, adminBuiltins, parseInt_ascii_toString]

lemma adminCall_unforgeable : Unforgeable adminRuntime adminCodec.signingKey
    (keyedMessages adminRuntime [adminCall]) (adminCall.session adminRuntime).token := by
  intro message signature _ hmessage hsignature hkeyed
  have hfirst : encodeAscii (beforeFirst '.' (adminCall.session adminRuntime).token) =
      some (encode (adminCall.encoded adminRuntime)) := by
    obtain ⟨hascii, -⟩ := encodeAscii_eq_some_iff.mp hmessage
    rw [beforeFirst_session_token] at hascii ⊢
    exact encodeAscii_eq_some_iff.mpr ⟨hascii, rfl⟩
  obtain rfl := Option.some.inj (hfirst.symm.trans hmessage)
  have hsigned : signature = adminSignature := by
    rw [← hkeyed]
    exact if_pos rfl
  have hne : encode (csrfText "admin" 1 "bm9uY2U") ≠ encode (adminCall.encoded adminRuntime) := by
    intro heq
    have htext := congrArg String.toList (encode_injective heq)
    rw [IssueCall.encoded, encodedPayload, String.toList_ofList] at htext
    exact csrfText_ne _ _ _ _ htext
  refine ⟨by simp [keyedMessages, IssueCall.keyedMessages], fun other hother hvalue => ?_⟩
  simp only [keyedMessages, List.flatMap_cons, List.flatMap_nil, List.append_nil,
    IssueCall.keyedMessages, List.mem_cons, List.not_mem_nil, or_false] at hother
  rcases hother with rfl | rfl
  · rfl
  · have hcsrf : adminRuntime.hmacSha256 adminCodec.signingKey
        (encode (csrfText "admin" 1 "bm9uY2U")) = adminCsrf :=
      (if_neg hne).trans (if_pos rfl)
    have hsame : adminCsrf = adminSignature := hcsrf.symm.trans (hvalue.trans hsigned)
    exact absurd hsame (by decide)

/-- The session of the administrator is accepted until it expires. -/
theorem session_tokens_admin :
    adminCodec.verify adminRuntime (adminCall.session adminRuntime).token 1 4599 =
      .ok ⟨"admin", 1, (adminCall.session adminRuntime).csrfToken, 4600⟩ := by
  have hkey : ∀ call ∈ [adminCall], call.codec.signingKey = adminCodec.signingKey := by
    simp [adminCall]
  have hexpires : (adminCall.session adminRuntime).expiresAt = 4600 := rfl
  obtain ⟨haccepted, -⟩ := session_tokens adminRuntime_readsBack adminCodec [adminCall] hkey
  refine (haccepted _ 1 4599 _ adminCall_unforgeable).mpr ⟨adminCall, List.mem_cons_self, ?_⟩
  rw [hexpires]
  exact ⟨by decide, rfl, by decide, rfl, rfl⟩

end Trion.Security
