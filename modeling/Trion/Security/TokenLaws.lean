import Trion.Python.Text
import Trion.Security.SessionTokens

/-!
# What a session token says

`verify` accepts what is spelled as `issue` spells it, and only that, as far as the keyed hash
cannot be forged: the texts of CSRF tokens are no first part of a token.
-/

namespace Trion.Security

open Trion.Python

/-! ### Texts -/

private lemma toList_loop (bytes : ByteArray) (i : ℕ) (acc : List UInt8) :
    ByteArray.toList.loop bytes i acc = acc.reverse ++ bytes.data.toList.drop i := by
  fun_induction ByteArray.toList.loop bytes i acc with
  | case1 i acc hi ih =>
    have hlt : i < bytes.data.toList.length := by simpa using hi
    rw [ih, List.drop_eq_getElem_cons hlt, List.reverse_cons, List.append_assoc]
    have hget : bytes.get! i = bytes.data.toList[i] := by
      simpa [ByteArray.get!] using getElem!_pos bytes.data i hi
    rw [hget]
    rfl
  | case2 i acc hi =>
    have hle : bytes.data.toList.length ≤ i := by simpa using hi
    rw [List.drop_of_length_le hle, List.append_nil]

lemma toList_eq_data (bytes : ByteArray) : bytes.toList = bytes.data.toList := by
  rw [ByteArray.toList, toList_loop]
  rfl

lemma toByteArray_encode (s : String) : (encode s).toByteArray = s.toByteArray := by
  refine ByteArray.ext (Array.toList_inj.mp ?_)
  rw [List.toList_data_toByteArray, encode, String.toUTF8_eq_toByteArray, toList_eq_data]

lemma encode_injective : Function.Injective encode := by
  intro s t h
  unfold encode at h
  rw [String.toUTF8_eq_toByteArray, String.toUTF8_eq_toByteArray, toList_eq_data,
    toList_eq_data] at h
  exact String.toByteArray_inj.mp (ByteArray.ext (Array.toList_inj.mp h))

lemma encodeAscii_eq_some_iff {s : String} {bytes : List UInt8} :
    encodeAscii s = some bytes ↔ (∀ c ∈ s.toList, c.toNat < 128) ∧ bytes = encode s := by
  unfold encodeAscii
  split_ifs with h
  · simp only [List.all_eq_true, decide_eq_true_eq] at h
    exact ⟨fun heq => ⟨h, (Option.some.inj heq).symm⟩, fun heq => congrArg some heq.2.symm⟩
  · simp only [List.all_eq_true, decide_eq_true_eq] at h
    simp [h]

lemma mem_b64encode {bytes : List UInt8} {c : Char} (h : c ∈ b64encode bytes) :
    c ∈ urlsafeAlphabet :=
  mem_rstripPadding h

lemma dot_notMem_b64encode (bytes : List UInt8) : '.' ∉ b64encode bytes := by
  intro h
  exact absurd (of_mem_urlsafeAlphabet (· != '.') (by decide) (mem_b64encode h)) (by decide)

lemma ascii_of_mem_b64encode {bytes : List UInt8} {c : Char} (h : c ∈ b64encode bytes) :
    c.toNat < 128 :=
  of_decide_eq_true (of_mem_urlsafeAlphabet (·.toNat < 128) (by decide) (mem_b64encode h))

/-- A payload is ASCII. -/
lemma encodeAscii_of_payload {s : String} {payload : List UInt8}
    (h : s.toList = b64encode payload) : encodeAscii s = some (encode s) := by
  refine encodeAscii_eq_some_iff.mpr ⟨fun c hc => ?_, rfl⟩
  rw [h] at hc
  exact ascii_of_mem_b64encode hc

/-- The keyed hash can be decoded. -/
lemma b64decode_keyed (rt : TokenRuntime) (codec : SessionCodec) (text : String) :
    b64decode (codec.keyed rt text).toList =
      some (rt.hmacSha256 codec.signingKey (encode text)) := by
  rw [b64decode_eq_some_iff, SessionCodec.keyed, String.toList_ofList]

section Parts

variable {token first second : String}

lemma beforeFirst_append (h : '.' ∉ first.toList) :
    beforeFirst '.' (first ++ "." ++ second) = first := by
  have hall : ∀ c ∈ first.toList, (c != '.') = true := by
    intro c hc
    exact bne_iff_ne.mpr fun heq => h (heq ▸ hc)
  simp [beforeFirst, List.takeWhile_append_of_pos hall]

lemma afterFirst_append (h : '.' ∉ first.toList) :
    afterFirst '.' (first ++ "." ++ second) = second := by
  have hall : ∀ c ∈ first.toList, (c != '.') = true := by
    intro c hc
    exact bne_iff_ne.mpr fun heq => h (heq ▸ hc)
  simp [afterFirst, List.dropWhile_append_of_pos hall]

/-- A text with a dot is its two parts with the dot between them. -/
lemma parts_append (h : '.' ∈ token.toList) :
    token = beforeFirst '.' token ++ "." ++ afterFirst '.' token := by
  refine String.toList_inj.mp ((toList_eq_parts h).trans ?_)
  simp

end Parts

/-! ### The payload -/

/-- A text or an integer. -/
def isPlain : PyVal → Bool
  | .str _ | .int _ => true
  | _ => false

/-- What the token code relies on: `json.loads` reads back a dictionary of texts and integers
that `json.dumps` has written with sorted keys, and `int` reads back what `str` writes. -/
structure TokenRuntime.ReadsBack (rt : TokenRuntime) : Prop where
  loads_dumps (rows : PyDict) (text : List Char) : (rows.map Prod.fst).Nodup →
    (∀ row ∈ rows, isPlain row.2) → canonicalJson? rt.toPyRuntime (.dict rows) = some text →
      rt.loads (encode (String.ofList text)) = some (.dict (sortByKey rows))
  parseInt_toString (n : ℤ) : rt.parseInt (toString n) = some n

section Payload

variable {subject nonce : String} {generation expires : ℤ}

lemma canonicalJson?_sessionPayload (rt : PyRuntime) :
    canonicalJson? rt (.dict (sessionPayload subject generation expires nonce)) =
      some ((PyVal.dict (sessionPayload subject generation expires nonce)).document.text rt) := by
  rw [canonicalJson?, jsonCopy_of_isJson (by rfl), Option.map_some]

lemma sortByKey_sessionPayload :
    sortByKey (sessionPayload subject generation expires nonce) =
      [("exp", .int expires), ("gen", .int generation), ("nonce", .str nonce),
        ("sub", .str subject)] := by
  have h₁ : ¬ "sub" ≤ "gen" := by decide
  have h₂ : ¬ "gen" ≤ "exp" := by decide
  have h₃ : "exp" ≤ "nonce" := by decide
  have h₄ : "gen" ≤ "nonce" := by decide
  have h₅ : ¬ "sub" ≤ "nonce" := by decide
  simp [sortByKey, sessionPayload, insertByKey, h₁, h₂, h₃, h₄, h₅]

/-- The payload of a token is read back. -/
lemma loads_sessionPayload {rt : TokenRuntime} (hrt : rt.ReadsBack) :
    rt.loads (encode (String.ofList ((PyVal.dict
      (sessionPayload subject generation expires nonce)).document.text rt.toPyRuntime))) =
      some (.dict [("exp", .int expires), ("gen", .int generation), ("nonce", .str nonce),
        ("sub", .str subject)]) := by
  rw [hrt.loads_dumps _ _ (by simp [sessionPayload]) (by simp [sessionPayload, isPlain])
    (canonicalJson?_sessionPayload rt.toPyRuntime), sortByKey_sessionPayload]

end Payload

/-! ### What is verified -/

@[simp] lemma orMalformed_eq_ok_iff {α : Type} {value : Option α} {a : α} :
    orMalformed value = .ok a ↔ value = some a := by
  cases value <;> simp [orMalformed]

/-- `verify` accepts a token by its two parts: the payload that the first one spells, and the
keyed hash of the first one that the second one spells. -/
theorem verify_eq_ok_iff {rt : TokenRuntime} {codec : SessionCodec} {token : String}
    {generation now : ℤ} {claims : SessionClaims} :
    codec.verify rt token generation now = .ok claims ↔
      '.' ∈ token.toList ∧ afterFirst '.' token = codec.keyed rt (beforeFirst '.' token) ∧
        ∃ payload data, (beforeFirst '.' token).toList = b64encode payload ∧
          rt.loads payload = some data ∧ codec.readClaims rt data generation now = .ok claims := by
  constructor
  · intro h
    unfold SessionCodec.verify at h
    split_ifs at h with hdot
    obtain ⟨message, hmessage, h⟩ := ok_of_bind h
    obtain ⟨signature, hsignature, h⟩ := ok_of_bind h
    obtain ⟨-, rfl⟩ := encodeAscii_eq_some_iff.mp (orMalformed_eq_ok_iff.mp hmessage)
    have hsupplied := (b64decode_eq_some_iff _ _).mp (orMalformed_eq_ok_iff.mp hsignature)
    split_ifs at h with hkeyed
    obtain ⟨payload, hpayload, h⟩ := ok_of_bind h
    obtain ⟨data, hdata, h⟩ := ok_of_bind h
    have hfirst := (b64decode_eq_some_iff _ _).mp (orMalformed_eq_ok_iff.mp hpayload)
    refine ⟨hdot, ?_, payload, data, hfirst, orMalformed_eq_ok_iff.mp hdata, h⟩
    rw [SessionCodec.keyed, not_not.mp hkeyed, ← hsupplied, String.ofList_toList]
  · rintro ⟨hdot, hsignature, payload, data, hpayload, hdata, hclaims⟩
    have hascii := encodeAscii_of_payload hpayload
    have hsupplied := b64decode_keyed rt codec (beforeFirst '.' token)
    rw [← hsignature] at hsupplied
    have hfirst := (b64decode_eq_some_iff _ _).mpr hpayload
    unfold SessionCodec.verify
    rw [if_neg (not_not.mpr hdot)]
    simp only [hascii, hsupplied, hfirst, hdata, orMalformed, bind_ok, ne_eq, not_true_eq_false,
      if_false, hclaims]

section Claims

variable {rt : TokenRuntime} {codec : SessionCodec} {data : PyVal} {generation now : ℤ}
  {claims : SessionClaims}

/-- The generation that the JSON value of a token names. -/
def claimedGeneration (rt : TokenRuntime) (data : PyVal) : Except VerifyError ℤ :=
  claim data "gen" >>= claimInt rt.toPyRuntime

lemma readClaims_generation (h : codec.readClaims rt data generation now = .ok claims) :
    claimedGeneration rt data = .ok generation := by
  unfold SessionCodec.readClaims at h
  obtain ⟨subject, -, h⟩ := ok_of_bind h
  obtain ⟨nonce, -, h⟩ := ok_of_bind h
  obtain ⟨value, hvalue, h⟩ := ok_of_bind h
  obtain ⟨tokenGeneration, hgeneration, h⟩ := ok_of_bind h
  obtain ⟨_, -, h⟩ := ok_of_bind h
  obtain ⟨_, -, h⟩ := ok_of_bind h
  split_ifs at h with hreject
  have hsame := not_not.mp (not_or.mp (not_or.mp hreject).2).1
  rw [claimedGeneration, hvalue, bind_ok, hgeneration, hsame]

/-- The claims in the payload of an issued token. -/
lemma readClaims_payload {subject nonce : String} {tokenGeneration expires : ℤ} :
    codec.readClaims rt (.dict [("exp", .int expires), ("gen", .int tokenGeneration),
        ("nonce", .str nonce), ("sub", .str subject)]) generation now = .ok claims ↔
      subject ≠ "" ∧ tokenGeneration = generation ∧ now < expires ∧
        claims = ⟨subject, generation, codec.csrf rt subject generation nonce, expires⟩ := by
  have hread : codec.readClaims rt (.dict [("exp", .int expires), ("gen", .int tokenGeneration),
        ("nonce", .str nonce), ("sub", .str subject)]) generation now =
      if subject = "" ∨ tokenGeneration ≠ generation ∨ expires ≤ now then
        .error (.rejected "claims")
      else .ok ⟨subject, tokenGeneration, codec.csrf rt subject tokenGeneration nonce, expires⟩ :=
    rfl
  rw [hread]
  split_ifs with hreject
  · refine iff_of_false (by simp) ?_
    rintro ⟨hsubject, hgeneration, hnow, -⟩
    rcases hreject with h | h | h
    · exact hsubject h
    · exact h hgeneration
    · omega
  · obtain ⟨hsubject, hreject⟩ := not_or.mp hreject
    obtain ⟨hgeneration, hnow⟩ := not_or.mp hreject
    obtain rfl := not_not.mp hgeneration
    simp [hsubject, Int.not_le.mp hnow, eq_comm]

end Claims

/-! ### The history of a key -/

/-- A call of `issue`. -/
structure IssueCall where
  codec : SessionCodec
  subject : String
  generation : ℤ
  now : ℤ
  nonce : String

section History

variable (rt : TokenRuntime)

/-- What the call returns. -/
def IssueCall.session (call : IssueCall) : IssuedSession :=
  call.codec.issue rt call.subject call.generation call.now call.nonce

/-- The first part of the token. -/
def IssueCall.encoded (call : IssueCall) : String :=
  encodedPayload rt.toPyRuntime call.subject call.generation (call.now + call.codec.ttlSeconds)
    call.nonce

/-- The messages whose keyed hashes the call computes: one for the token, one for its CSRF
token. -/
def IssueCall.keyedMessages (call : IssueCall) : List (List UInt8) :=
  [encode (call.encoded rt), encode (csrfText call.subject call.generation call.nonce)]

/-- The keyed hash of a token is not forged: where the second part of the token is the keyed hash
of its first part, it has been computed on that message and on no other one. -/
def Unforgeable (key : List UInt8) (computed : List (List UInt8)) (token : String) : Prop :=
  ∀ message signature, '.' ∈ token.toList → encodeAscii (beforeFirst '.' token) = some message →
    b64decode (afterFirst '.' token).toList = some signature →
      rt.hmacSha256 key message = signature →
        message ∈ computed ∧ ∀ other ∈ computed, rt.hmacSha256 key other = signature →
          other = message

variable {rt} {call : IssueCall} {codec : SessionCodec} {token : String} {generation now : ℤ}
  {claims : SessionClaims}

lemma dot_notMem_encoded : '.' ∉ (call.encoded rt).toList := by
  unfold IssueCall.encoded encodedPayload
  rw [String.toList_ofList]
  exact dot_notMem_b64encode _

lemma session_token :
    (call.session rt).token = call.encoded rt ++ "." ++ call.codec.keyed rt (call.encoded rt) :=
  rfl

lemma beforeFirst_session_token : beforeFirst '.' (call.session rt).token = call.encoded rt :=
  beforeFirst_append dot_notMem_encoded

lemma afterFirst_session_token :
    afterFirst '.' (call.session rt).token = call.codec.keyed rt (call.encoded rt) :=
  afterFirst_append dot_notMem_encoded

lemma keyed_congr {other : SessionCodec} (hkey : other.signingKey = codec.signingKey)
    (text : String) : other.keyed rt text = codec.keyed rt text := by
  rw [SessionCodec.keyed, SessionCodec.keyed, hkey]

/-- No text of a CSRF token is the first part of a token. -/
lemma csrfText_ne (bytes : List UInt8) (subject : String) (n : ℤ) (nonce : String) :
    (csrfText subject n nonce).toList ≠ b64encode bytes := by
  intro h
  have hcolon : ':' ∈ (csrfText subject n nonce).toList := by simp [csrfText]
  rw [h] at hcolon
  exact absurd (of_mem_urlsafeAlphabet (· != ':') (by decide) (mem_b64encode hcolon)) (by decide)

/-- An issued token is accepted with the claims it was issued for, and with no others. -/
lemma verify_session_token (hrt : rt.ReadsBack)
    (hkey : call.codec.signingKey = codec.signingKey) :
    codec.verify rt (call.session rt).token generation now = .ok claims ↔
      call.subject ≠ "" ∧ call.generation = generation ∧ now < (call.session rt).expiresAt ∧
        claims = ⟨call.subject, generation, (call.session rt).csrfToken,
          (call.session rt).expiresAt⟩ := by
  rw [verify_eq_ok_iff, beforeFirst_session_token, afterFirst_session_token]
  have hencoded : (call.encoded rt).toList = b64encode (encode (String.ofList ((PyVal.dict
      (sessionPayload call.subject call.generation (call.now + call.codec.ttlSeconds)
        call.nonce)).document.text rt.toPyRuntime))) := by
    rw [IssueCall.encoded, encodedPayload, String.toList_ofList]
  have hdot : '.' ∈ (call.session rt).token.toList := by simp [session_token]
  constructor
  · rintro ⟨-, -, payload, data, hpayload, hdata, hclaims⟩
    obtain rfl := b64encode_injective (hpayload.symm.trans hencoded)
    rw [loads_sessionPayload hrt] at hdata
    obtain rfl := Option.some.inj hdata
    obtain ⟨hsubject, rfl, hnow, rfl⟩ := readClaims_payload.mp hclaims
    exact ⟨hsubject, rfl, hnow, congrArg (SessionClaims.mk call.subject call.generation · _)
      (keyed_congr hkey _).symm⟩
  · rintro ⟨hsubject, rfl, hnow, rfl⟩
    refine ⟨hdot, keyed_congr hkey _, _, _, hencoded, loads_sessionPayload hrt, ?_⟩
    exact readClaims_payload.mpr ⟨hsubject, rfl, hnow,
      congrArg (SessionClaims.mk call.subject call.generation · _) (keyed_congr hkey _)⟩

section Accepted

variable {calls : List IssueCall}

/-- What `verify` accepts of a token in terms of the keyed hash. -/
lemma hmac_of_verify (h : codec.verify rt token generation now = .ok claims) :
    '.' ∈ token.toList ∧ encodeAscii (beforeFirst '.' token) =
        some (encode (beforeFirst '.' token)) ∧
      b64decode (afterFirst '.' token).toList =
        some (rt.hmacSha256 codec.signingKey (encode (beforeFirst '.' token))) := by
  obtain ⟨hdot, hsecond, payload, data, hpayload, -, -⟩ := verify_eq_ok_iff.mp h
  exact ⟨hdot, encodeAscii_of_payload hpayload, hsecond ▸ b64decode_keyed rt codec _⟩

/-- The first part of an accepted token is no text of a CSRF token. -/
lemma beforeFirst_ne_csrfText (h : codec.verify rt token generation now = .ok claims)
    (subject : String) (n : ℤ) (nonce : String) :
    beforeFirst '.' token ≠ csrfText subject n nonce := by
  obtain ⟨-, -, payload, -, hpayload, -, -⟩ := verify_eq_ok_iff.mp h
  exact fun heq => csrfText_ne payload subject n nonce (heq ▸ hpayload)

/-- An accepted token whose hash is not forged is one that has been issued. -/
lemma exists_call_of_verify (hkey : ∀ call ∈ calls, call.codec.signingKey = codec.signingKey)
    (hforge : Unforgeable rt codec.signingKey (calls.flatMap (·.keyedMessages rt)) token)
    (h : codec.verify rt token generation now = .ok claims) :
    ∃ call ∈ calls, token = (call.session rt).token := by
  obtain ⟨hdot, hfirst, hsecond⟩ := hmac_of_verify h
  obtain ⟨call, hcall, hmessage⟩ :=
    List.mem_flatMap.mp (hforge _ _ hdot hfirst hsecond rfl).1
  have hencoded : beforeFirst '.' token = call.encoded rt := by
    rcases List.mem_pair.mp hmessage with heq | heq
    · exact encode_injective heq
    · exact absurd (encode_injective heq) (beforeFirst_ne_csrfText h _ _ _)
  refine ⟨call, hcall, ?_⟩
  have hkeyed := (verify_eq_ok_iff.mp h).2.1
  rw [parts_append hdot, hkeyed, hencoded, session_token, keyed_congr (hkey call hcall)]

/-- `verify` accepts what has been issued for the generation and has not expired, and returns the
claims that it has been issued with. -/
theorem verify_iff_issued (hrt : rt.ReadsBack)
    (hkey : ∀ call ∈ calls, call.codec.signingKey = codec.signingKey)
    (hforge : Unforgeable rt codec.signingKey (calls.flatMap (·.keyedMessages rt)) token) :
    codec.verify rt token generation now = .ok claims ↔
      ∃ call ∈ calls, call.subject ≠ "" ∧ call.generation = generation ∧
        now < (call.session rt).expiresAt ∧ token = (call.session rt).token ∧
          claims = ⟨call.subject, generation, (call.session rt).csrfToken,
            (call.session rt).expiresAt⟩ := by
  constructor
  · intro h
    obtain ⟨call, hcall, rfl⟩ := exists_call_of_verify hkey hforge h
    obtain ⟨hsubject, hgeneration, hnow, hclaims⟩ :=
      (verify_session_token hrt (hkey call hcall)).mp h
    exact ⟨call, hcall, hsubject, hgeneration, hnow, rfl, hclaims⟩
  · rintro ⟨call, hcall, hsubject, hgeneration, hnow, rfl, hclaims⟩
    exact (verify_session_token hrt (hkey call hcall)).mpr ⟨hsubject, hgeneration, hnow, hclaims⟩

/-- A keyed value in an accepted token is the one that `issue` has computed for this token. -/
theorem signature_of_verify {message : List UInt8}
    (hforge : Unforgeable rt codec.signingKey (calls.flatMap (·.keyedMessages rt)) token)
    (hmessage : message ∈ calls.flatMap (·.keyedMessages rt))
    (hsigned : afterFirst '.' token =
      String.ofList (b64encode (rt.hmacSha256 codec.signingKey message)))
    (h : codec.verify rt token generation now = .ok claims) :
    message = encode (beforeFirst '.' token) := by
  obtain ⟨hdot, hfirst, hsecond⟩ := hmac_of_verify h
  have hsame : b64decode (afterFirst '.' token).toList =
      some (rt.hmacSha256 codec.signingKey message) := by
    rw [b64decode_eq_some_iff, hsigned, String.toList_ofList]
  exact (hforge _ _ hdot hfirst hsecond rfl).2 message hmessage
    (Option.some.inj (hsame.symm.trans hsecond))

/-- No CSRF token signs a session. -/
theorem csrfToken_ne_signature
    (hkey : ∀ call ∈ calls, call.codec.signingKey = codec.signingKey)
    (hforge : Unforgeable rt codec.signingKey (calls.flatMap (·.keyedMessages rt)) token)
    (hcall : call ∈ calls) (h : codec.verify rt token generation now = .ok claims) :
    afterFirst '.' token ≠ (call.session rt).csrfToken := by
  intro hcsrf
  have hmessage : encode (csrfText call.subject call.generation call.nonce) ∈
      calls.flatMap (·.keyedMessages rt) :=
    List.mem_flatMap.mpr ⟨call, hcall, by simp [IssueCall.keyedMessages]⟩
  have hsigned : afterFirst '.' token = codec.keyed rt
      (csrfText call.subject call.generation call.nonce) :=
    hcsrf.trans (keyed_congr (hkey call hcall) _)
  have heq := signature_of_verify hforge hmessage hsigned h
  exact beforeFirst_ne_csrfText h _ _ _ (encode_injective heq).symm

/-- The bytes that the two parts of a token spell. -/
def spelled (token : String) : Option (List UInt8) × Option (List UInt8) :=
  (b64decode (beforeFirst '.' token).toList, b64decode (afterFirst '.' token).toList)

/-- Two accepted tokens that spell the same bytes are the same. -/
theorem token_of_spelled {token' : String} {generation' now' : ℤ} {claims' : SessionClaims}
    (h : codec.verify rt token generation now = .ok claims)
    (h' : codec.verify rt token' generation' now' = .ok claims')
    (hsame : spelled token = spelled token') : token = token' := by
  obtain ⟨hdot, hsecond, payload, -, hpayload, -, -⟩ := verify_eq_ok_iff.mp h
  obtain ⟨hdot', hsecond', payload', -, hpayload', -, -⟩ := verify_eq_ok_iff.mp h'
  obtain rfl : payload = payload' := by
    have hfirst := congrArg Prod.fst hsame
    simp only [spelled, (b64decode_eq_some_iff _ _).mpr hpayload,
      (b64decode_eq_some_iff _ _).mpr hpayload'] at hfirst
    exact Option.some.inj hfirst
  have hfirst : beforeFirst '.' token = beforeFirst '.' token' :=
    String.toList_inj.mp (hpayload.trans hpayload'.symm)
  rw [parts_append hdot, parts_append hdot', hsecond, hsecond', hfirst]

end Accepted

end History

end Trion.Security
