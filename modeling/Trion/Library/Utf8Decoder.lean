import Mathlib.Data.Char
import Trion.Library.Streaming

/-!
# The UTF-8 decoder of the web

The decoder behind `TextDecoder`: a state machine over bytes that gives U+FFFD for what is not
UTF-8 and drops a byte order mark at the beginning.  It reads the encoding of a text back, wherever
the bytes are cut.
-/

namespace Utf8

open Streaming

/-- The replacement character. -/
def replacement : Char := Char.ofNat 0xFFFD

/-- The byte order mark. -/
def bom : Char := Char.ofNat 0xFEFF

/-- A decoder in the middle of a character: the bits that are known, how many bytes are still to
come, and the bounds of the next one. -/
structure Decoder where
  codePoint : ℕ
  bytesNeeded : ℕ
  lowerBoundary : ℕ
  upperBoundary : ℕ
deriving DecidableEq, Repr

namespace Decoder

/-- The decoder between characters. -/
def start : Decoder := ⟨0, 0, 0x80, 0xBF⟩

/-- The first byte of a character. -/
def readFirst (byte : ℕ) : Decoder × List Char :=
  if byte ≤ 0x7F then (start, [Char.ofNat byte])
  else if 0xC2 ≤ byte ∧ byte ≤ 0xDF then (⟨byte % 0x20, 1, 0x80, 0xBF⟩, [])
  else if 0xE0 ≤ byte ∧ byte ≤ 0xEF then
    (⟨byte % 0x10, 2, if byte = 0xE0 then 0xA0 else 0x80, if byte = 0xED then 0x9F else 0xBF⟩, [])
  else if 0xF0 ≤ byte ∧ byte ≤ 0xF4 then
    (⟨byte % 0x8, 3, if byte = 0xF0 then 0x90 else 0x80, if byte = 0xF4 then 0x8F else 0xBF⟩, [])
  else (start, [replacement])

/-- A byte.  One that cannot go on with the character ends it and is read as a first byte. -/
def read (d : Decoder) (byte : UInt8) : Decoder × List Char :=
  if d.bytesNeeded = 0 then readFirst byte.toNat
  else if byte.toNat < d.lowerBoundary ∨ d.upperBoundary < byte.toNat then
    ((readFirst byte.toNat).1, replacement :: (readFirst byte.toNat).2)
  else
    let codePoint := d.codePoint * 0x40 + byte.toNat % 0x40
    if d.bytesNeeded = 1 then (start, [Char.ofNat codePoint])
    else (⟨codePoint, d.bytesNeeded - 1, 0x80, 0xBF⟩, [])

lemma read_start (byte : UInt8) : read start byte = readFirst byte.toNat := rfl

/-- A byte that may follow the first one of a character. -/
def IsTail (byte : UInt8) : Prop := 0x80 ≤ byte.toNat ∧ byte.toNat ≤ 0xBF

/-- A byte in the bounds, when more are to come. -/
lemma read_next {codePoint more lower upper : ℕ} {byte : UInt8} (hlower : lower ≤ byte.toNat)
    (hupper : byte.toNat ≤ upper) :
    read ⟨codePoint, more + 2, lower, upper⟩ byte =
      (⟨codePoint * 0x40 + byte.toNat % 0x40, more + 1, 0x80, 0xBF⟩, []) := by
  have hin : ¬(byte.toNat < lower ∨ upper < byte.toNat) := by omega
  simp [read, hin]

/-- A byte in the bounds, when it is the last. -/
lemma read_last {codePoint lower upper : ℕ} {byte : UInt8} (hlower : lower ≤ byte.toNat)
    (hupper : byte.toNat ≤ upper) :
    read ⟨codePoint, 1, lower, upper⟩ byte =
      (start, [Char.ofNat (codePoint * 0x40 + byte.toNat % 0x40)]) := by
  have hin : ¬(byte.toNat < lower ∨ upper < byte.toNat) := by omega
  simp [read, hin]

/-- Two bytes. -/
lemma feed_two {b b₁ : UInt8} (hfirst : 0xC2 ≤ b.toNat ∧ b.toNat ≤ 0xDF) (h₁ : IsTail b₁) :
    feed read start [b, b₁] =
      (start, [Char.ofNat (b.toNat % 0x20 * 0x40 + b₁.toNat % 0x40)]) := by
  have hread : readFirst b.toNat = (⟨b.toNat % 0x20, 1, 0x80, 0xBF⟩, []) := by
    rw [readFirst, if_neg (by omega), if_pos hfirst]
  rw [feed_cons, read_start, hread, feed_cons, read_last h₁.1 h₁.2, feed_nil]
  rfl

/-- Three bytes.  The bounds of the second leave out what has a shorter encoding and the
surrogates. -/
lemma feed_three {b b₁ b₂ : UInt8} (hfirst : 0xE0 ≤ b.toNat ∧ b.toNat ≤ 0xEF) (h₁ : IsTail b₁)
    (hshort : b.toNat = 0xE0 → 0xA0 ≤ b₁.toNat) (hlong : b.toNat = 0xED → b₁.toNat ≤ 0x9F)
    (h₂ : IsTail b₂) :
    feed read start [b, b₁, b₂] =
      (start, [Char.ofNat ((b.toNat % 0x10 * 0x40 + b₁.toNat % 0x40) * 0x40 +
        b₂.toNat % 0x40)]) := by
  have hread : readFirst b.toNat = (⟨b.toNat % 0x10, 2, if b.toNat = 0xE0 then 0xA0 else 0x80,
      if b.toNat = 0xED then 0x9F else 0xBF⟩, []) := by
    rw [readFirst, if_neg (by omega), if_neg (by omega), if_pos hfirst]
  have hlower : (if b.toNat = 0xE0 then 0xA0 else 0x80) ≤ b₁.toNat := by
    split_ifs with h
    exacts [hshort h, h₁.1]
  have hupper : b₁.toNat ≤ if b.toNat = 0xED then 0x9F else 0xBF := by
    split_ifs with h
    exacts [hlong h, h₁.2]
  rw [feed_cons, read_start, hread, feed_cons, read_next hlower hupper, feed_cons,
    read_last h₂.1 h₂.2, feed_nil]
  rfl

/-- Four bytes.  The bounds of the second leave out what has a shorter encoding and what is beyond
the last code point. -/
lemma feed_four {b b₁ b₂ b₃ : UInt8} (hfirst : 0xF0 ≤ b.toNat ∧ b.toNat ≤ 0xF4) (h₁ : IsTail b₁)
    (hshort : b.toNat = 0xF0 → 0x90 ≤ b₁.toNat) (hlong : b.toNat = 0xF4 → b₁.toNat ≤ 0x8F)
    (h₂ : IsTail b₂) (h₃ : IsTail b₃) :
    feed read start [b, b₁, b₂, b₃] =
      (start, [Char.ofNat (((b.toNat % 0x8 * 0x40 + b₁.toNat % 0x40) * 0x40 +
        b₂.toNat % 0x40) * 0x40 + b₃.toNat % 0x40)]) := by
  have hread : readFirst b.toNat = (⟨b.toNat % 0x8, 3, if b.toNat = 0xF0 then 0x90 else 0x80,
      if b.toNat = 0xF4 then 0x8F else 0xBF⟩, []) := by
    rw [readFirst, if_neg (by omega), if_neg (by omega), if_neg (by omega), if_pos hfirst]
  have hlower : (if b.toNat = 0xF0 then 0x90 else 0x80) ≤ b₁.toNat := by
    split_ifs with h
    exacts [hshort h, h₁.1]
  have hupper : b₁.toNat ≤ if b.toNat = 0xF4 then 0x8F else 0xBF := by
    split_ifs with h
    exacts [hlong h, h₁.2]
  rw [feed_cons, read_start, hread, feed_cons, read_next hlower hupper, feed_cons,
    read_next h₂.1 h₂.2, feed_cons, read_last h₃.1 h₃.2, feed_nil]
  rfl

lemma toNat_ofNat {n : ℕ} (h : n < 256) : (UInt8.ofNat n).toNat = n := by
  rw [UInt8.toNat_ofNat', Nat.mod_eq_of_lt h]

lemma toNat_tail (n : ℕ) : (UInt8.ofNat (n % 0x40 + 0x80)).toNat = n % 0x40 + 0x80 :=
  toNat_ofNat (by omega)

lemma isTail_tail (n : ℕ) : IsTail (UInt8.ofNat (n % 0x40 + 0x80)) := by
  rw [IsTail, toNat_tail]
  omega

/-- The encoding of a character is read back. -/
lemma feed_encodeChar (c : Char) : feed read start (String.utf8EncodeChar c) = (start, [c]) := by
  have hvalid : c.val.toNat < 0xD800 ∨ 0xDFFF < c.val.toNat ∧ c.val.toNat < 0x110000 := c.valid
  have hofNat : Char.ofNat c.val.toNat = c := Char.ofNat_toNat c
  unfold String.utf8EncodeChar
  dsimp only
  generalize c.val.toNat = v at hvalid hofNat ⊢
  split_ifs with hone htwo hthree
  · have hfirst : (UInt8.ofNat v).toNat = v := toNat_ofNat (by omega)
    rw [feed_cons, read_start, hfirst, readFirst, if_pos hone, hofNat]
    rfl
  · have hfirst : (UInt8.ofNat (v / 64 % 0x20 + 0xc0)).toNat = v / 64 % 0x20 + 0xc0 :=
      toNat_ofNat (by omega)
    rw [feed_two (by rw [hfirst]; omega) (isTail_tail _), hfirst, toNat_tail]
    have hvalue : (v / 64 % 0x20 + 0xc0) % 0x20 * 0x40 + (v % 0x40 + 0x80) % 0x40 = v := by omega
    rw [hvalue, hofNat]
  · have hfirst : (UInt8.ofNat (v / 4096 % 0x10 + 0xe0)).toNat = v / 4096 % 0x10 + 0xe0 :=
      toNat_ofNat (by omega)
    rw [feed_three (by rw [hfirst]; omega) (isTail_tail _) (by rw [hfirst, toNat_tail]; omega)
      (by rw [hfirst, toNat_tail]; omega) (isTail_tail _), hfirst, toNat_tail, toNat_tail]
    have hvalue : ((v / 4096 % 0x10 + 0xe0) % 0x10 * 0x40 + (v / 64 % 0x40 + 0x80) % 0x40) * 0x40 +
        (v % 0x40 + 0x80) % 0x40 = v := by omega
    rw [hvalue, hofNat]
  · have hfirst : (UInt8.ofNat (v / 262144 % 0x08 + 0xf0)).toNat = v / 262144 % 0x08 + 0xf0 :=
      toNat_ofNat (by omega)
    rw [feed_four (by rw [hfirst]; omega) (isTail_tail _) (by rw [hfirst, toNat_tail]; omega)
      (by rw [hfirst, toNat_tail]; omega) (isTail_tail _) (isTail_tail _), hfirst, toNat_tail,
      toNat_tail, toNat_tail]
    have hvalue : (((v / 262144 % 0x08 + 0xf0) % 0x8 * 0x40 +
        (v / 4096 % 0x40 + 0x80) % 0x40) * 0x40 + (v / 64 % 0x40 + 0x80) % 0x40) * 0x40 +
        (v % 0x40 + 0x80) % 0x40 = v := by omega
    rw [hvalue, hofNat]

/-- The bytes of a text are read back. -/
lemma feed_encode (text : List Char) :
    feed read start (text.flatMap String.utf8EncodeChar) = (start, text) :=
  feed_flatMap feed_encodeChar text

end Decoder

/-! ### The byte order mark -/

/-- The first character is dropped when it is the byte order mark. -/
def readMark (seen : Bool) (c : Char) : Bool × List Char :=
  (true, if seen = false ∧ c = bom then [] else [c])

/-- A text without a byte order mark at its beginning. -/
def withoutMark : List Char → List Char
  | [] => []
  | c :: cs => if c = bom then cs else c :: cs

lemma mem_of_mem_withoutMark {c : Char} {text : List Char} (h : c ∈ withoutMark text) :
    c ∈ text := by
  cases text with
  | nil => exact h
  | cons first cs =>
    rw [withoutMark] at h
    split at h
    · exact List.mem_cons_of_mem _ h
    · exact h

lemma feed_readMark_true (text : List Char) : feed readMark true text = (true, text) := by
  induction text with
  | nil => rfl
  | cons c cs ih => rw [feed_cons, readMark, ih, if_neg (by simp), List.singleton_append]

lemma feed_readMark (text : List Char) : (feed readMark false text).2 = withoutMark text := by
  cases text with
  | nil => rfl
  | cons c cs =>
    rw [feed_cons, readMark, feed_readMark_true, withoutMark]
    by_cases h : c = bom <;> simp [h]

/-! ### The decoder with both -/

/-- The state of a `TextDecoder` whose input is not at its end. -/
structure TextDecoder where
  decoder : Decoder
  markSeen : Bool
deriving DecidableEq, Repr

namespace TextDecoder

/-- A new decoder. -/
def start : TextDecoder := ⟨.start, false⟩

/-- `decode(value, { stream: true })`. -/
def decode (d : TextDecoder) (value : List UInt8) : TextDecoder × List Char :=
  let chars := feed Decoder.read d.decoder value
  let text := feed readMark d.markSeen chars.2
  (⟨chars.1, text.1⟩, text.2)

@[simp] lemma decode_nil (d : TextDecoder) : decode d [] = (d, []) := rfl

/-- Where the bytes are cut does not matter. -/
lemma decode_append (d : TextDecoder) (value value' : List UInt8) :
    decode d (value ++ value') =
      ((decode (decode d value).1 value').1,
        (decode d value).2 ++ (decode (decode d value).1 value').2) := by
  simp only [decode, feed_append]

/-- The bytes of a text give the text. -/
lemma decode_start_encode (text : List Char) :
    (decode start (text.flatMap String.utf8EncodeChar)).2 = withoutMark text := by
  dsimp only [decode, start]
  rw [Decoder.feed_encode, feed_readMark]

end TextDecoder

end Utf8
