import Clavier.Midi.Text

/-!
# Texts in MIDI files

A character is read back from the bytes of its encoding, whatever bytes follow
(`decodeFrom_encodeChar`), so decoding undoes encoding (`decode_encode`). Every byte is carried by
a character of its own (`bytesOfChars?_charsOfBytes`), so a text is what its row of characters
carries (`fromMidiText_toMidiText`).
-/

set_option autoImplicit false

namespace Clavier

namespace Utf8

/-! ## Reading a character back -/

theorem toNat_ofNat_of_lt {code : Nat} (small : code < 256) : (UInt8.ofNat code).toNat = code := by
  rw [UInt8.toNat_ofNat', Nat.mod_eq_of_lt small]

section Continuation

variable {pending : Pending} {digit : Nat} (small : digit < 64)
variable (bounds : pending.low.toNat ≤ 0x80 + digit ∧ 0x80 + digit ≤ pending.high.toNat)
include small bounds

theorem decodeFrom_continuation (offset : Nat) (rest : Bytes) :
    decodeFrom offset (some pending) (.ofNat (0x80 + digit) :: rest) =
      match pending.further with
      | 0 =>
          (decodeFrom (offset + pending.seen.length + 1) none rest).map
            (.ofNat (64 * pending.value + digit) :: ·)
      | further + 1 =>
          decodeFrom offset (some ⟨pending.seen ++ [.ofNat (0x80 + digit)],
            64 * pending.value + digit, further, 0x80, 0xbf⟩) rest := by
  have byte : (UInt8.ofNat (0x80 + digit)).toNat = 0x80 + digit := toNat_ofNat_of_lt (by omega)
  have inside : pending.low ≤ UInt8.ofNat (0x80 + digit) ∧
      UInt8.ofNat (0x80 + digit) ≤ pending.high := by
    simpa only [UInt8.le_iff_toNat_le, byte] using bounds
  rewrite [decodeFrom, if_pos inside, byte, Nat.add_sub_cancel_left]
  rfl

/-- A continuation byte within the bounds of a character that needs one more. -/
theorem decodeFrom_last
    (last : pending.further = 0) (offset : Nat) (rest : Bytes) :
    decodeFrom offset (some pending) (.ofNat (0x80 + digit) :: rest) =
      (decodeFrom (offset + pending.seen.length + 1) none rest).map
        (.ofNat (64 * pending.value + digit) :: ·) := by
  rw [decodeFrom_continuation small bounds, last]

/-- A continuation byte within the bounds of a character that needs more than one. -/
theorem decodeFrom_next {further : Nat}
    (more : pending.further = further + 1) (offset : Nat) (rest : Bytes) :
    decodeFrom offset (some pending) (.ofNat (0x80 + digit) :: rest) =
      decodeFrom offset (some ⟨pending.seen ++ [.ofNat (0x80 + digit)],
        64 * pending.value + digit, further, 0x80, 0xbf⟩) rest := by
  rw [decodeFrom_continuation small bounds, more]

end Continuation

theorem decodeFrom_whole {offset : Nat} {b : UInt8} {c : Char} (whole : lead b = .whole c)
    (rest : Bytes) :
    decodeFrom offset none (b :: rest) = (decodeFrom (offset + 1) none rest).map (c :: ·) := by
  rw [decodeFrom, whole]

theorem decodeFrom_begun {offset : Nat} {b : UInt8} {pending : Pending}
    (begun : lead b = .begun pending) (rest : Bytes) :
    decodeFrom offset none (b :: rest) = decodeFrom offset (some pending) rest := by
  rw [decodeFrom, begun]

/-! What the first byte of a character of two, three and four bytes announces. -/

theorem lead_two {high : Nat} (least : 2 ≤ high) (most : high < 32) :
    lead (.ofNat (0xc0 + high)) = .begun ⟨[.ofNat (0xc0 + high)], high, 0, 0x80, 0xbf⟩ := by
  have byte : (UInt8.ofNat (0xc0 + high)).toNat = 0xc0 + high := toNat_ofNat_of_lt (by omega)
  simp only [lead, byte]
  grind

theorem lead_three {high : Nat} (most : high < 16) :
    lead (.ofNat (0xe0 + high)) = .begun ⟨[.ofNat (0xe0 + high)], high, 1,
      if high = 0 then 0xa0 else 0x80, if high = 13 then 0x9f else 0xbf⟩ := by
  have byte : (UInt8.ofNat (0xe0 + high)).toNat = 0xe0 + high := toNat_ofNat_of_lt (by omega)
  simp only [lead, byte]
  grind

theorem lead_four {high : Nat} (most : high < 5) :
    lead (.ofNat (0xf0 + high)) = .begun ⟨[.ofNat (0xf0 + high)], high, 2,
      if high = 0 then 0x90 else 0x80, if high = 4 then 0x8f else 0xbf⟩ := by
  have byte : (UInt8.ofNat (0xf0 + high)).toNat = 0xf0 + high := toNat_ofNat_of_lt (by omega)
  simp only [lead, byte]
  grind

/-- The code point of a character is no surrogate and not above the last one. -/
theorem code_bounds (c : Char) : c.toNat < 0xd800 ∨ 0xdfff < c.toNat ∧ c.toNat < 0x110000 :=
  c.valid

/-- **A character is read back** from the bytes of its encoding, whatever follows them. The four
cases are the four lengths of an encoding. -/
theorem decodeFrom_encodeChar (c : Char) (offset : Nat) (rest : Bytes) :
    decodeFrom offset none (encodeChar c ++ rest) =
      (decodeFrom (offset + (encodeChar c).length) none rest).map (c :: ·) := by
  have bounds := code_bounds c
  have whole : Char.ofNat c.toNat = c := Char.ofNat_toNat c
  unfold encodeChar
  generalize c.toNat = code at bounds whole
  dsimp only
  have digit (n : Nat) : n % 64 < 64 := Nat.mod_lt n (by decide)
  have next (n : Nat) : (0x80 : UInt8).toNat ≤ 0x80 + n % 64 ∧
      0x80 + n % 64 ≤ (0xbf : UInt8).toNat := by
    have small := digit n
    simp only [UInt8.reduceToNat]
    omega
  split
  · have first : lead (.ofNat code) = .whole c := by
      rw [lead, toNat_ofNat_of_lt (by omega)]
      simp only [*, if_true]
    exact decodeFrom_whole first rest
  split
  · have value : 64 * (code / 64) + code % 64 = code := by omega
    rw [List.cons_append, List.cons_append, List.nil_append,
      decodeFrom_begun (lead_two (by omega) (by omega)), decodeFrom_last (digit _) (next _) rfl]
    simp only [value, whole]
    rfl
  split
  · have value : 64 * (64 * (code / 4096) + code / 64 % 64) + code % 64 = code := by omega
    have low : (if code / 4096 = 0 then 0xa0 else 0x80 : UInt8).toNat ≤ 0x80 + code / 64 % 64 := by
      split <;> simp only [UInt8.reduceToNat] <;> omega
    have high : 0x80 + code / 64 % 64 ≤
        (if code / 4096 = 13 then 0x9f else 0xbf : UInt8).toNat := by
      split <;> simp only [UInt8.reduceToNat] <;> omega
    rw [List.cons_append, List.cons_append, List.cons_append, List.nil_append,
      decodeFrom_begun (lead_three (by omega)), decodeFrom_next (digit _) ⟨low, high⟩ rfl,
      decodeFrom_last (digit _) (next _) rfl]
    simp only [value, whole]
    rfl
  · have value : 64 * (64 * (64 * (code / 262144) + code / 4096 % 64) + code / 64 % 64) +
        code % 64 = code := by omega
    have low : (if code / 262144 = 0 then 0x90 else 0x80 : UInt8).toNat ≤
        0x80 + code / 4096 % 64 := by
      split <;> simp only [UInt8.reduceToNat] <;> omega
    have high : 0x80 + code / 4096 % 64 ≤
        (if code / 262144 = 4 then 0x8f else 0xbf : UInt8).toNat := by
      split <;> simp only [UInt8.reduceToNat] <;> omega
    rw [List.cons_append, List.cons_append, List.cons_append, List.cons_append, List.nil_append,
      decodeFrom_begun (lead_four (by omega)), decodeFrom_next (digit _) ⟨low, high⟩ rfl,
      decodeFrom_next (digit _) (next _) rfl, decodeFrom_last (digit _) (next _) rfl]
    simp only [value, whole]
    rfl

theorem decodeFrom_encode (text : Text) (offset : Nat) :
    decodeFrom offset none (encode text) = .ok text := by
  induction text generalizing offset with
  | nil => rfl
  | cons c rest ih =>
      have split : encode (c :: rest) = encodeChar c ++ encode rest := rfl
      rw [split, decodeFrom_encodeChar, ih]
      rfl

/-- **Decoding undoes encoding.** -/
theorem decode_encode (text : Text) : decode (encode text) = .ok text := decodeFrom_encode text 0

end Utf8

/-! ## Rows of characters -/

/-- The code point of the character with a code point. -/
theorem toNat_charOfNat {code : Nat} (valid : code.isValidChar) :
    (Char.ofNat code).toNat = code := by
  rw [Char.ofNat, dif_pos valid]
  rfl

/-- A byte is the code point of the character that stands for it. -/
theorem toNat_charOfByte (b : UInt8) : (Char.ofNat b.toNat).toNat = b.toNat :=
  toNat_charOfNat (.inl (Nat.lt_trans b.toNat_lt (by decide)))

theorem bytesOfChars?_charsOfBytes (bytes : Bytes) :
    bytesOfChars? (charsOfBytes bytes) = some bytes := by
  induction bytes with
  | nil => rfl
  | cons b rest ih =>
      have small : b.toNat < 256 := b.toNat_lt
      have code : (Char.ofNat b.toNat).toNat = b.toNat := toNat_charOfByte b
      have step : bytesOfChars? (charsOfBytes (b :: rest)) =
          (bytesOfChars? (charsOfBytes rest)).map (b :: ·) := by
        simp only [charsOfBytes, List.map_cons, bytesOfChars?, List.mapM_cons, code, small, if_true,
          UInt8.ofNat_toNat, bind, Option.bind_some, pure, Option.map_eq_bind, Function.comp_def]
      rw [step, ih]
      rfl

/-- **Carrying a text.** Whatever the text, its row of characters carries it. -/
theorem fromMidiText_toMidiText (text : Text) : fromMidiText (toMidiText text) = text := by
  rw [fromMidiText, toMidiText, bytesOfChars?_charsOfBytes]
  simp only [Utf8.decode_encode]

end Clavier
