import Clavier.Proofs.MidiTexts
import Mathlib.Data.List.Forall2

/-!
# Strict decoding

The byte sequences of characters are given by a table: for each range of first bytes, the ranges
of the bytes that follow (`sequenceBounds`). The table has no row for overlong forms, for
surrogates or for code points above U+10FFFF. A byte sequence is well formed if it can be cut into
sequences of the table (`WellFormed`).

What decoding accepts is well formed (`wellFormed_of_decode`), and what is well formed is the
encoding of a text (`exists_encode_of_wellFormed`). So decoding accepts exactly the well-formed
byte sequences, and what it accepts encodes the text that it returns (`decode_eq_ok_iff`). A row of
characters in a MIDI file and the text that it carries are then known from each other, and a row
that carries no text stands for itself (`midiTexts_correspond`).
-/

set_option autoImplicit false

namespace Clavier

namespace Utf8

/-! ## Well-formed byte sequences -/

/-- The least and the greatest value of a byte. -/
abbrev Bounds := Nat × Nat

/-- A byte that lies within bounds. -/
def Within (b : UInt8) (bounds : Bounds) : Prop := bounds.1 ≤ b.toNat ∧ b.toNat ≤ bounds.2

theorem within_iff {b : UInt8} {low high : Nat} :
    Within b (low, high) ↔ low ≤ b.toNat ∧ b.toNat ≤ high := Iff.rfl

/-- The bounds of a byte that continues a character. -/
def continuation : Bounds := (0x80, 0xbf)

/-- The bounds of the bytes of a character, one row for each kind of first byte. -/
def sequenceBounds : List (List Bounds) :=
  [ [(0x00, 0x7f)],
    [(0xc2, 0xdf), continuation],
    [(0xe0, 0xe0), (0xa0, 0xbf), continuation],
    [(0xe1, 0xec), continuation, continuation],
    [(0xed, 0xed), (0x80, 0x9f), continuation],
    [(0xee, 0xef), continuation, continuation],
    [(0xf0, 0xf0), (0x90, 0xbf), continuation, continuation],
    [(0xf1, 0xf3), continuation, continuation, continuation],
    [(0xf4, 0xf4), (0x80, 0x8f), continuation, continuation] ]

/-- A byte sequence that can be cut into the sequences of characters. -/
inductive WellFormed : Bytes → Prop where
  | nil : WellFormed []
  | append {row : List Bounds} {character rest : Bytes} (listed : row ∈ sequenceBounds)
      (fits : List.Forall₂ Within character row) (more : WellFormed rest) :
      WellFormed (character ++ rest)

/-! ## What decoding accepts -/

/-- The bounds of the bytes that a character which has begun still needs. -/
def Pending.bounds (pending : Pending) : List Bounds :=
  (pending.low.toNat, pending.high.toNat) :: List.replicate pending.further continuation

/-- A first byte and the bytes that it calls for fit a row of the table. -/
theorem exists_first_of_begun {b : UInt8} {pending : Pending} (begun : lead b = .begun pending) :
    ∃ first, Within b first ∧ first :: pending.bounds ∈ sequenceBounds := by
  unfold lead at begun
  dsimp only at begun
  by_cases whole : b.toNat < 0x80
  · rw [if_pos whole] at begun
    cases begun
  rw [if_neg whole] at begun
  by_cases stray : b.toNat < 0xc2
  · rw [if_pos stray] at begun
    cases begun
  rw [if_neg stray] at begun
  by_cases two : b.toNat < 0xe0
  · rw [if_pos two] at begun
    cases begun
    exact ⟨(0xc2, 0xdf), within_iff.mpr (by omega), List.mem_of_getElem? (i := 1) rfl⟩
  rw [if_neg two] at begun
  by_cases least : b.toNat = 0xe0
  · rw [if_pos least] at begun
    cases begun
    exact ⟨(0xe0, 0xe0), within_iff.mpr (by omega), List.mem_of_getElem? (i := 2) rfl⟩
  rw [if_neg least] at begun
  by_cases surrogates : b.toNat = 0xed
  · rw [if_pos surrogates] at begun
    cases begun
    exact ⟨(0xed, 0xed), within_iff.mpr (by omega), List.mem_of_getElem? (i := 4) rfl⟩
  rw [if_neg surrogates] at begun
  by_cases three : b.toNat < 0xf0
  · rw [if_pos three] at begun
    cases begun
    -- 0xed has a row of its own, between the rows of these first bytes
    rcases Nat.lt_or_ge b.toNat 0xed with before | after
    · exact ⟨(0xe1, 0xec), within_iff.mpr (by omega), List.mem_of_getElem? (i := 3) rfl⟩
    · exact ⟨(0xee, 0xef), within_iff.mpr (by omega), List.mem_of_getElem? (i := 5) rfl⟩
  rw [if_neg three] at begun
  by_cases leastFour : b.toNat = 0xf0
  · rw [if_pos leastFour] at begun
    cases begun
    exact ⟨(0xf0, 0xf0), within_iff.mpr (by omega), List.mem_of_getElem? (i := 6) rfl⟩
  rw [if_neg leastFour] at begun
  by_cases four : b.toNat < 0xf4
  · rw [if_pos four] at begun
    cases begun
    exact ⟨(0xf1, 0xf3), within_iff.mpr (by omega), List.mem_of_getElem? (i := 7) rfl⟩
  rw [if_neg four] at begun
  by_cases last : b.toNat = 0xf4
  · rw [if_pos last] at begun
    cases begun
    exact ⟨(0xf4, 0xf4), within_iff.mpr (by omega), List.mem_of_getElem? (i := 8) rfl⟩
  rw [if_neg last] at begun
  cases begun

/-- A first byte that is a whole character fits the row of such bytes. -/
theorem within_of_whole {b : UInt8} {c : Char} (whole : lead b = .whole c) :
    Within b (0x00, 0x7f) := by
  rcases Nat.lt_or_ge b.toNat 0x80 with small | large
  · exact within_iff.mpr (by omega)
  · simp only [lead, if_neg (Nat.not_lt.mpr large)] at whole
    grind

theorem exists_ok_of_map {ε α β : Type} {result : Except ε α} {f : α → β} {value : β}
    (mapped : result.map f = .ok value) : ∃ before, result = .ok before := by
  cases result with
  | error problem => cases mapped
  | ok before => exact ⟨before, rfl⟩

/-- After a character has begun, decoding accepts only bytes that finish it, with an accepted
sequence after them. The induction is on the bytes; the bounds that are left shrink with them. -/
theorem exists_of_decodeFrom_some {bytes : Bytes} {text : Text} {offset : Nat} {pending : Pending}
    (decoded : decodeFrom offset (some pending) bytes = .ok text) :
    ∃ more rest, bytes = more ++ rest ∧ List.Forall₂ Within more pending.bounds ∧
      ∃ later result, decodeFrom later none rest = .ok result := by
  induction bytes generalizing pending with
  | nil =>
      rw [decodeFrom] at decoded
      cases decoded
  | cons b rest ih =>
      rw [decodeFrom] at decoded
      split at decoded
      · rename_i inside
        have fits : Within b (pending.low.toNat, pending.high.toNat) := by
          simpa only [Within, UInt8.le_iff_toNat_le] using inside
        dsimp only at decoded
        split at decoded
        · rename_i last
          rw [Pending.bounds, last]
          exact ⟨[b], rest, rfl, .cons fits .nil, _, exists_ok_of_map decoded⟩
        · rename_i further more
          obtain ⟨others, after, rfl, within, found⟩ := ih decoded
          rw [Pending.bounds, more, List.replicate_succ]
          exact ⟨b :: others, after, rfl, .cons fits within, found⟩
      · cases decoded

/-- Decoding accepts only well-formed byte sequences. The induction is on their length, because a
character takes several bytes away. -/
theorem wellFormed_of_decodeFrom {bytes : Bytes} {text : Text} {offset : Nat}
    (decoded : decodeFrom offset none bytes = .ok text) : WellFormed bytes := by
  induction length : bytes.length using Nat.strongRecOn generalizing bytes text offset with
  | ind n ih =>
      cases bytes with
      | nil => exact .nil
      | cons b rest =>
          rw [decodeFrom] at decoded
          split at decoded
          · rename_i c whole
            obtain ⟨result, accepted⟩ := exists_ok_of_map decoded
            exact .append (List.mem_of_getElem? (i := 0) rfl) (.cons (within_of_whole whole) .nil)
              (ih rest.length (length ▸ Nat.lt_succ_self _) accepted rfl)
          · rename_i pending begun
            obtain ⟨more, after, rfl, fits, later, result, accepted⟩ :=
              exists_of_decodeFrom_some decoded
            obtain ⟨first, within, listed⟩ := exists_first_of_begun begun
            have shorter : after.length < n := by
              rw [← length, List.length_cons, List.length_append]
              omega
            exact .append listed (.cons within fits) (ih after.length shorter accepted rfl)
          · cases decoded

theorem wellFormed_of_decode {bytes : Bytes} {text : Text} (decoded : decode bytes = .ok text) :
    WellFormed bytes :=
  wellFormed_of_decodeFrom decoded

/-! ## What is well formed -/

/-- The bytes of the character with a code point. -/
theorem encodeChar_ofNat {code : Nat} (valid : code.isValidChar) :
    encodeChar (.ofNat code) =
      if code < 0x80 then [.ofNat code]
      else if code < 0x800 then [.ofNat (0xc0 + code / 64), .ofNat (0x80 + code % 64)]
      else if code < 0x10000 then
        [.ofNat (0xe0 + code / 4096), .ofNat (0x80 + code / 64 % 64), .ofNat (0x80 + code % 64)]
      else
        [.ofNat (0xf0 + code / 262144), .ofNat (0x80 + code / 4096 % 64),
          .ofNat (0x80 + code / 64 % 64), .ofNat (0x80 + code % 64)] := by
  rw [encodeChar, toNat_charOfNat valid]

theorem ofNat_eq {n : Nat} {b : UInt8} (same : n = b.toNat) : UInt8.ofNat n = b := by
  rw [same, UInt8.ofNat_toNat]

/-! The code point of one, two, three and four bytes is encoded as these bytes, if it needs as
many. -/

section Rows

variable {character : Bytes} {first second : Bounds}

theorem exists_encodeChar_one (fits : List.Forall₂ Within character [first])
    (bounds : first.2 ≤ 0x7f) : ∃ c, encodeChar c = character := by
  obtain _ | ⟨only, ⟨⟩⟩ := fits
  rename_i b
  simp only [Within] at only
  have valid : b.toNat.isValidChar := .inl (by omega)
  refine ⟨.ofNat _, (encodeChar_ofNat valid).trans ?_⟩
  rw [if_pos (by omega), UInt8.ofNat_toNat]

theorem exists_encodeChar_two (fits : List.Forall₂ Within character [first, continuation])
    (bounds : 0xc2 ≤ first.1 ∧ first.2 ≤ 0xdf) : ∃ c, encodeChar c = character := by
  obtain _ | ⟨initial, _ | ⟨last, ⟨⟩⟩⟩ := fits
  rename_i b d
  simp only [Within, continuation] at initial last
  have valid : (64 * (b.toNat - 0xc0) + (d.toNat - 0x80)).isValidChar := .inl (by omega)
  refine ⟨.ofNat _, (encodeChar_ofNat valid).trans ?_⟩
  rw [if_neg (by omega), if_pos (by omega), ofNat_eq (b := b) (by omega),
    ofNat_eq (b := d) (by omega)]

theorem exists_encodeChar_three
    (fits : List.Forall₂ Within character [first, second, continuation])
    (bounds : 0xe0 ≤ first.1 ∧ first.2 ≤ 0xef ∧ 0x80 ≤ second.1 ∧ second.2 ≤ 0xbf)
    (needed : 0xe0 < first.1 ∨ 0xa0 ≤ second.1)
    (noSurrogate : first.2 < 0xed ∨ 0xed < first.1 ∨ second.2 ≤ 0x9f) :
    ∃ c, encodeChar c = character := by
  obtain _ | ⟨initial, _ | ⟨next, _ | ⟨last, ⟨⟩⟩⟩⟩ := fits
  rename_i b d e
  simp only [Within, continuation] at initial next last
  have valid : (4096 * (b.toNat - 0xe0) + 64 * (d.toNat - 0x80) +
      (e.toNat - 0x80)).isValidChar := by
    rw [Nat.isValidChar]
    omega
  refine ⟨.ofNat _, (encodeChar_ofNat valid).trans ?_⟩
  rw [if_neg (by omega), if_neg (by omega), if_pos (by omega), ofNat_eq (b := b) (by omega),
    ofNat_eq (b := d) (by omega), ofNat_eq (b := e) (by omega)]

theorem exists_encodeChar_four
    (fits : List.Forall₂ Within character [first, second, continuation, continuation])
    (bounds : 0xf0 ≤ first.1 ∧ first.2 ≤ 0xf4 ∧ 0x80 ≤ second.1 ∧ second.2 ≤ 0xbf)
    (needed : 0xf0 < first.1 ∨ 0x90 ≤ second.1)
    (notAbove : first.2 < 0xf4 ∨ second.2 ≤ 0x8f) :
    ∃ c, encodeChar c = character := by
  obtain _ | ⟨initial, _ | ⟨next, _ | ⟨more, _ | ⟨last, ⟨⟩⟩⟩⟩⟩ := fits
  rename_i b d e f
  simp only [Within, continuation] at initial next more last
  have valid : (262144 * (b.toNat - 0xf0) + 4096 * (d.toNat - 0x80) + 64 * (e.toNat - 0x80) +
      (f.toNat - 0x80)).isValidChar := .inr (by omega)
  refine ⟨.ofNat _, (encodeChar_ofNat valid).trans ?_⟩
  rw [if_neg (by omega), if_neg (by omega), if_neg (by omega), ofNat_eq (b := b) (by omega),
    ofNat_eq (b := d) (by omega), ofNat_eq (b := e) (by omega), ofNat_eq (b := f) (by omega)]

end Rows

/-- **Every row of the table** holds bytes of characters only. -/
theorem exists_encodeChar_of_fits {row : List Bounds} {character : Bytes}
    (listed : row ∈ sequenceBounds) (fits : List.Forall₂ Within character row) :
    ∃ c, encodeChar c = character := by
  simp only [sequenceBounds, List.mem_cons, List.not_mem_nil, or_false] at listed
  rcases listed with rfl | rfl | rfl | rfl | rfl | rfl | rfl | rfl | rfl
  · exact exists_encodeChar_one fits (by decide)
  · exact exists_encodeChar_two fits (by decide)
  · exact exists_encodeChar_three fits (by decide) (by decide) (by decide)
  · exact exists_encodeChar_three fits (by decide) (by decide) (by decide)
  · exact exists_encodeChar_three fits (by decide) (by decide) (by decide)
  · exact exists_encodeChar_three fits (by decide) (by decide) (by decide)
  · exact exists_encodeChar_four fits (by decide) (by decide) (by decide)
  · exact exists_encodeChar_four fits (by decide) (by decide) (by decide)
  · exact exists_encodeChar_four fits (by decide) (by decide) (by decide)

/-! ## Decoding and encoding -/

theorem exists_encode_of_wellFormed {bytes : Bytes} (wellFormed : WellFormed bytes) :
    ∃ text, encode text = bytes := by
  induction wellFormed with
  | nil => exact ⟨[], rfl⟩
  | append listed fits _ ih =>
      obtain ⟨c, rfl⟩ := exists_encodeChar_of_fits listed fits
      obtain ⟨text, rfl⟩ := ih
      exact ⟨c :: text, rfl⟩

theorem wellFormed_encode (text : Text) : WellFormed (encode text) :=
  wellFormed_of_decode (decode_encode text)

/-- **Strict decoding.** What is decoded to a text is the encoding of the text. -/
theorem decode_eq_ok_iff {bytes : Bytes} {text : Text} :
    decode bytes = .ok text ↔ encode text = bytes := by
  constructor
  · intro decoded
    obtain ⟨other, rfl⟩ := exists_encode_of_wellFormed (wellFormed_of_decode decoded)
    rw [decode_encode] at decoded
    rw [Except.ok.inj decoded]
  · rintro rfl
    exact decode_encode text

end Utf8

/-! ## Rows of characters -/

theorem toNat_le_of_mem_charsOfBytes {bytes : Bytes} {c : Char} (member : c ∈ charsOfBytes bytes) :
    c.toNat ≤ 0xff := by
  obtain ⟨b, -, rfl⟩ := List.mem_map.mp member
  rw [toNat_charOfByte]
  exact Nat.le_of_lt_succ b.toNat_lt

/-- The bytes that characters stand for, where each of them stands for one. -/
def bytesOf (row : Text) : Bytes := row.map fun c => .ofNat c.toNat

theorem charsOfBytes_bytesOf {row : Text} (small : ∀ c ∈ row, c.toNat ≤ 0xff) :
    charsOfBytes (bytesOf row) = row := by
  rw [charsOfBytes, bytesOf, List.map_map]
  refine (List.map_congr_left fun c member => ?_).trans (List.map_id row)
  have code : (UInt8.ofNat c.toNat).toNat = c.toNat :=
    Utf8.toNat_ofNat_of_lt (Nat.lt_succ_of_le (small c member))
  rw [Function.comp_apply, code, Char.ofNat_toNat, id]

theorem toNat_le_of_bytesOfChars? {row : Text} {bytes : Bytes}
    (found : bytesOfChars? row = some bytes) : ∀ c ∈ row, c.toNat ≤ 0xff := by
  intro c member
  by_contra large
  have none : ¬c.toNat < 256 := fun small => large (Nat.le_of_lt_succ small)
  obtain ⟨before, after, rfl⟩ := List.append_of_mem member
  simp [bytesOfChars?, none] at found

/-- The characters of a row stand for bytes if and only if none of them is above U+00FF. -/
theorem bytesOfChars?_eq_some_iff {row : Text} {bytes : Bytes} :
    bytesOfChars? row = some bytes ↔ (∀ c ∈ row, c.toNat ≤ 0xff) ∧ bytesOf row = bytes := by
  constructor
  · intro found
    have small := toNat_le_of_bytesOfChars? found
    rw [← charsOfBytes_bytesOf small, bytesOfChars?_charsOfBytes] at found
    exact ⟨small, Option.some.inj found⟩
  · rintro ⟨small, rfl⟩
    rw [← bytesOfChars?_charsOfBytes (bytesOf row), charsOfBytes_bytesOf small]

/-- A row of characters that stand for the bytes of a well-formed sequence. -/
def CarriesText (row : Text) : Prop :=
  (∀ c ∈ row, c.toNat ≤ 0xff) ∧ Utf8.WellFormed (bytesOf row)

theorem fromMidiText_of_not_carriesText {row : Text} (plain : ¬CarriesText row) :
    fromMidiText row = row := by
  rw [fromMidiText]
  split
  · rename_i bytes found
    obtain ⟨small, rfl⟩ := bytesOfChars?_eq_some_iff.mp found
    split
    · rename_i text decoded
      exact absurd ⟨small, Utf8.wellFormed_of_decode decoded⟩ plain
    · rfl
  · rfl

theorem exists_text_of_carriesText {row : Text} (carries : CarriesText row) :
    ∃ text, toMidiText text = row := by
  obtain ⟨text, encoded⟩ := Utf8.exists_encode_of_wellFormed carries.2
  exact ⟨text, by rw [toMidiText, encoded, charsOfBytes_bytesOf carries.1]⟩

/-- **Texts and their rows.** The row of a text holds only characters that stand for bytes, and
carries the text. A row whose characters are the bytes of a well-formed sequence is the row of
the text that it carries; any other row is taken as it is. -/
theorem midiTexts_correspond :
    (∀ text : Text, fromMidiText (toMidiText text) = text ∧
      ∀ c ∈ toMidiText text, c.toNat ≤ 0xff) ∧
    ∀ row : Text, (CarriesText row → toMidiText (fromMidiText row) = row) ∧
      (¬CarriesText row → fromMidiText row = row) := by
  refine ⟨fun text => ⟨fromMidiText_toMidiText text, fun c => toNat_le_of_mem_charsOfBytes⟩,
    fun row => ⟨fun carries => ?_, fromMidiText_of_not_carriesText⟩⟩
  obtain ⟨text, rfl⟩ := exists_text_of_carriesText carries
  rw [fromMidiText_toMidiText]

/-- The two bytes of an accented letter carry it. The three bytes that would be a surrogate carry
nothing, and neither does a letter that stands for no byte. -/
theorem midiTexts_correspond_surrogate :
    (CarriesText ['\xc3', '\xa9'] ∧ fromMidiText ['\xc3', '\xa9'] = ['é'] ∧
      toMidiText (fromMidiText ['\xc3', '\xa9']) = ['\xc3', '\xa9']) ∧
    (¬CarriesText ['\xed', '\xa0', '\x80'] ∧
      fromMidiText ['\xed', '\xa0', '\x80'] = ['\xed', '\xa0', '\x80']) ∧
    ¬CarriesText ['ā'] ∧ fromMidiText ['ā'] = ['ā'] := by
  have accent : CarriesText ['\xc3', '\xa9'] :=
    ⟨(midiTexts_correspond.1 ['é']).2, Utf8.wellFormed_encode ['é']⟩
  have surrogate : ¬CarriesText ['\xed', '\xa0', '\x80'] := fun carries => by
    obtain ⟨text, encoded⟩ := Utf8.exists_encode_of_wellFormed carries.2
    cases Utf8.decode_eq_ok_iff.mpr encoded
  have letter : ¬CarriesText ['ā'] := fun carries =>
    absurd (carries.1 'ā' (List.mem_singleton_self _)) (by decide)
  exact ⟨⟨accent, by decide, (midiTexts_correspond.2 _).1 accent⟩,
    ⟨surrogate, (midiTexts_correspond.2 _).2 surrogate⟩, letter,
    (midiTexts_correspond.2 _).2 letter⟩

end Clavier
