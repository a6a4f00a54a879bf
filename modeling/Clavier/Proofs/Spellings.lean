import Clavier.Pitch.Transposition
import Clavier.Proofs.Runs
import Clavier.Proofs.Scanning

/-!
# The grammar of spellings

A pitch is a letter, at most one accidental and a run of octave marks. It carries the
proofs that its parts are what they should be, so whatever is built from pitches is
spelled well. Reading a pitch takes the longest one that begins the text
(`takePitch?_append`), and every pitch that is read comes from the grammar
(`exists_pitch_of_takePitch?`).

A written note is a pitch with a fingering, a duration, or neither. The note word of a written
note is its pitch once the fingering is left out (`withoutFingerings_word`).
-/

set_option autoImplicit false

namespace Clavier

/-! ## Pitches -/

/-- A letter, at most one accidental and a run of octave marks. -/
structure Pitch where
  letter : Char
  accidental : Text
  octaves : Text
  letter_note : isNoteLetter letter = true
  accidental_known : accidental ∈ [] :: sharpSuffix :: flatSuffixes
  octaves_marks : ∀ mark ∈ octaves, isOctaveMark mark = true

theorem isNoteLetter_c : isNoteLetter 'c' = true := rfl

/-- A pitch may have no accidental. -/
theorem Pitch.natural_known : ([] : Text) ∈ [] :: sharpSuffix :: flatSuffixes := List.mem_cons_self

theorem Pitch.unmarked : ∀ mark ∈ ([] : Text), isOctaveMark mark = true := List.forall_mem_nil _

/-- A character that could go on a letter: an octave mark or the start of an accidental. -/
def continuesPitch (c : Char) : Bool := c = 'i' || c = 'e' || c = 'a' || isOctaveMark c

theorem stops_octaveMark {rest : Text} (stops : Text.Stops continuesPitch rest) :
    Text.Stops isOctaveMark rest := by
  intro c first
  have stopped := stops c first
  simp only [continuesPitch, Bool.or_eq_false_iff] at stopped
  exact stopped.2

namespace Pitch

/-- The spelling of a pitch. -/
def text (pitch : Pitch) : Text := pitch.letter :: (pitch.accidental ++ pitch.octaves)

/-- A pitch as a note word without fingering. -/
def word (pitch : Pitch) : NoteWord := ⟨[pitch.letter], pitch.accidental, pitch.octaves, []⟩

@[simp] theorem word_text (pitch : Pitch) : pitch.word.text = pitch.text := by
  simp [word, text, NoteWord.text]

end Pitch

/-- An accidental is read back before anything that does not go on a letter. -/
theorem takeAccidental_append {accidental rest : Text}
    (known : accidental ∈ [] :: sharpSuffix :: flatSuffixes)
    (stops : ∀ c, rest.head? = some c → c ≠ 'i' ∧ c ≠ 'e' ∧ c ≠ 'a') :
    takeAccidental (accidental ++ rest) = (accidental, rest) := by
  simp only [flatSuffixes, sharpSuffix, List.mem_cons, List.not_mem_nil, or_false] at known
  rcases known with rfl | rfl | rfl | rfl
  · cases rest with
    | nil => rfl
    | cons c more =>
        obtain ⟨notSharp, notFlat, notFlat'⟩ := stops c rfl
        unfold takeAccidental
        split <;> simp_all
  · rfl
  · rfl
  · rfl

/-- What is read as an accidental is one, and begins the text. -/
theorem takeAccidental_eq {text accidental rest : Text}
    (taken : takeAccidental text = (accidental, rest)) :
    text = accidental ++ rest ∧ accidental ∈ [] :: sharpSuffix :: flatSuffixes := by
  unfold takeAccidental at taken
  split at taken <;> (cases taken; exact ⟨rfl, by decide⟩)

/-- **Reading a pitch.** A pitch is read back from the start of a text unless the text after it
could go on the pitch. -/
theorem takePitch?_append (pitch : Pitch) {rest : Text} (stops : Text.Stops continuesPitch rest) :
    takePitch? (pitch.text ++ rest) = some (pitch.word, rest) := by
  have afterLetter : ∀ c, (pitch.octaves ++ rest).head? = some c → c ≠ 'i' ∧ c ≠ 'e' ∧ c ≠ 'a' := by
    intro c first
    cases marks : pitch.octaves with
    | nil =>
        rw [marks, List.nil_append] at first
        have stopped := stops c first
        simp only [continuesPitch, Bool.or_eq_false_iff, decide_eq_false_iff_not] at stopped
        exact ⟨stopped.1.1.1, stopped.1.1.2, stopped.1.2⟩
    | cons mark more =>
        have octave := pitch.octaves_marks mark (by rw [marks]; exact List.mem_cons_self)
        rw [marks, List.cons_append, List.head?_cons, Option.some.injEq] at first
        subst first
        refine ⟨?_, ?_, ?_⟩ <;> rintro rfl <;> exact absurd octave (by decide)
  have accidental := takeAccidental_append pitch.accidental_known afterLetter
  have octaves : takeOctaves (pitch.octaves ++ rest) = (pitch.octaves, rest) :=
    Text.splitWhile_eq_iff.mpr ⟨rfl, pitch.octaves_marks, stops_octaveMark stops⟩
  rw [Pitch.text, List.cons_append, List.append_assoc]
  simp only [takePitch?, pitch.letter_note, if_true, accidental, octaves]
  rfl

/-- Every pitch that is read comes from the grammar and begins the text. -/
theorem exists_pitch_of_takePitch? {text rest : Text} {word : NoteWord}
    (taken : takePitch? text = some (word, rest)) :
    ∃ pitch : Pitch, word = pitch.word ∧ text = pitch.text ++ rest ∧
      Text.Stops isOctaveMark rest := by
  cases text with
  | nil => cases taken
  | cons letter more =>
      cases note : isNoteLetter letter with
      | false => simp [takePitch?, note] at taken
      | true =>
          obtain ⟨accidental, tail, suffix⟩ : ∃ accidental tail,
              takeAccidental more = (accidental, tail) := ⟨_, _, rfl⟩
          obtain ⟨octaves, after, marks⟩ : ∃ octaves after,
              takeOctaves tail = (octaves, after) := ⟨_, _, rfl⟩
          simp only [takePitch?, note, if_true, suffix, marks, Option.some.injEq,
            Prod.mk.injEq] at taken
          obtain ⟨rfl, rfl⟩ := taken
          obtain ⟨rfl, known⟩ := takeAccidental_eq suffix
          obtain ⟨rfl, all, stops⟩ := Text.splitWhile_eq_iff.mp marks
          exact ⟨⟨letter, accidental, octaves, note, known, all⟩, rfl, by simp [Pitch.text], stops⟩

/-! ## The height of a pitch -/

namespace Pitch

/-- The semitones from an unmarked C up to a pitch. -/
def height (pitch : Pitch) : Int :=
  (naturalSemitones? pitch.letter).getD 0 + accidentalSemitones pitch.accidental +
    12 * octaveShift pitch.octaves

/-- A character of a pitch is a letter of a note, a letter of an accidental or an octave mark. -/
theorem mem_text (pitch : Pitch) {c : Char} (member : c ∈ pitch.text) :
    isNoteLetter c = true ∨ c = 'i' ∨ c = 's' ∨ isOctaveMark c = true := by
  simp only [text, List.mem_cons, List.mem_append] at member
  rcases member with rfl | inside | inside
  · exact .inl pitch.letter_note
  · have known := pitch.accidental_known
    simp only [flatSuffixes, sharpSuffix, List.mem_cons, List.not_mem_nil, or_false] at known
    rcases known with known | known | known | known <;> rw [known] at inside <;>
      simp only [List.not_mem_nil, List.mem_cons, or_false] at inside
    · exact .inr (inside.imp_right .inl)
    · rcases inside with rfl | rfl
      · exact .inl (by decide)
      · exact .inr (.inr (.inl rfl))
    · rcases inside with rfl | rfl
      · exact .inl (by decide)
      · exact .inr (.inr (.inl rfl))
  · exact .inr (.inr (.inr (pitch.octaves_marks c inside)))

/-- What no character of a pitch can be. -/
theorem ne_of_mem_text (pitch : Pitch) {c other : Char} (member : c ∈ pitch.text)
    (noLetter : isNoteLetter other = false) (noSuffix : other ≠ 'i' ∧ other ≠ 's')
    (noMark : isOctaveMark other = false) : c ≠ other := by
  rintro rfl
  rcases pitch.mem_text member with letter | rfl | rfl | mark
  · rw [letter] at noLetter
    cases noLetter
  · exact noSuffix.1 rfl
  · exact noSuffix.2 rfl
  · rw [mark] at noMark
    cases noMark

end Pitch

/-- Blanks are no letters of notes. -/
theorem isBlank_of_isNoteLetter {c : Char} (letter : isNoteLetter c = true) :
    Text.isBlank c = false := by
  simp only [isNoteLetter, Bool.and_eq_true, decide_eq_true_eq] at letter
  have low : 97 ≤ c.toNat := letter.1
  have high : c.toNat ≤ 103 := letter.2
  have notSpace : c ≠ ' ' := by
    rintro rfl
    exact absurd low (by decide)
  simp only [Text.isBlank, notSpace, decide_false, Bool.false_or, Bool.or_eq_false_iff,
    Bool.and_eq_false_iff, decide_eq_false_iff_not]
  omega

/-- Small letters are no digits. -/
theorem Text.isDigit_of_letter {c : Char} (low : 'a' ≤ c) (high : c ≤ 'z') :
    isDigit c = false := by
  have first : 97 ≤ c.toNat := low
  have last : c.toNat ≤ 122 := high
  have ascii : c.toNat < 128 := by omega
  have above : ¬ c ≤ '9' := fun le => by
    have le' : c.toNat ≤ 57 := le
    omega
  simp [isDigit, digitValue?, above, ascii]

/-- Letters of notes are no digits. -/
theorem isDigit_of_isNoteLetter {c : Char} (letter : isNoteLetter c = true) :
    Text.isDigit c = false := by
  simp only [isNoteLetter, Bool.and_eq_true, decide_eq_true_eq] at letter
  exact Text.isDigit_of_letter letter.1 (Char.le_trans letter.2 (by decide))

/-- Digits are no letters of notes. -/
theorem isNoteLetter_of_isDigit {c : Char} (digit : Text.isDigit c = true) :
    isNoteLetter c = false := by
  cases letter : isNoteLetter c with
  | false => rfl
  | true =>
      rw [isDigit_of_isNoteLetter letter] at digit
      cases digit

/-- Letters of notes are word characters. -/
theorem isWord_of_isNoteLetter {c : Char} (letter : isNoteLetter c = true) :
    Text.isWord c = true := by
  simp only [isNoteLetter, Bool.and_eq_true, decide_eq_true_eq] at letter
  have ascii : Text.isAsciiLetter c = true := by
    have high : c ≤ 'z' := UInt32.le_trans letter.2 (by decide)
    simp [Text.isAsciiLetter, letter.1, high]
  simp [Text.isWord, ascii]

theorem Pitch.isBlank_of_mem (pitch : Pitch) {c : Char} (member : c ∈ pitch.text) :
    Text.isBlank c = false := by
  rcases pitch.mem_text member with letter | rfl | rfl | mark
  · exact isBlank_of_isNoteLetter letter
  · rfl
  · rfl
  · simp only [isOctaveMark, Bool.or_eq_true, decide_eq_true_eq] at mark
    rcases mark with rfl | rfl <;> rfl

/-! ## Written notes -/

/-- A nonempty run of digits. -/
structure DigitRun where
  text : Text
  nonempty : text ≠ []
  digits : ∀ c ∈ text, Text.isDigit c = true

/-- What may follow the pitch of a written note. -/
inductive NoteEnding where
  | bare
  | fingering (digits : DigitRun)
  | duration (digits : DigitRun)

namespace NoteEnding

/-- The part of an ending that belongs to the note word. -/
def fingeringText : NoteEnding → Text
  | .fingering digits => '-' :: digits.text
  | _ => []

/-- The part of an ending that is read and forgotten. -/
def durationText : NoteEnding → Text
  | .duration digits => digits.text
  | _ => []

/-- An ending as it is written. -/
def text (ending : NoteEnding) : Text := ending.fingeringText ++ ending.durationText

end NoteEnding

/-- A pitch with what follows it. -/
structure WrittenNote where
  pitch : Pitch
  ending : NoteEnding

namespace WrittenNote

/-- The note word that a written note stands for. -/
def word (note : WrittenNote) : NoteWord :=
  { note.pitch.word with fingering := note.ending.fingeringText }

/-- A note as it is written. -/
def text (note : WrittenNote) : Text := note.pitch.text ++ note.ending.text

theorem word_text (note : WrittenNote) :
    note.word.text = note.pitch.text ++ note.ending.fingeringText := by
  simp [word, Pitch.word, Pitch.text, NoteWord.text]

theorem text_eq (note : WrittenNote) : note.text = note.word.text ++ note.ending.durationText := by
  rw [word_text, text, NoteEnding.text, List.append_assoc]

end WrittenNote

/-- A digit goes on no letter and is no hyphen. -/
theorem isDigit_other {c : Char} (digit : Text.isDigit c = true) :
    continuesPitch c = false ∧ c ≠ '-' := by
  constructor
  · cases going : continuesPitch c with
    | false => rfl
    | true =>
        simp only [continuesPitch, isOctaveMark, Bool.or_eq_true, decide_eq_true_eq] at going
        rcases going with ((rfl | rfl) | rfl) | rfl | rfl <;> exact absurd digit (by decide)
  · rintro rfl
    exact absurd digit (by decide)

/-- The ending of a written note goes on no pitch. -/
theorem NoteEnding.stops (ending : NoteEnding) : Text.Stops continuesPitch ending.text := by
  cases ending with
  | bare => exact Text.stops_nil
  | fingering digits => exact Text.stops_cons.mpr rfl
  | duration digits =>
      obtain ⟨c, more, same⟩ := List.exists_cons_of_ne_nil digits.nonempty
      have digit := digits.digits c (by rw [same]; exact List.mem_cons_self)
      change Text.Stops continuesPitch digits.text
      rw [same, Text.stops_cons]
      exact (isDigit_other digit).1

/-- A fingering is read back from the start of a text unless more digits follow it. -/
theorem takeFingering?_append (digits : DigitRun) {rest : Text}
    (stops : Text.Stops Text.isDigit rest) :
    takeFingering? ('-' :: (digits.text ++ rest)) = some ('-' :: digits.text, rest) := by
  have split := Text.splitWhile_eq_iff.mpr ⟨rfl, digits.digits, stops⟩
  simp only [takeFingering?, split]
  split
  · rename_i empty
    exact absurd (congrArg Prod.fst empty) digits.nonempty
  · rename_i same
    cases same
    rfl

/-- Only a hyphen begins a fingering. -/
theorem takeFingering?_of_ne {c : Char} (other : c ≠ '-') (rest : Text) :
    takeFingering? (c :: rest) = none := by
  unfold takeFingering?
  split
  · rename_i same
    exact absurd (List.cons.inj same).1 other
  · rfl

/-! ## The height of a spelling -/

/-- A text without hyphens and blanks is what is left when the fingering after it is taken away. -/
theorem withoutFingerings_append {bare : Text} (noHyphen : '-' ∉ bare)
    (noBlank : ∀ c ∈ bare, Text.isBlank c = false) (ending : NoteEnding) :
    withoutFingerings (bare ++ ending.fingeringText) = bare := by
  have scan : Text.pieces (fun _ => takeFingering?) (bare ++ ending.fingeringText) =
      bare.map .plain ++ Text.pieces (fun _ => takeFingering?) ending.fingeringText := by
    rw [Text.pieces, Text.piecesFrom_append_plain none]
    · exact congrArg _ (Text.piecesFrom_before rfl)
    · intro _ c more suffix
      exact takeFingering?_of_ne
        (ne_of_mem_of_not_mem (suffix.mem List.mem_cons_self) noHyphen) _
  have rest : (Text.pieces (fun _ => takeFingering?) ending.fingeringText).filterMap
      Text.Piece.plain? = [] := by
    cases ending with
    | bare => rfl
    | duration digits => rfl
    | fingering digits =>
        have found := takeFingering?_append digits Text.stops_nil
        rw [NoteEnding.fingeringText, Text.pieces, ← List.append_nil ('-' :: digits.text),
          Text.piecesFrom_of_item (by simpa using found)]
        rfl
  rw [withoutFingerings, Text.without, scan, List.filterMap_append, rest,
    Text.filterMap_plain?_stretch, List.append_nil]
  exact Text.trim_of_no_blank noBlank

/-- A note word without its fingering is its pitch. -/
theorem withoutFingerings_word (note : WrittenNote) :
    withoutFingerings note.word.text = note.pitch.text := by
  have noHyphen : '-' ∉ note.pitch.text := fun member =>
    note.pitch.ne_of_mem_text member rfl (by decide) rfl rfl
  rw [note.word_text]
  exact withoutFingerings_append noHyphen (fun _ => note.pitch.isBlank_of_mem) note.ending

end Clavier
