import Clavier.Proofs.MovedNotes

/-!
# Places of notes

A note is recognised in front of whatever may follow its ending (`EndsBefore`), and only there
(`noteAt_eq_some_iff`). An ending is never followed by a letter of a note, and by a word character
only where a mark of the octave is given back to the larger word behind it.

Whether a note begins at a place depends on the word that begins there alone: a letter, an
accidental and digits (`isSome_noteAt_iff`).
-/

set_option autoImplicit false

namespace Clavier

/-! ## Where a note ends -/

/-- A word with a duration ends somewhere in the digits and after them, so it is no part of a larger
one. -/
def WordEnds (text : Text) : Prop :=
  ∃ digits rest, (∀ c ∈ digits, Text.isDigit c = true) ∧ text = digits ++ rest ∧
    Text.Stops Text.isWord rest

/-- A note with an ending can end before a text. Where octave marks touch a larger word, the last of
them belongs to the text after the note. -/
inductive EndsBefore : NoteEnding → Text → Prop where
  | fingering (digits : DigitRun) {after : Text} (stops : Text.Stops Text.isWord after) :
      EndsBefore (.fingering digits) after
  | duration (digits : DigitRun) {after : Text} (stops : Text.Stops Text.isWord after) :
      EndsBefore (.duration digits) after
  | bare {after : Text} (stops : Text.Stops Text.isWord after)
      (noMark : Text.Stops isOctaveMark after)
      (noFingering : ∀ (digits : DigitRun) (rest : Text),
        after = '-' :: (digits.text ++ rest) → ¬ Text.Stops Text.isWord rest) :
      EndsBefore .bare after
  | mark {mark : Char} (octave : isOctaveMark mark = true) {after : Text}
      (noMark : Text.Stops isOctaveMark after)
      (larger : ¬ WordEnds after) : EndsBefore .bare (mark :: after)

theorem isWord_hyphen : Text.isWord '-' = false := by decide +kernel

theorem startsWord_eq_false_iff {text : Text} :
    Text.startsWord text = false ↔ Text.Stops Text.isWord text := by
  cases text with
  | nil => exact ⟨fun _ => Text.stops_nil, fun _ => rfl⟩
  | cons c rest =>
      rw [Text.stops_cons]
      exact Iff.rfl

theorem stops_isDigit_of_isWord {text : Text} (stops : Text.Stops Text.isWord text) :
    Text.Stops Text.isDigit text := by
  intro c first
  cases digit : Text.isDigit c with
  | false => rfl
  | true =>
      have word := stops c first
      rw [Text.isWord_of_isDigit digit] at word
      cases word

/-- What is read as a fingering is a hyphen and a run of digits in front of no other digit. -/
theorem takeFingering?_eq_some_iff {text fingering rest : Text} :
    takeFingering? text = some (fingering, rest) ↔
      ∃ digits : DigitRun, fingering = '-' :: digits.text ∧
        text = '-' :: (digits.text ++ rest) ∧ Text.Stops Text.isDigit rest := by
  constructor
  · intro taken
    unfold takeFingering? at taken
    split at taken
    · rename_i more
      obtain ⟨run, after, split⟩ : ∃ run after,
          Text.splitWhile Text.isDigit more = (run, after) := ⟨_, _, rfl⟩
      obtain ⟨same, digits, stops⟩ := Text.splitWhile_eq_iff.mp split
      rw [split] at taken
      cases run with
      | nil => cases taken
      | cons c others =>
          cases taken
          exact ⟨⟨c :: others, List.cons_ne_nil _ _, digits⟩, rfl, congrArg ('-' :: ·) same, stops⟩
    · cases taken
  · rintro ⟨digits, rfl, rfl, stops⟩
    exact takeFingering?_append digits stops

/-! ## Notes in front of a text -/

namespace WrittenNote

theorem text_bare (pitch : Pitch) : WrittenNote.text ⟨pitch, .bare⟩ = pitch.text :=
  List.append_nil _

theorem text_fingering (pitch : Pitch) (digits : DigitRun) :
    WrittenNote.text ⟨pitch, .fingering digits⟩ = pitch.text ++ '-' :: digits.text :=
  congrArg (pitch.text ++ ·) (List.append_nil _)

theorem text_duration (pitch : Pitch) (digits : DigitRun) :
    WrittenNote.text ⟨pitch, .duration digits⟩ = pitch.text ++ digits.text := rfl

end WrittenNote

section Places

variable {before : Option Char} (free : before.any Text.isWord = false)

/-- A pitch with octave marks is read back from the start of a text unless another mark follows. -/
theorem takePitch?_marked (pitch : Pitch) (marked : pitch.octaves ≠ []) {rest : Text}
    (stops : Text.Stops isOctaveMark rest) :
    takePitch? (pitch.text ++ rest) = some (pitch.word, rest) := by
  have afterLetter : ∀ c, (pitch.octaves ++ rest).head? = some c → c ≠ 'i' ∧ c ≠ 'e' ∧ c ≠ 'a' := by
    intro c first
    obtain ⟨mark, more, marks⟩ := List.exists_cons_of_ne_nil marked
    have octave := pitch.octaves_marks mark (by rw [marks]; exact List.mem_cons_self)
    rw [marks, List.cons_append, List.head?_cons, Option.some.injEq] at first
    subst first
    refine ⟨?_, ?_, ?_⟩ <;> rintro rfl <;> exact absurd octave (by decide)
  have accidental := takeAccidental_append pitch.accidental_known afterLetter
  have octaves : takeOctaves (pitch.octaves ++ rest) = (pitch.octaves, rest) :=
    Text.splitWhile_eq_iff.mpr ⟨rfl, pitch.octaves_marks, stops⟩
  rw [Pitch.text, List.cons_append, List.append_assoc]
  simp only [takePitch?, pitch.letter_note, if_true, accidental, octaves]
  rfl

/-- A pitch before a text that is no word and no octave mark. -/
theorem stops_continuesPitch {rest : Text} (stops : Text.Stops Text.isWord rest)
    (noMark : Text.Stops isOctaveMark rest) : Text.Stops continuesPitch rest := by
  intro c first
  have noWord := stops c first
  have other : ∀ d, Text.isWord d = true → c ≠ d := by
    rintro d word rfl
    rw [word] at noWord
    cases noWord
  simp only [continuesPitch, noMark c first, Bool.or_false, Bool.or_eq_false_iff,
    decide_eq_false_iff_not]
  exact ⟨⟨other 'i' (by decide), other 'e' (by decide)⟩, other 'a' (by decide)⟩

/-- No fingering counts that a word character follows. -/
theorem filter_takeFingering?_eq_none_iff {text : Text} :
    (takeFingering? text).filter (fun found => !Text.startsWord found.2) = none ↔
      ∀ (digits : DigitRun) (rest : Text),
        text = '-' :: (digits.text ++ rest) → ¬ Text.Stops Text.isWord rest := by
  rw [Option.filter_eq_none_iff]
  constructor
  · rintro none digits rest rfl stops
    have taken := takeFingering?_append digits (stops_isDigit_of_isWord stops)
    have word := none _ taken
    rw [startsWord_eq_false_iff.mpr stops] at word
    exact word rfl
  · rintro none ⟨fingering, rest⟩ taken
    obtain ⟨digits, -, same, -⟩ := takeFingering?_eq_some_iff.mp taken
    have word := none digits rest same
    rw [← startsWord_eq_false_iff, Bool.not_eq_false] at word
    simp [word]

namespace Pitch

/-- A pitch with more octave marks. -/
def withMarks (pitch : Pitch) (marks : Text)
    (octave : ∀ mark ∈ marks, isOctaveMark mark = true) : Pitch :=
  { pitch with
    octaves := pitch.octaves ++ marks
    octaves_marks := fun mark member =>
      (List.mem_append.mp member).elim (pitch.octaves_marks mark) (octave mark) }

section Marks

variable (pitch : Pitch) {marks : Text} (octave : ∀ mark ∈ marks, isOctaveMark mark = true)

theorem text_withMarks : (pitch.withMarks marks octave).text = pitch.text ++ marks := by
  simp [text, withMarks]

theorem height_withMarks :
    (pitch.withMarks marks octave).height = pitch.height + 12 * octaveShift marks := by
  simp only [height, withMarks, octaveShift, List.count_append]
  omega

end Marks

/-- A pitch with octave marks has a last one. -/
theorem exists_withMarks {pitch : Pitch} (marked : pitch.octaves ≠ []) :
    ∃ (shorter : Pitch) (mark : Char) (octave : ∀ other ∈ [mark], isOctaveMark other = true),
      pitch = shorter.withMarks [mark] octave := by
  have marks : ∀ other ∈ pitch.octaves.dropLast, isOctaveMark other = true :=
    fun other member => pitch.octaves_marks other (List.dropLast_subset _ member)
  refine ⟨{ pitch with octaves := pitch.octaves.dropLast, octaves_marks := marks }, _,
    List.forall_mem_singleton.mpr (pitch.octaves_marks _ (List.getLast_mem marked)), ?_⟩
  simp only [withMarks, List.dropLast_concat_getLast]

end Pitch

section Pitches

variable {text rest : Text} {word : NoteWord} (taken : takePitch? text = some (word, rest))
include free taken

theorem noteAt_of_fingering {fingering after : Text}
    (fingered : (takeFingering? rest).filter (fun found => !Text.startsWord found.2) =
      some (fingering, after)) :
    noteAt before text = some (({ word with fingering }, []), after) := by
  simp only [noteAt, free, Bool.false_eq_true, if_false, taken, fingered]

theorem noteAt_of_duration
    (unfingered : (takeFingering? rest).filter (fun found => !Text.startsWord found.2) = none)
    {duration after : Text} (run : Text.splitWhile Text.isDigit rest = (duration, after))
    (stops : Text.startsWord after = false) :
    noteAt before text = some ((word, duration), after) := by
  simp only [noteAt, free, Bool.false_eq_true, if_false, taken, unfingered, run, stops,
    Bool.not_false, if_true]

/-- Before a larger word the last octave mark is given back, if there is one. -/
theorem noteAt_of_word (larger : ¬ WordEnds rest) :
    noteAt before text = word.octaves.getLast?.map fun mark =>
      (({ word with octaves := word.octaves.dropLast }, []), mark :: rest) := by
  obtain ⟨digits, tail, run⟩ : ∃ digits tail,
      Text.splitWhile Text.isDigit rest = (digits, tail) := ⟨_, _, rfl⟩
  obtain ⟨same, all, -⟩ := Text.splitWhile_eq_iff.mp run
  have starts : Text.startsWord tail = true := by
    rw [← Bool.not_eq_false, startsWord_eq_false_iff]
    exact fun stops => larger ⟨digits, tail, all, same, stops⟩
  have unfingered : (takeFingering? rest).filter (fun found => !Text.startsWord found.2) =
      none := by
    rw [filter_takeFingering?_eq_none_iff]
    rintro number after rfl -
    exact larger ⟨[], _, List.forall_mem_nil _, rfl, Text.stops_cons.mpr isWord_hyphen⟩
  simp only [noteAt, free, Bool.false_eq_true, if_false, taken, unfingered, run, starts,
    Bool.not_true]
  cases word.octaves.getLast? <;> rfl

end Pitches

include free

/-- **A note in front of a text** that its ending can stand before. -/
theorem noteAt_append (note : WrittenNote) {after : Text} (ends : EndsBefore note.ending after) :
    noteAt before (note.text ++ after) =
      some ((note.word, note.ending.durationText), after) := by
  obtain ⟨pitch, ending⟩ := note
  cases ends with
  | fingering digits stops =>
      have taken := takePitch?_append pitch
        (show Text.Stops continuesPitch ('-' :: (digits.text ++ after)) from
          Text.stops_cons.mpr rfl)
      have finger := takeFingering?_append digits (stops_isDigit_of_isWord stops)
      rw [WrittenNote.text_fingering, List.append_assoc, List.cons_append,
        noteAt_of_fingering free taken
          (Option.filter_eq_some_iff.mpr ⟨finger, by simp [startsWord_eq_false_iff.mpr stops]⟩)]
      rfl
  | duration digits stops =>
      obtain ⟨c, more, same⟩ := List.exists_cons_of_ne_nil digits.nonempty
      have other := isDigit_other (digits.digits c (same ▸ List.mem_cons_self))
      have taken := takePitch?_append pitch
        (show Text.Stops continuesPitch (digits.text ++ after) by
          rw [same]; exact Text.stops_cons.mpr other.1)
      have unfingered : takeFingering? (digits.text ++ after) = none := by
        rw [same]
        exact takeFingering?_of_ne other.2 _
      rw [WrittenNote.text_duration, List.append_assoc,
        noteAt_of_duration free taken (by rw [unfingered]; rfl)
          (Text.splitWhile_eq_iff.mpr ⟨rfl, digits.digits, stops_isDigit_of_isWord stops⟩)
          (startsWord_eq_false_iff.mpr stops)]
      rfl
  | bare stops noMark noFingering =>
      have taken := takePitch?_append pitch (stops_continuesPitch stops noMark)
      rw [WrittenNote.text_bare]
      exact noteAt_of_duration free taken (filter_takeFingering?_eq_none_iff.mpr noFingering)
        (Text.splitWhile_eq_iff.mpr ⟨rfl, List.forall_mem_nil _, stops_isDigit_of_isWord stops⟩)
        (startsWord_eq_false_iff.mpr stops)
  | @mark mark octave after noMark larger =>
      have octaves : ∀ other ∈ [mark], isOctaveMark other = true :=
        List.forall_mem_singleton.mpr octave
      have taken := takePitch?_marked (pitch.withMarks [mark] octaves)
        (List.append_ne_nil_of_right_ne_nil _ (List.cons_ne_nil _ _)) noMark
      have written : pitch.text ++ mark :: after =
          (pitch.withMarks [mark] octaves).text ++ after := by
        rw [Pitch.text_withMarks, List.append_assoc, List.singleton_append]
      rw [WrittenNote.text_bare, written, noteAt_of_word free taken larger]
      simp [Pitch.word, Pitch.withMarks, WrittenNote.word, NoteEnding.fingeringText,
        NoteEnding.durationText]

/-- A pitch without octave marks in front of a larger word is no note. -/
theorem noteAt_of_larger {pitch : Pitch} {rest : Text}
    (taken : takePitch? (pitch.text ++ rest) = some (pitch.word, rest))
    (unmarked : pitch.octaves = []) (larger : ¬ WordEnds rest) :
    noteAt before (pitch.text ++ rest) = none := by
  rw [noteAt_of_word free taken larger, Pitch.word, unmarked]
  rfl

end Places

/-- A pitch that has octave marks, or that ends its word, begins a note. -/
theorem Pitch.exists_note (pitch : Pitch) {rest : Text} (noMark : Text.Stops isOctaveMark rest)
    (apart : pitch.octaves ≠ [] ∨ WordEnds rest) :
    ∃ (note : WrittenNote) (after : Text), pitch.text ++ rest = note.text ++ after ∧
      EndsBefore note.ending after := by
  by_cases fingered : ∃ (digits : DigitRun) (after : Text),
      rest = '-' :: (digits.text ++ after) ∧ Text.Stops Text.isWord after
  · obtain ⟨digits, after, rfl, stops⟩ := fingered
    refine ⟨⟨pitch, .fingering digits⟩, after, ?_, .fingering digits stops⟩
    rw [WrittenNote.text_fingering, List.append_assoc, List.cons_append]
  by_cases ends : WordEnds rest
  · obtain ⟨digits, after, all, rfl, stops⟩ := ends
    cases digits with
    | cons c more =>
        refine ⟨⟨pitch, .duration ⟨c :: more, List.cons_ne_nil _ _, all⟩⟩, after, ?_,
          .duration _ stops⟩
        rw [WrittenNote.text_duration, List.append_assoc]
    | nil =>
        refine ⟨⟨pitch, .bare⟩, after, by rw [WrittenNote.text_bare, List.nil_append],
          .bare stops noMark ?_⟩
        exact fun digits rest same stops => fingered ⟨digits, rest, same, stops⟩
  · obtain ⟨shorter, mark, octave, rfl⟩ := Pitch.exists_withMarks (apart.resolve_right ends)
    refine ⟨⟨shorter, .bare⟩, mark :: rest, ?_,
      .mark (octave mark List.mem_cons_self) noMark ends⟩
    rw [WrittenNote.text_bare, Pitch.text_withMarks, List.append_assoc, List.singleton_append]

/-- **Notes in any surroundings.** A note is recognised where no word character stands before it,
and before whatever its ending can stand before. -/
theorem noteAt_eq_some_iff {before : Option Char} {text duration after : Text} {word : NoteWord} :
    noteAt before text = some ((word, duration), after) ↔
      before.any Text.isWord = false ∧ ∃ note : WrittenNote, text = note.text ++ after ∧
        word = note.word ∧ duration = note.ending.durationText ∧ EndsBefore note.ending after := by
  constructor
  · intro found
    cases free : before.any Text.isWord with
    | true => simp [noteAt, free] at found
    | false =>
        refine ⟨rfl, ?_⟩
        cases taken : takePitch? text with
        | none => simp [noteAt, taken] at found
        | some read =>
            obtain ⟨bare, rest⟩ := read
            obtain ⟨pitch, rfl, rfl, noMark⟩ := exists_pitch_of_takePitch? taken
            by_cases apart : pitch.octaves ≠ [] ∨ WordEnds rest
            · obtain ⟨note, after', same, ends⟩ := pitch.exists_note noMark apart
              rw [same, noteAt_append free note ends] at found
              cases found
              exact ⟨note, same, rfl, rfl, ends⟩
            · rw [not_or, Classical.not_not] at apart
              rw [noteAt_of_larger free taken apart.1 apart.2] at found
              cases found
  · rintro ⟨free, note, rfl, rfl, rfl, ends⟩
    exact noteAt_append free note ends

/-! ## Where a note begins -/

theorem isWord_of_mem_accidental {accidental : Text}
    (known : accidental ∈ [] :: sharpSuffix :: flatSuffixes) :
    ∀ c ∈ accidental, Text.isWord c = true := by
  simp only [flatSuffixes, sharpSuffix, List.mem_cons, List.not_mem_nil, or_false] at known
  rcases known with rfl | rfl | rfl | rfl <;> exact List.all_eq_true.mp (by decide)

theorem isWord_of_isOctaveMark {c : Char} (octave : isOctaveMark c = true) :
    Text.isWord c = false := by
  simp only [isOctaveMark, Bool.or_eq_true, decide_eq_true_eq] at octave
  rcases octave with rfl | rfl <;> decide +kernel

theorem isNoteLetter_of_isOctaveMark {c : Char} (octave : isOctaveMark c = true) :
    isNoteLetter c = false := by
  simp only [isOctaveMark, Bool.or_eq_true, decide_eq_true_eq] at octave
  rcases octave with rfl | rfl <;> rfl

/-- A text that begins with a letter, an accidental and digits that are a whole word. -/
def BeginsNote (text : Text) : Prop :=
  ∃ letter accidental rest, text = letter :: (accidental ++ rest) ∧ isNoteLetter letter = true ∧
    accidental ∈ [] :: sharpSuffix :: flatSuffixes ∧ WordEnds rest

/-- A note ends its word with its pitch, unless the digits of a duration follow. -/
theorem NoteEnding.wordEnds (ending : NoteEnding) {after : Text} (ends : EndsBefore ending after) :
    WordEnds (ending.text ++ after) := by
  cases ends with
  | fingering digits stops =>
      exact ⟨[], _, List.forall_mem_nil _, rfl, Text.stops_cons.mpr isWord_hyphen⟩
  | duration digits stops => exact ⟨digits.text, after, digits.digits, rfl, stops⟩
  | bare stops noMark noFingering => exact ⟨[], after, List.forall_mem_nil _, rfl, stops⟩
  | mark octave noMark larger =>
      exact ⟨[], _, List.forall_mem_nil _, rfl,
        Text.stops_cons.mpr (isWord_of_isOctaveMark octave)⟩

/-- **The start of a note.** A note is recognised at a place if and only if no word character stands
before it and a letter, an accidental and digits are a whole word there. -/
theorem isSome_noteAt_iff {before : Option Char} {text : Text} :
    (noteAt before text).isSome = true ↔ before.any Text.isWord = false ∧ BeginsNote text := by
  constructor
  · intro some
    obtain ⟨⟨⟨word, duration⟩, after⟩, found⟩ := Option.isSome_iff_exists.mp some
    obtain ⟨free, ⟨pitch, ending⟩, rfl, -, -, ends⟩ := noteAt_eq_some_iff.mp found
    refine ⟨free, pitch.letter, pitch.accidental, pitch.octaves ++ (ending.text ++ after), ?_,
      pitch.letter_note, pitch.accidental_known, ?_⟩
    · simp only [WrittenNote.text, Pitch.text, List.cons_append, List.append_assoc]
    · cases marks : pitch.octaves with
      | nil => exact ending.wordEnds ends
      | cons mark more =>
          have octave := pitch.octaves_marks mark (by rw [marks]; exact List.mem_cons_self)
          exact ⟨[], _, List.forall_mem_nil _, rfl,
            Text.stops_cons.mpr (isWord_of_isOctaveMark octave)⟩
  · rintro ⟨free, letter, accidental, rest, rfl, letter_note, known, ends⟩
    obtain ⟨octaves, tail, split⟩ : ∃ octaves tail,
        Text.splitWhile isOctaveMark rest = (octaves, tail) := ⟨_, _, rfl⟩
    obtain ⟨rfl, marks, noMark⟩ := Text.splitWhile_eq_iff.mp split
    let pitch : Pitch := ⟨letter, accidental, octaves, letter_note, known, marks⟩
    have whole : letter :: (accidental ++ (octaves ++ tail)) = pitch.text ++ tail := by
      simp only [pitch, Pitch.text, List.cons_append, List.append_assoc]
    have apart : pitch.octaves ≠ [] ∨ WordEnds tail := by
      cases octaves with
      | nil => exact .inr ends
      | cons mark more => exact .inl (List.cons_ne_nil _ _)
    obtain ⟨note, after, same, ends⟩ := pitch.exists_note noMark apart
    rw [whole, same, noteAt_append free note ends]
    rfl

/-- No note begins right after a note. -/
theorem EndsBefore.stops_isNoteLetter {ending : NoteEnding} {after : Text}
    (ends : EndsBefore ending after) : Text.Stops isNoteLetter after := by
  have noLetter : Text.Stops Text.isWord after → Text.Stops isNoteLetter after := by
    intro stops c first
    cases letter : isNoteLetter c with
    | false => rfl
    | true =>
        have word := stops c first
        rw [isWord_of_isNoteLetter letter] at word
        cases word
  cases ends with
  | fingering digits stops => exact noLetter stops
  | duration digits stops => exact noLetter stops
  | bare stops noMark noFingering => exact noLetter stops
  | mark octave noMark larger => exact Text.stops_cons.mpr (isNoteLetter_of_isOctaveMark octave)

end Clavier
