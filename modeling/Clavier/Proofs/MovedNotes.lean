import Clavier.Voice.Expansion
import Clavier.Proofs.Spellings

/-!
# Moving written notes

The height of a note word is the height of its pitch, whatever its fingering
(`semitones_word`). Every height has a pitch that is spelled with a natural letter or a
sharp (`Pitch.ofHeight`), and transposing a note word spells the height that is higher by
the interval and keeps the fingering (`transposeSpelling_word`).

A written note is one item to a scan for notes (`pieces_noteAt_written`), so moving the
notes of a text that is a single written note moves that note and keeps its duration
(`moveNotes_written`). A character that is no word character, no octave mark and no hyphen
separates notes (`separates_noteAt`); moving the notes of a text moves them on both
sides of a separator (`moveNotes_append`).
-/

set_option autoImplicit false

namespace Clavier

/-! ## The height of a note word -/

/-- Octave marks are the only characters of a pitch that shift its octave. -/
theorem Pitch.octaveShift_text (pitch : Pitch) :
    octaveShift pitch.text = octaveShift pitch.octaves := by
  have letter : pitch.letter ≠ raiseMark ∧ pitch.letter ≠ lowerMark := by
    constructor <;> intro same <;> exact absurd (same ▸ pitch.letter_note) (by decide)
  have known := pitch.accidental_known
  simp only [flatSuffixes, sharpSuffix, List.mem_cons, List.not_mem_nil, or_false] at known
  rw [octaveShift, octaveShift, Pitch.text, List.count_cons_of_ne letter.1,
    List.count_cons_of_ne letter.2, List.count_append, List.count_append]
  rcases known with none | sharp | flat | flat <;> simp_all [raiseMark, lowerMark]

/-- Only the accidental right after the letter counts. -/
theorem Pitch.accidentalSemitones_drop (pitch : Pitch) :
    accidentalSemitones (pitch.text.drop 1) = accidentalSemitones pitch.accidental := by
  have known := pitch.accidental_known
  simp only [flatSuffixes, sharpSuffix, List.mem_cons, List.not_mem_nil, or_false] at known
  change accidentalSemitones (pitch.accidental ++ pitch.octaves) = _
  rcases known with none | sharp | flat | flat
  · rw [none, List.nil_append]
    cases marks : pitch.octaves with
    | nil => rfl
    | cons mark more =>
        have octave := pitch.octaves_marks mark (by rw [marks]; exact List.mem_cons_self)
        simp only [isOctaveMark, Bool.or_eq_true, decide_eq_true_eq] at octave
        rcases octave with rfl | rfl <;> rfl
  · rw [sharp]; rfl
  · rw [flat]; rfl
  · rw [flat]; rfl

/-- **The height of a note word** is the height of its pitch. -/
theorem semitones_word (note : WrittenNote) : semitones note.word.text = note.pitch.height := by
  rw [semitones, withoutFingerings_word]
  simp only [Pitch.height, Pitch.accidentalSemitones_drop, Pitch.octaveShift_text]
  rfl

/-- The height of a pitch that stands alone. -/
theorem semitones_pitch (pitch : Pitch) : semitones pitch.text = pitch.height := by
  simpa [WrittenNote.word_text, NoteEnding.fingeringText] using semitones_word ⟨pitch, .bare⟩

/-! ## The pitch of a height -/

/-- The sharp spellings are pitches without octave marks, in the order of their heights. -/
theorem sharpSpellings_spec : ∀ key : Fin 12,
    isNoteLetter ((sharpSpellings.getD key []).headD 'c') = true ∧
      (sharpSpellings.getD key []).tail ∈ [] :: sharpSuffix :: flatSuffixes ∧
      sharpSpellings.getD key [] ≠ [] ∧
      (naturalSemitones? ((sharpSpellings.getD key []).headD 'c')).getD 0 +
        accidentalSemitones (sharpSpellings.getD key []).tail = (key : Int) := by
  decide

/-- The spelling of the key of a height in the unmarked octave. -/
theorem sharpSpelling_spec (height : Int) :
    let spelled := sharpSpellings.getD (height % 12).toNat []
    isNoteLetter (spelled.headD 'c') = true ∧
      spelled.tail ∈ [] :: sharpSuffix :: flatSuffixes ∧ spelled ≠ [] ∧
      (naturalSemitones? (spelled.headD 'c')).getD 0 + accidentalSemitones spelled.tail =
        height % 12 := by
  have below : (height % 12).toNat < 12 := by omega
  have spec := sharpSpellings_spec ⟨(height % 12).toNat, below⟩
  have same : (((height % 12).toNat : Nat) : Int) = height % 12 := by omega
  rwa [same] at spec

theorem mem_octaveMarks {octaves : Int} {mark : Char} (member : mark ∈ octaveMarks octaves) :
    isOctaveMark mark = true := by
  rcases List.mem_append.mp member with raising | lowering
  · rw [(List.mem_replicate.mp raising).2]; rfl
  · rw [(List.mem_replicate.mp lowering).2]; rfl

theorem octaveShift_octaveMarks (octaves : Int) : octaveShift (octaveMarks octaves) = octaves := by
  simp only [octaveShift, octaveMarks, List.count_append, List.count_replicate]
  simp only [raiseMark, lowerMark, Char.reduceBEq, beq_self_eq_true, if_true, Bool.false_eq_true,
    if_false]
  omega

namespace Pitch

/-- The pitch of a height, spelled with a natural letter or a sharp. -/
def ofHeight (height : Int) : Pitch where
  letter := (sharpSpellings.getD (height % 12).toNat []).headD 'c'
  accidental := (sharpSpellings.getD (height % 12).toNat []).tail
  octaves := octaveMarks (height / 12)
  letter_note := (sharpSpelling_spec height).1
  accidental_known := (sharpSpelling_spec height).2.1
  octaves_marks := fun _ member => mem_octaveMarks member

theorem text_ofHeight (height : Int) : (ofHeight height).text = spellSemitones height := by
  obtain ⟨letter, more, same⟩ := List.exists_cons_of_ne_nil (sharpSpelling_spec height).2.2.1
  simp only [text, ofHeight, spellSemitones, same]
  rfl

theorem height_ofHeight (height : Int) : (ofHeight height).height = height := by
  have key := (sharpSpelling_spec height).2.2.2
  simp only [Pitch.height, ofHeight, octaveShift_octaveMarks]
  omega

end Pitch

/-! ## Transposing a note word -/

namespace WrittenNote

/-- A written note moved by an interval; a note that is not moved keeps its spelling. -/
def move (note : WrittenNote) (interval : Int) : WrittenNote :=
  if interval = 0 then note else ⟨.ofHeight (note.pitch.height + interval), note.ending⟩

@[simp] theorem move_zero (note : WrittenNote) : note.move 0 = note := rfl

@[simp] theorem ending_move (note : WrittenNote) (interval : Int) :
    (note.move interval).ending = note.ending := by
  unfold move
  split <;> rfl

theorem height_move (note : WrittenNote) (interval : Int) :
    (note.move interval).pitch.height = note.pitch.height + interval := by
  unfold move
  split
  · rename_i still
    rw [still, Int.add_zero]
  · exact Pitch.height_ofHeight _

end WrittenNote

/-- The note word of a written note is read back from its whole text. -/
theorem ofSpelling?_word (note : WrittenNote) :
    NoteWord.ofSpelling? note.word.text = some note.word := by
  obtain ⟨pitch, ending⟩ := note
  have pitchOf : ∀ rest, Text.Stops continuesPitch rest →
      takePitch? (pitch.text ++ rest) = some (pitch.word, rest) :=
    fun rest stops => takePitch?_append pitch stops
  rw [WrittenNote.word_text]
  cases ending with
  | bare =>
      have taken := pitchOf [] Text.stops_nil
      simp only [NoteEnding.fingeringText, NoteWord.ofSpelling?, taken]
      rfl
  | duration digits =>
      have taken := pitchOf [] Text.stops_nil
      simp only [NoteEnding.fingeringText, NoteWord.ofSpelling?, taken]
      rfl
  | fingering digits =>
      have taken := pitchOf ('-' :: digits.text) (Text.stops_cons.mpr rfl)
      have finger := takeFingering?_append digits Text.stops_nil
      rw [List.append_nil] at finger
      simp only [NoteEnding.fingeringText, NoteWord.ofSpelling?, taken, finger]
      rfl

/-- **Transposing a note word** moves its height by the interval and keeps its fingering. -/
theorem transposeSpelling_word (note : WrittenNote) (interval : Int) :
    transposeSpelling note.word.text interval = (note.move interval).word.text := by
  unfold transposeSpelling WrittenNote.move
  split
  · rfl
  · have bare : ({ note.word with fingering := [] } : NoteWord).text = note.pitch.text := by
      simp [NoteWord.text, WrittenNote.word, Pitch.word, Pitch.text]
    have spelled :
        (⟨.ofHeight (note.pitch.height + interval), note.ending⟩ : WrittenNote).word.text =
        spellSemitones (note.pitch.height + interval) ++ note.ending.fingeringText := by
      rw [WrittenNote.word_text, Pitch.text_ofHeight]
    rw [ofSpelling?_word, spelled]
    simp only [bare, semitones_pitch]
    rfl

/-! ## Finding written notes -/

/-- Only a letter of a note begins a note word. -/
theorem noteAt_of_not_letter {c : Char} (noLetter : isNoteLetter c = false) (before : Option Char)
    (more : Text) : noteAt before (c :: more) = none := by
  have noPitch : takePitch? (c :: more) = none := by simp [takePitch?, noLetter]
  simp only [noteAt, noPitch, ite_self]

/-- Nothing but digits, hyphens and octave marks stands in an ending, so no ending begins with a
word character that would make the note part of a larger word. -/
theorem noteAt_written (note : WrittenNote) :
    noteAt none note.text = some ((note.word, note.ending.durationText), []) := by
  obtain ⟨pitch, ending⟩ := note
  have taken := takePitch?_append pitch ending.stops
  cases ending with
  | bare =>
      simp only [WrittenNote.text, noteAt, taken]
      rfl
  | fingering digits =>
      have finger := takeFingering?_append digits Text.stops_nil
      simp only [NoteEnding.text, NoteEnding.fingeringText, NoteEnding.durationText,
        List.append_nil] at taken finger
      simp only [WrittenNote.text, NoteEnding.text, NoteEnding.fingeringText,
        NoteEnding.durationText, List.append_nil, noteAt, taken, finger]
      rfl
  | duration digits =>
      obtain ⟨c, more, same⟩ := List.exists_cons_of_ne_nil digits.nonempty
      have notHyphen := (isDigit_other (digits.digits c (same ▸ List.mem_cons_self))).2
      have noFinger : takeFingering? digits.text = none :=
        same ▸ takeFingering?_of_ne notHyphen more
      have run : Text.splitWhile Text.isDigit digits.text = (digits.text, []) :=
        Text.splitWhile_eq_iff.mpr ⟨(List.append_nil _).symm, digits.digits, Text.stops_nil⟩
      change takePitch? (pitch.text ++ digits.text) = some (pitch.word, digits.text) at taken
      simp only [WrittenNote.text, NoteEnding.text, NoteEnding.fingeringText,
        NoteEnding.durationText, List.nil_append, noteAt, taken, noFinger, run]
      rfl

/-- A written note is one item to a scan for notes. -/
theorem pieces_noteAt_written (note : WrittenNote) :
    Text.pieces noteAt note.text = [.item (note.word, note.ending.durationText)] := by
  have found := noteAt_written note
  have whole : note.text =
      note.pitch.letter ::
        (note.pitch.accidental ++ note.pitch.octaves ++ note.ending.text) ++ [] := by
    simp [WrittenNote.text, Pitch.text]
  rw [whole] at found ⊢
  exact Text.piecesFrom_of_item found

theorem items_noteAt_written (note : WrittenNote) :
    Text.items noteAt note.text = [(note.word, note.ending.durationText)] := by
  rw [Text.items, pieces_noteAt_written]
  rfl

/-- Moving the notes of a written note moves it and keeps its duration. -/
theorem moveNotes_written (note : WrittenNote) (interval : Int) :
    moveNotes interval note.text = (note.move interval).text := by
  unfold moveNotes
  split
  · rename_i still
    rw [still, WrittenNote.move_zero]
  · rw [Text.replacing_eq_writePieces, pieces_noteAt_written, Text.writePieces_item,
      Text.writePieces_nil, List.append_nil]
    change transposeSpelling note.word.text interval ++ note.ending.durationText = _
    rw [transposeSpelling_word, WrittenNote.text_eq, WrittenNote.ending_move]

/-! ## Separators of notes -/

/-- A character that stands neither inside a note nor next to one that is part of a word. -/
def separatesNotes (c : Char) : Bool := !Text.isWord c && !isOctaveMark c && c ≠ '-'

theorem separatesNotes_space : separatesNotes ' ' = true := by decide +kernel

theorem separatesNotes_backslash : separatesNotes '\\' = true := by decide +kernel

theorem separatesNotes_opening : separatesNotes '{' = true := by decide +kernel

theorem separatesNotes_closing : separatesNotes '}' = true := by decide +kernel

theorem separatesNotes_percent : separatesNotes '%' = true := by decide +kernel

theorem separatesNotes_newline : separatesNotes '\n' = true := by decide +kernel

theorem separatesNotes_markerEdge : separatesNotes markerEdge = true := by decide +kernel

section Separators

variable {separator : Char}

theorem takeAccidental_separator (noSuffix : separator ≠ 'i' ∧ separator ≠ 'e' ∧ separator ≠ 'a')
    (noEnd : separator ≠ 's') (text rest : Text) :
    takeAccidental (text ++ separator :: rest) =
      ((takeAccidental text).1, (takeAccidental text).2 ++ separator :: rest) := by
  match text with
  | [] =>
      have empty : ([] : Text) ∈ [] :: sharpSuffix :: flatSuffixes := List.mem_cons_self
      exact takeAccidental_append empty fun c first => by
        cases first
        exact noSuffix
  | [c] =>
      simp only [List.cons_append, List.nil_append]
      unfold takeAccidental
      split <;> simp_all
  | c :: d :: more =>
      simp only [List.cons_append]
      unfold takeAccidental
      split <;> simp_all

theorem splitWhile_separator {test : Char → Bool} (stops : test separator = false)
    (text rest : Text) :
    Text.splitWhile test (text ++ separator :: rest) =
      ((Text.splitWhile test text).1, (Text.splitWhile test text).2 ++ separator :: rest) := by
  obtain ⟨same, all, stop⟩ := Text.splitWhile_eq_iff.mp
    (rfl : Text.splitWhile test text = (text.takeWhile test, text.dropWhile test))
  refine Text.splitWhile_eq_iff.mpr ⟨?_, all, ?_⟩
  · change text ++ separator :: rest =
      text.takeWhile test ++ (text.dropWhile test ++ separator :: rest)
    rw [← List.append_assoc, ← same]
  · cases after : text.dropWhile test with
    | nil => simpa [Text.splitWhile, after] using stops
    | cons c more =>
        rw [after, Text.stops_cons] at stop
        simpa [Text.splitWhile, after] using stop

theorem takePitch?_separator (noWord : Text.isWord separator = false)
    (noMark : isOctaveMark separator = false) (text rest : Text) :
    takePitch? (text ++ separator :: rest) =
      (takePitch? text).map fun found => (found.1, found.2 ++ separator :: rest) := by
  have other : ∀ c, Text.isWord c = true → separator ≠ c := by
    rintro c word rfl
    rw [word] at noWord
    cases noWord
  cases text with
  | nil =>
      have noLetter : isNoteLetter separator = false := by
        cases letter : isNoteLetter separator with
        | false => rfl
        | true => exact absurd rfl (other separator (isWord_of_isNoteLetter letter))
      simp [takePitch?, noLetter]
  | cons letter more =>
      cases note : isNoteLetter letter with
      | false => simp [takePitch?, note]
      | true =>
          have suffix := takeAccidental_separator
            ⟨other 'i' (by decide), other 'e' (by decide), other 'a' (by decide)⟩
            (other 's' (by decide)) more rest
          have marks := splitWhile_separator noMark (takeAccidental more).2 rest
          simp only [List.cons_append, takePitch?, note, if_true, suffix, takeOctaves, marks,
            Option.map_some]

theorem takeFingering?_separator (noDigit : Text.isDigit separator = false)
    (noHyphen : separator ≠ '-') (text rest : Text) :
    takeFingering? (text ++ separator :: rest) =
      (takeFingering? text).map fun found => (found.1, found.2 ++ separator :: rest) := by
  cases text with
  | nil => exact takeFingering?_of_ne noHyphen rest
  | cons c more =>
      by_cases hyphen : c = '-'
      · subst hyphen
        obtain ⟨digits, after, run⟩ : ∃ digits after,
            Text.splitWhile Text.isDigit more = (digits, after) := ⟨_, _, rfl⟩
        have longer := splitWhile_separator noDigit more rest
        rw [run] at longer
        simp only [List.cons_append, takeFingering?, run, longer]
        cases digits <;> rfl
      · rw [List.cons_append, takeFingering?_of_ne hyphen, takeFingering?_of_ne hyphen]
        rfl

theorem startsWord_separator (noWord : Text.isWord separator = false) (text rest : Text) :
    Text.startsWord (text ++ separator :: rest) = Text.startsWord text := by
  cases text with
  | nil => exact noWord
  | cons c more => rfl

/-- A fingering before a word character is dropped, whatever stands behind the next separator. -/
theorem filter_startsWord_separator (noWord : Text.isWord separator = false)
    (fingered : Option (Text × Text)) (rest : Text) :
    (fingered.map fun found => (found.1, found.2 ++ separator :: rest)).filter
        (fun found => !Text.startsWord found.2) =
      (fingered.filter fun found => !Text.startsWord found.2).map fun found =>
        (found.1, found.2 ++ separator :: rest) := by
  cases fingered with
  | none => rfl
  | some found =>
      simp only [Option.map_some, Option.filter_some, startsWord_separator noWord]
      split <;> rfl

/-- **Separators of notes.** Notes are found apart on both sides of a character that is no word
character, no octave mark and no hyphen. -/
theorem separates_noteAt (separates : separatesNotes separator = true) :
    Text.Separates noteAt separator := by
  simp only [separatesNotes, Bool.and_eq_true, Bool.not_eq_true', decide_eq_true_eq] at separates
  obtain ⟨⟨noWord, noMark⟩, noHyphen⟩ := separates
  have noDigit : Text.isDigit separator = false := by
    cases digit : Text.isDigit separator with
    | false => rfl
    | true => rw [Text.isWord_of_isDigit digit] at noWord; cases noWord
  refine ⟨?_, ?_, ?_⟩
  · intro before
    unfold noteAt
    split <;> rfl
  · intro before text rest
    unfold noteAt
    split
    · rfl
    · rw [takePitch?_separator noWord noMark]
      cases takePitch? text with
      | none => rfl
      | some found =>
          obtain ⟨word, tail⟩ := found
          -- The three ways a note ends: a fingering, a duration, a mark given back.
          have finger := takeFingering?_separator noDigit noHyphen tail rest
          have run := splitWhile_separator noDigit tail rest
          obtain ⟨duration, after, split⟩ : ∃ duration after,
              Text.splitWhile Text.isDigit tail = (duration, after) := ⟨_, _, rfl⟩
          rw [split] at run
          have ends := filter_startsWord_separator noWord (takeFingering? tail) rest
          simp only [Option.map_some, finger, run, split, ends, startsWord_separator noWord]
          cases (takeFingering? tail).filter fun found => !Text.startsWord found.2 with
          | some fingered => rfl
          | none =>
              simp only [Option.map_none]
              split
              · rfl
              · cases word.octaves.getLast? <;> rfl
  · intro text
    simp [noteAt, noWord]

theorem items_noteAt_space (text rest : Text) :
    Text.items noteAt (text ++ ' ' :: rest) = Text.items noteAt text ++ Text.items noteAt rest :=
  (separates_noteAt separatesNotes_space).items_append text rest

end Separators

/-! ## Separators are never written -/

/-- A fingering that is read is a hyphen and a run of digits. -/
theorem exists_digits_of_takeFingering? {text fingering rest : Text}
    (taken : takeFingering? text = some (fingering, rest)) :
    ∃ digits : DigitRun, fingering = '-' :: digits.text := by
  unfold takeFingering? at taken
  split at taken
  · rename_i more
    obtain ⟨run, after, split⟩ : ∃ run after,
        Text.splitWhile Text.isDigit more = (run, after) := ⟨_, _, rfl⟩
    have digits := (Text.splitWhile_eq_iff.mp split).2.1
    rw [split] at taken
    cases run with
    | nil => cases taken
    | cons c others =>
        cases taken
        exact ⟨⟨c :: others, List.cons_ne_nil _ _, digits⟩, rfl⟩
  · cases taken

/-- Every note that a scan finds is the word of a written note, with a duration of digits. -/
theorem exists_written_of_noteAt {before : Option Char} {text duration rest : Text}
    {word : NoteWord} (found : noteAt before text = some ((word, duration), rest)) :
    ∃ note : WrittenNote, word = note.word ∧ ∀ c ∈ duration, Text.isDigit c = true := by
  unfold noteAt at found
  split at found
  · cases found
  · split at found
    · cases found
    · rename_i bare tail taken
      obtain ⟨pitch, rfl, -, -⟩ := exists_pitch_of_takePitch? taken
      split at found
      · rename_i fingering after fingered
        obtain ⟨digits, rfl⟩ :=
          exists_digits_of_takeFingering? (Option.filter_eq_some_iff.mp fingered).1
        cases found
        exact ⟨⟨pitch, .fingering digits⟩, rfl, fun _ member => by cases member⟩
      · obtain ⟨run, after, split⟩ : ∃ run after,
            Text.splitWhile Text.isDigit tail = (run, after) := ⟨_, _, rfl⟩
        simp only [split] at found
        split at found
        · cases found
          exact ⟨⟨pitch, .bare⟩, rfl, (Text.splitWhile_eq_iff.mp split).2.1⟩
        · split at found
          · cases found
            have marks : ∀ mark ∈ pitch.octaves.dropLast, isOctaveMark mark = true :=
              fun mark member => pitch.octaves_marks mark (List.dropLast_subset _ member)
            let shorter : Pitch :=
              { pitch with octaves := pitch.octaves.dropLast, octaves_marks := marks }
            exact ⟨⟨shorter, .bare⟩, rfl, fun _ member => by cases member⟩
          · cases found

theorem separatesNotes_of_isDigit {c : Char} (digit : Text.isDigit c = true) :
    separatesNotes c = false := by
  simp [separatesNotes, Text.isWord_of_isDigit digit]

/-- No character of a pitch separates notes. -/
theorem Pitch.separatesNotes_of_mem (pitch : Pitch) {c : Char} (member : c ∈ pitch.text) :
    separatesNotes c = false := by
  rcases pitch.mem_text member with letter | rfl | rfl | mark
  · simp [separatesNotes, isWord_of_isNoteLetter letter]
  · decide
  · decide
  · simp [separatesNotes, mark]

/-- No character of a note word separates notes. -/
theorem WrittenNote.separatesNotes_of_mem_word (note : WrittenNote) {c : Char}
    (member : c ∈ note.word.text) : separatesNotes c = false := by
  rw [word_text] at member
  rcases List.mem_append.mp member with inPitch | inEnding
  · exact note.pitch.separatesNotes_of_mem inPitch
  · cases ending : note.ending with
    | bare => rw [ending] at inEnding; cases inEnding
    | duration digits => rw [ending] at inEnding; cases inEnding
    | fingering digits =>
        rw [ending] at inEnding
        rcases List.mem_cons.mp inEnding with rfl | digit
        · decide
        · exact separatesNotes_of_isDigit (digits.digits c digit)

/-- No character of a written note separates notes. -/
theorem WrittenNote.separatesNotes_of_mem_text (note : WrittenNote) {c : Char}
    (member : c ∈ note.text) : separatesNotes c = false := by
  rw [text_eq] at member
  rcases List.mem_append.mp member with inWord | inDuration
  · exact note.separatesNotes_of_mem_word inWord
  · cases ending : note.ending with
    | bare => rw [ending] at inDuration; cases inDuration
    | fingering digits => rw [ending] at inDuration; cases inDuration
    | duration digits =>
        rw [ending] at inDuration
        exact separatesNotes_of_isDigit (digits.digits c inDuration)

/-- No separator of notes stands in a written note. -/
theorem WrittenNote.not_mem_text (note : WrittenNote) {separator : Char}
    (separates : separatesNotes separator = true) : separator ∉ note.text := by
  intro member
  rw [note.separatesNotes_of_mem_text member] at separates
  cases separates

/-- Moving notes writes no separators. -/
theorem not_mem_moveNotes {separator : Char} (separates : separatesNotes separator = true)
    (interval : Int) {text : Text} (clean : separator ∉ text) :
    separator ∉ moveNotes interval text := by
  unfold moveNotes
  split
  · exact clean
  · rw [Text.replacing_eq_writePieces, Text.writePieces]
    intro member
    obtain ⟨piece, inside, written⟩ := List.mem_flatMap.mp member
    cases piece with
    | plain c =>
        rw [Text.Piece.write, List.mem_singleton] at written
        exact clean (written ▸ Text.mem_of_plain_mem inside)
    | item value =>
        obtain ⟨before, rest, after, found⟩ := Text.exists_of_item_mem inside
        obtain ⟨note, word, digits⟩ := exists_written_of_noteAt found
        have noSeparator : separatesNotes separator = false := by
          change separator ∈ transposeSpelling value.1.text interval ++ value.2 at written
          rw [word, transposeSpelling_word] at written
          rcases List.mem_append.mp written with inWord | inDuration
          · exact (note.move interval).separatesNotes_of_mem_word inWord
          · exact separatesNotes_of_isDigit (digits separator inDuration)
        rw [separates] at noSeparator
        cases noSeparator

/-- Moving notes on both sides of a separator. -/
theorem moveNotes_append {separator : Char} (separates : separatesNotes separator = true)
    (interval : Int) (text rest : Text) :
    moveNotes interval (text ++ separator :: rest) =
      moveNotes interval text ++ separator :: moveNotes interval rest := by
  unfold moveNotes
  split
  · rfl
  · exact (separates_noteAt separates).replacing_append _ text rest

/-- A moved note begins with a letter, so moving notes puts no digit in front of a text. -/
theorem stops_isDigit_moveNotes (interval : Int) {text : Text}
    (stops : Text.Stops Text.isDigit text) : Text.Stops Text.isDigit (moveNotes interval text) := by
  unfold moveNotes
  split
  · exact stops
  · rw [Text.replacing_eq_writePieces]
    cases text with
    | nil => exact Text.stops_nil
    | cons c rest =>
        unfold Text.pieces Text.piecesFrom
        cases found : noteAt none (c :: rest) with
        | none => exact stops
        | some item =>
            obtain ⟨⟨word, duration⟩, after⟩ := item
            obtain ⟨note, rfl, -⟩ := exists_written_of_noteAt found
            rw [Text.writePieces_item]
            dsimp only
            rw [transposeSpelling_word, WrittenNote.word_text]
            exact Text.stops_cons.mpr (isDigit_of_isNoteLetter (note.move interval).pitch.letter_note)

@[simp] theorem moveNotes_nil (interval : Int) : moveNotes interval [] = [] := by
  unfold moveNotes
  split <;> rfl

end Clavier
