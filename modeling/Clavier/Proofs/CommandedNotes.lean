import Clavier.Proofs.Commands
import Mathlib.Data.List.Forall2

/-!
# Notes with commands

Commands are stripped from a voice only after its notes have been moved, and the name of a command
is scanned for notes like any other word. A name that spells a note is moved
(`CommandName.moveNotes_text`), and octave marks that it gains are no part of a command: they stay
in the voice, right behind the note that the command follows (`CommandedNote.strippedText`).

A note with a fingering or a duration has ended there. A bare note takes the marks for its own, so
it is heard octaves off (`CommandedNote.height_heard`). Nothing else happens to a line of notes with
commands (`CommandedLine.scanVoice_expand_line`).
-/

set_option autoImplicit false

namespace Clavier

/-! ## Names that spell notes -/

/-- The keys have names of commands. -/
theorem sharpSpellings_letters : ∀ key : Fin 12,
    (sharpSpellings.getD key []).all isCommandLetter = true ∧
      sharpSpellings.getD key [] ≠ "clef".toList := by
  decide +kernel

/-- Inside of a word no note begins. -/
theorem piecesFrom_noteAt_word {before : Option Char} (inside : before.any Text.isWord = true)
    {run : Text} (word : ∀ c ∈ run, Text.isWord c = true) :
    Text.piecesFrom noteAt before 0 run = run.map .plain := by
  induction run generalizing before with
  | nil => rfl
  | cons c more ih =>
      have missing : noteAt before (c :: more) = none := by simp only [noteAt, inside, if_true]
      have next : (some c).any Text.isWord = true := word c List.mem_cons_self
      rw [Text.piecesFrom_of_none missing, ih next
        fun d member => word d (List.mem_cons_of_mem c member), List.map_cons]

namespace CommandName

/-- The name of a key: a natural letter or a sharp. -/
def ofKey (height : Int) : CommandName where
  text := sharpSpellings.getD (height % 12).toNat []
  nonempty := (sharpSpelling_spec height).2.2.1
  letters := List.all_eq_true.mp (sharpSpellings_letters ⟨(height % 12).toNat, by omega⟩).1
  bare := (sharpSpellings_letters ⟨(height % 12).toNat, by omega⟩).2

variable (name : CommandName)

/-- The name spells a note. -/
def Sounds : Prop := NoteWord.ofSpelling? name.text ≠ none

instance : Decidable name.Sounds := inferInstanceAs (Decidable (_ ≠ _))

/-- A name after the notes have been moved, without the octave marks behind it. -/
def move (interval : Int) : CommandName :=
  if interval ≠ 0 ∧ name.Sounds then .ofKey (semitones name.text + interval) else name

/-- The octaves that a moved name is marked with. -/
def drift (interval : Int) : Int :=
  if interval ≠ 0 ∧ name.Sounds then (semitones name.text + interval) / 12 else 0

@[simp] theorem move_zero : name.move 0 = name := if_neg fun moved => moved.1 rfl

@[simp] theorem drift_zero : name.drift 0 = 0 := if_neg fun moved => moved.1 rfl

/-- A name that spells a note is a pitch. -/
theorem exists_pitch_of_sounds (sounds : name.Sounds) :
    ∃ pitch : Pitch, name.text = pitch.text := by
  unfold Sounds NoteWord.ofSpelling? at sounds
  split at sounds
  · rename_i word taken
    obtain ⟨pitch, -, same, -⟩ := exists_pitch_of_takePitch? taken
    exact ⟨pitch, same.trans (List.append_nil _)⟩
  · rename_i word rest _ taken
    obtain ⟨pitch, -, same, -⟩ := exists_pitch_of_takePitch? taken
    split at sounds
    · rename_i fingering fingered
      obtain ⟨digits, -, hyphen, -⟩ := takeFingering?_eq_some_iff.mp fingered
      rw [hyphen] at same
      exact absurd (same ▸ List.mem_append_right _ List.mem_cons_self)
        (name.not_mem_text (c := '-') rfl)
    · exact absurd rfl sounds
  · exact absurd rfl sounds

/-- A name in which a note begins spells it. -/
theorem sounds_of_beginsNote (begins : BeginsNote name.text) : name.Sounds := by
  obtain ⟨letter, accidental, rest, same, letter_note, known, digits, tail, all, rfl, stops⟩ :=
    begins
  have letters : ∀ c ∈ digits ++ tail, isCommandLetter c = true := by
    intro c member
    apply name.letters
    rw [same]
    exact List.mem_cons_of_mem _ (List.mem_append_right _ member)
  have noDigits : digits = [] := by
    cases digits with
    | nil => rfl
    | cons c more =>
        have noDigit := isDigit_of_isCommandLetter (letters c List.mem_cons_self)
        rw [all c List.mem_cons_self] at noDigit
        cases noDigit
  have noTail : tail = [] := by
    cases tail with
    | nil => rfl
    | cons c more =>
        have word := isWord_of_isCommandLetter
          (letters c (List.mem_append_right _ List.mem_cons_self))
        rw [Text.stops_cons.mp stops] at word
        cases word
  subst noDigits noTail
  let note : WrittenNote :=
    ⟨⟨letter, accidental, [], letter_note, known, List.forall_mem_nil _⟩, .bare⟩
  have whole : name.text = note.word.text := by
    rw [same]
    simp [note, WrittenNote.word_text, Pitch.text, NoteEnding.fingeringText]
  rw [Sounds, whole, ofSpelling?_word]
  exact Option.some_ne_none _

/-- No note is found in a name that does not spell one. -/
theorem pieces_noteAt (silent : ¬ name.Sounds) :
    Text.pieces noteAt name.text = name.text.map .plain := by
  obtain ⟨c, more, same⟩ := List.exists_cons_of_ne_nil name.nonempty
  have word := name.isWord_of_mem
  have missing : noteAt none name.text = none := by
    rw [← Option.not_isSome_iff_eq_none, isSome_noteAt_iff]
    exact fun begins => silent (name.sounds_of_beginsNote begins.2)
  rw [same] at word missing ⊢
  have inside : (some c).any Text.isWord = true := word c List.mem_cons_self
  rw [Text.pieces, Text.piecesFrom_of_none missing, piecesFrom_noteAt_word inside
    fun d member => word d (List.mem_cons_of_mem c member), List.map_cons]

/-- **Moving a name.** A name that spells a note is moved like the note and gains octave marks; any
other name stays. -/
theorem moveNotes_text (interval : Int) :
    moveNotes interval name.text =
      (name.move interval).text ++ octaveMarks (name.drift interval) := by
  unfold move drift
  split
  · rename_i moved
    obtain ⟨pitch, same⟩ := name.exists_pitch_of_sounds moved.2
    have written := moveNotes_written ⟨pitch, .bare⟩ interval
    rw [WrittenNote.text_bare] at written
    rw [same, written, semitones_pitch, WrittenNote.move, if_neg moved.1, WrittenNote.text_bare,
      Pitch.text_ofHeight]
    rfl
  · rename_i still
    have stays : moveNotes interval name.text = name.text := by
      unfold moveNotes
      split
      · rfl
      · rename_i moved
        rw [Text.replacing_eq_writePieces, name.pieces_noteAt fun sounds => still ⟨moved, sounds⟩,
          Text.writePieces_map_plain]
    rw [stays]
    exact (List.append_nil _).symm

end CommandName

/-- Loud. -/
def CommandName.forte : CommandName :=
  ⟨['f'], List.cons_ne_nil _ _, List.all_eq_true.mp rfl, by decide⟩

/-- Soft. -/
def CommandName.piano : CommandName :=
  ⟨['p'], List.cons_ne_nil _ _, List.all_eq_true.mp rfl, by decide⟩

/-! ## Notes with commands -/

/-- A note that a command may follow. -/
structure CommandedNote where
  note : WrittenNote
  command : Option CommandName

namespace CommandedNote

variable (word : CommandedNote) (interval : Int)

/-- The note and the command as they are written. -/
def text : Text := word.note.text ++ word.command.elim [] fun name => '\\' :: name.text

/-- The octave marks that the moved command leaves in the voice. -/
def marks : Text := octaveMarks (word.command.elim 0 (·.drift interval))

/-- The note and the command after the notes have been moved. -/
def movedText : Text :=
  (word.note.move interval).text ++
    (word.command.elim [] fun name => '\\' :: (name.move interval).text) ++ word.marks interval

/-- What is left of the moved text without the command. -/
def strippedText : Text := (word.note.move interval).text ++ word.marks interval

/-- The note that is heard once the notes have been moved: a bare note takes the marks that the
command leaves behind. -/
def heard : WrittenNote :=
  match word.note.ending with
  | .bare => ⟨(word.note.move interval).pitch.withMarks (word.marks interval)
      fun _ member => mem_octaveMarks member, .bare⟩
  | _ => word.note.move interval

/-- The octaves that the note is heard too high. -/
def drift : Int :=
  match word.note.ending with
  | .bare => word.command.elim 0 (·.drift interval)
  | _ => 0

theorem ending_heard : (word.heard interval).ending = word.note.ending := by
  unfold heard
  split
  · rename_i bare
    exact bare.symm
  · exact word.note.ending_move interval

/-- **The height of a heard note** is off by the drift. -/
theorem height_heard :
    (word.heard interval).pitch.height =
      word.note.pitch.height + interval + 12 * word.drift interval := by
  unfold heard drift
  split
  · rw [Pitch.height_withMarks, WrittenNote.height_move, marks, octaveShift_octaveMarks]
  · rw [WrittenNote.height_move, Int.mul_zero, Int.add_zero]

@[simp] theorem marks_zero : word.marks 0 = [] := by
  unfold marks
  cases word.command with
  | none => rfl
  | some name => rw [Option.elim_some, name.drift_zero]; rfl

theorem heard_zero : word.heard 0 = word.note := by
  obtain ⟨⟨pitch, ending⟩, command⟩ := word
  unfold heard
  cases ending with
  | bare => simp [Pitch.withMarks]
  | _ => rfl

/-- The heard note is the only one in what is left of the moved text. -/
theorem items_strippedText :
    Text.items noteAt (word.strippedText interval) = [(word.heard interval).item] := by
  have marks : ∀ mark ∈ word.marks interval, isOctaveMark mark = true :=
    fun _ member => mem_octaveMarks member
  have stops : Text.Stops Text.isWord (word.marks interval) := fun mark first =>
    isWord_of_isOctaveMark (marks mark (List.mem_of_mem_head? first))
  have apart (ends : EndsBefore (word.note.move interval).ending (word.marks interval)) :
      Text.items noteAt (word.strippedText interval) = [(word.note.move interval).item] := by
    have none : Text.piecesFrom noteAt (some (word.note.move interval).last) 0
        (word.marks interval ++ []) = (word.marks interval).map .plain ++ [] :=
      Text.piecesFrom_append_plain _ fun before c more suffix =>
        noteAt_of_not_letter
          (isNoteLetter_of_isOctaveMark (marks c (suffix.mem List.mem_cons_self))) before _
    rw [List.append_nil, List.append_nil] at none
    rw [Text.items, Text.pieces, strippedText, piecesFrom_noteAt_append rfl _ ends, none]
    exact congrArg ((word.note.move interval).item :: ·) (Text.filterMap_item?_stretch _)
  unfold heard
  split
  · rename_i bare
    have whole : word.strippedText interval = WrittenNote.text
        ⟨(word.note.move interval).pitch.withMarks (word.marks interval) marks, .bare⟩ := by
      rw [WrittenNote.text_bare, Pitch.text_withMarks, strippedText, WrittenNote.text,
        WrittenNote.ending_move, bare]
      simp [NoteEnding.text, NoteEnding.fingeringText, NoteEnding.durationText]
    rw [whole, items_noteAt_written]
    rfl
  · rename_i ending
    apply apart
    rw [WrittenNote.ending_move]
    cases same : word.note.ending with
    | bare => exact absurd same ending
    | fingering digits => exact .fingering digits stops
    | duration digits => exact .duration digits stops

/-- Moving the notes of a word moves its note and its command. -/
theorem moveNotes_text : moveNotes interval word.text = word.movedText interval := by
  unfold text movedText marks
  cases word.command with
  | none =>
      simp only [Option.elim_none, List.append_nil, moveNotes_written]
      exact (List.append_nil _).symm
  | some name =>
      simp only [Option.elim_some]
      rw [moveNotes_append separatesNotes_backslash, moveNotes_written, name.moveNotes_text,
        List.append_assoc, List.cons_append]

end CommandedNote

/-! ## Lines -/

theorem separatesNotes_of_isOctaveMark {c : Char} (octave : isOctaveMark c = true) :
    separatesNotes c = false := by
  simp [separatesNotes, octave]

/-- A blank separates notes. -/
theorem separatesNotes_of_isBlank {c : Char} (blank : Text.isBlank c = true) :
    separatesNotes c = true := by
  have noMark : isOctaveMark c = false := by
    cases octave : isOctaveMark c with
    | false => rfl
    | true =>
        simp only [isOctaveMark, Bool.or_eq_true, decide_eq_true_eq] at octave
        rcases octave with rfl | rfl <;> exact absurd blank (by decide)
  have noHyphen : c ≠ '-' := by
    rintro rfl
    exact absurd blank (by decide)
  simp [separatesNotes, isWord_of_isBlank blank, noMark, noHyphen]

/-- A word of a line and the blanks behind it. -/
structure SpacedWord extends CommandedNote where
  gap : Text
  blank : Text.AllBlank gap

/-- Words with blanks between them. -/
structure CommandedLine where
  lead : Text
  words : List SpacedWord
  lead_blank : Text.AllBlank lead
  apart : words.IsChain fun word _ => word.gap ≠ []

/-- The text of some words, with a way to write a word. -/
def spaced (write : CommandedNote → Text) : List SpacedWord → Text
  | [] => []
  | word :: rest => write word.toCommandedNote ++ (word.gap ++ spaced write rest)

section Gaps

variable {gap : Text} (blank : Text.AllBlank gap)
include blank

theorem moveNotes_gap (interval : Int) (rest : Text) :
    moveNotes interval (gap ++ rest) = gap ++ moveNotes interval rest := by
  induction gap with
  | nil => rfl
  | cons c more ih =>
      have separates := separatesNotes_of_isBlank (blank c List.mem_cons_self)
      have here := moveNotes_append separates interval [] (more ++ rest)
      rw [moveNotes_nil, ih fun d member => blank d (List.mem_cons_of_mem c member)] at here
      exact here

theorem items_gap (rest : Text) :
    Text.items noteAt (gap ++ rest) = Text.items noteAt rest := by
  induction gap with
  | nil => rfl
  | cons c more ih =>
      have separates := separates_noteAt (separatesNotes_of_isBlank (blank c List.mem_cons_self))
      have here := separates.items_append [] (more ++ rest)
      rw [ih fun d member => blank d (List.mem_cons_of_mem c member)] at here
      exact here

variable {rest : Text} (apart : gap ≠ [] ∨ rest = [])
include apart

theorem moveNotes_append_gap (interval : Int) (text : Text) :
    moveNotes interval (text ++ (gap ++ rest)) =
      moveNotes interval text ++ (gap ++ moveNotes interval rest) := by
  cases gap with
  | nil =>
      obtain rfl := apart.resolve_left fun nonempty => nonempty rfl
      rw [moveNotes_nil, List.append_nil, List.append_nil, List.append_nil]
  | cons c more =>
      have later := moveNotes_gap (fun d member => blank d (List.mem_cons_of_mem c member))
        interval rest
      rw [List.cons_append, moveNotes_append
        (separatesNotes_of_isBlank (blank c List.mem_cons_self)), later, List.cons_append]

theorem items_append_gap (text : Text) :
    Text.items noteAt (text ++ (gap ++ rest)) =
      Text.items noteAt text ++ Text.items noteAt rest := by
  cases gap with
  | nil =>
      obtain rfl := apart.resolve_left fun nonempty => nonempty rfl
      rw [List.append_nil, List.append_nil]
      exact (List.append_nil _).symm
  | cons c more =>
      have later := items_gap (fun d member => blank d (List.mem_cons_of_mem c member)) rest
      rw [List.cons_append, (separates_noteAt
        (separatesNotes_of_isBlank (blank c List.mem_cons_self))).items_append, later]

/-- Octave marks, blanks and another note are no argument of a command. -/
theorem noArgument {marks : Text} (octave : ∀ mark ∈ marks, isOctaveMark mark = true)
    (letter : ∀ c, rest.head? = some c → isNoteLetter c = true) :
    NoArgument (marks ++ (gap ++ rest)) := by
  cases marks with
  | cons mark more =>
      have first := octave mark List.mem_cons_self
      have other : Text.isBlank mark = false ∧ isArgumentChar mark = false := by
        simp only [isOctaveMark, Bool.or_eq_true, decide_eq_true_eq] at first
        rcases first with rfl | rfl <;> decide
      refine ⟨Text.stops_cons.mpr (isWord_of_isOctaveMark first), ?_⟩
      have trimmed := Text.trimStart_append (List.forall_mem_nil _)
        (Text.stops_cons.mpr other.1 : Text.Stops Text.isBlank (mark :: (more ++ (gap ++ rest))))
      rw [List.nil_append] at trimmed
      rw [List.cons_append, trimmed]
      exact Text.stops_cons.mpr other.2
  | nil =>
      rw [List.nil_append]
      have noBlank : Text.Stops Text.isBlank rest := fun c first =>
        isBlank_of_isNoteLetter (letter c first)
      refine ⟨?_, ?_⟩
      · cases gap with
        | nil =>
            obtain rfl := apart.resolve_left fun nonempty => nonempty rfl
            exact Text.stops_nil
        | cons c more =>
            exact Text.stops_cons.mpr (isWord_of_isBlank (blank c List.mem_cons_self))
      · rw [Text.trimStart_append blank noBlank]
        intro c first
        have noSlash : c ≠ '/' := by
          rintro rfl
          exact absurd (letter _ first) (by decide)
        simp [isArgumentChar, isDigit_of_isNoteLetter (letter c first), noSlash]

end Gaps

/-! ## Words of a line -/

section Words

variable {words : List SpacedWord} (apart : words.IsChain fun word _ => word.gap ≠ [])

/-- Only the last word of a line stands in front of the end. -/
theorem SpacedWord.gap_of_isChain {word : SpacedWord}
    (apart : (word :: words).IsChain fun word _ => word.gap ≠ []) (write : CommandedNote → Text) :
    word.gap ≠ [] ∨ spaced write words = [] := by
  cases words with
  | nil => exact .inr rfl
  | cons next rest => exact .inl (List.isChain_cons_cons.mp apart).1

theorem spaced_head? (write : CommandedNote → Text)
    (letter : ∀ word : CommandedNote, ∃ c more, write word = c :: more ∧ isNoteLetter c = true) :
    ∀ c, (spaced write words).head? = some c → isNoteLetter c = true := by
  cases words with
  | nil => intro c first; cases first
  | cons word rest =>
      obtain ⟨c, more, same, note⟩ := letter word.toCommandedNote
      intro d first
      rw [spaced, same] at first
      cases first
      exact note

include apart

theorem moveNotes_spaced (interval : Int) :
    moveNotes interval (spaced (·.text) words) = spaced (·.movedText interval) words := by
  induction words with
  | nil => exact moveNotes_nil interval
  | cons word rest ih =>
      rw [spaced, moveNotes_append_gap word.blank (word.gap_of_isChain apart _),
        word.moveNotes_text, ih apart.tail, spaced]

theorem items_spaced (interval : Int) :
    Text.items noteAt (spaced (·.strippedText interval) words) =
      words.map fun word => (word.heard interval).item := by
  induction words with
  | nil => rfl
  | cons word rest ih =>
      rw [spaced, items_append_gap word.blank (word.gap_of_isChain apart _),
        word.items_strippedText, ih apart.tail, List.map_cons, List.singleton_append]

theorem stripped_spaced (interval : Int) :
    Stripped (words.filterMap fun word => word.command.map (·.move interval))
      (spaced (·.movedText interval) words) (spaced (·.strippedText interval) words) := by
  induction words with
  | nil => exact .nil
  | cons word rest ih =>
      have note : ∀ c ∈ (word.note.move interval).text,
          separatesNotes c = false ∨ Text.isBlank c = true := fun c member =>
        .inl ((word.note.move interval).separatesNotes_of_mem_text member)
      have behind : ∀ c ∈ word.marks interval ++ word.gap,
          separatesNotes c = false ∨ Text.isBlank c = true := fun c member =>
        (List.mem_append.mp member).imp
          (fun mark => separatesNotes_of_isOctaveMark (mem_octaveMarks mark)) (word.blank c)
      have later := (ih apart.tail).append_plain behind
      rw [List.append_assoc, List.append_assoc] at later
      rw [spaced, spaced, CommandedNote.movedText, CommandedNote.strippedText, List.append_assoc,
        List.append_assoc, List.append_assoc]
      refine Stripped.append_plain note ?_
      cases command : word.command with
      | none =>
          rw [List.filterMap_cons_none (by rw [command]; rfl)]
          exact later
      | some name =>
          rw [List.filterMap_cons_some (by rw [command]; rfl)]
          refine Stripped.command _ ?_ later
          exact noArgument word.blank (word.gap_of_isChain apart _)
            (fun _ member => mem_octaveMarks member)
            (spaced_head? _ (fun _ => ⟨_, _, rfl, (WrittenNote.move _ interval).pitch.letter_note⟩))

end Words

/-- Notes that are moved by an interval, with the fingerings that they had. -/
def Raised (interval : Int) : List NoteWord → List NoteWord → Prop :=
  List.Forall₂ fun before after =>
    after.fingering = before.fingering ∧ semitones after.text = semitones before.text + interval

namespace CommandedLine

variable (line : CommandedLine) (interval : Int)

/-- A line as it is written. -/
def text : Text := line.lead ++ spaced (·.text) line.words

theorem moveNotes_text :
    moveNotes interval line.text = line.lead ++ spaced (·.movedText interval) line.words := by
  rw [text, moveNotes_gap line.lead_blank, moveNotes_spaced line.apart]

theorem stripped :
    Stripped (line.words.filterMap fun word => word.command.map (·.move interval))
      (moveNotes interval line.text)
      (line.lead ++ spaced (·.strippedText interval) line.words) := by
  rw [line.moveNotes_text]
  exact (stripped_spaced line.apart interval).append_plain fun c member =>
    .inr (line.lead_blank c member)

/-- **Moved lines.** Once the notes of a line have been moved, a scan of it finds the notes that are
heard. -/
theorem scanVoice_moveNotes :
    scanVoice (moveNotes interval line.text) =
      line.words.map fun word => (word.heard interval).word := by
  rw [(line.stripped interval).scanVoice_eq, items_gap line.lead_blank, items_spaced line.apart,
    List.map_map]
  rfl

theorem scanVoice_text : scanVoice line.text = line.words.map (·.note.word) := by
  have still := line.scanVoice_moveNotes 0
  simp only [CommandedNote.heard_zero] at still
  exact still

/-- **Lines with commands.** Expanding a line of notes with unknown commands keeps the notes, their
order and their fingerings. Every note is moved by the interval and, if it is a bare note whose
command spells a note, by the octaves that the moved command is marked with. So the notes are
moved by the interval alone if and only if no note drifts. -/
theorem scanVoice_expand_line {table : Variables}
    (unknown : ∀ word ∈ line.words, ∀ name ∈ word.command, table.body? name.text = none)
    (budget : Nat) :
    scanVoice line.text = line.words.map (·.note.word) ∧
      ∃ moved, expand table (budget + 1) interval line.text = .ok moved ∧
        scanVoice moved = line.words.map (fun word => (word.heard interval).word) ∧
        (∀ word ∈ line.words,
          (word.heard interval).word.fingering = word.note.word.fingering ∧
            semitones (word.heard interval).word.text =
              semitones word.note.word.text + interval + 12 * word.drift interval) ∧
        (Raised interval (scanVoice line.text) (scanVoice moved) ↔
          ∀ word ∈ line.words, word.drift interval = 0) := by
  have names : ∀ name ∈ line.words.filterMap (fun word => word.command.map (·.move 0)),
      table.body? name.text = none := by
    intro name member
    obtain ⟨word, inside, command⟩ := List.mem_filterMap.mp member
    obtain ⟨written, found, rfl⟩ := Option.map_eq_some_iff.mp command
    rw [CommandName.move_zero]
    exact unknown word inside written found
  have heard : ∀ word ∈ line.words,
      (word.heard interval).word.fingering = word.note.word.fingering ∧
        semitones (word.heard interval).word.text =
          semitones word.note.word.text + interval + 12 * word.drift interval := by
    intro word _
    refine ⟨congrArg NoteEnding.fingeringText (word.ending_heard interval), ?_⟩
    rw [semitones_word, semitones_word, word.height_heard]
  have expanded : expand table (budget + 1) interval line.text =
      .ok (moveNotes interval line.text) := (line.stripped 0).expand_eq names budget interval
  refine ⟨line.scanVoice_text, _, expanded, line.scanVoice_moveNotes interval, heard, ?_⟩
  rw [line.scanVoice_text, line.scanVoice_moveNotes, Raised, List.forall₂_map_left_iff,
    List.forall₂_map_right_iff, List.forall₂_same]
  constructor
  · intro raised word member
    have moved := (raised word member).2
    rw [(heard word member).2] at moved
    omega
  · intro still word member
    obtain ⟨fingering, height⟩ := heard word member
    rw [still word member, Int.mul_zero, Int.add_zero] at height
    exact ⟨fingering, height⟩

/-- Three times the same note: `forte`, `forte` with a fingering, and `piano`. -/
def dynamics : CommandedLine where
  lead := []
  words :=
    [⟨⟨⟨⟨'c', [], [], isNoteLetter_c, Pitch.natural_known, Pitch.unmarked⟩, .bare⟩,
        some .forte⟩, [' '], allBlank_space⟩,
      ⟨⟨⟨⟨'c', [], [], isNoteLetter_c, Pitch.natural_known, Pitch.unmarked⟩,
          .fingering ⟨['2'], List.cons_ne_nil _ _, List.all_eq_true.mp rfl⟩⟩,
        some .forte⟩, [' '], allBlank_space⟩,
      ⟨⟨⟨⟨'c', [], [], isNoteLetter_c, Pitch.natural_known, Pitch.unmarked⟩, .bare⟩,
        some .piano⟩, [], List.forall_mem_nil _⟩]
  lead_blank := List.forall_mem_nil _
  apart := by decide

/-- An octave higher, the first of three notes drifts, because it is bare and its command spells a
note. -/
theorem scanVoice_expand_line_dynamics :
    dynamics.text = "c\\f c-2\\f c\\p".toList ∧
      ∃ moved, expand [] defaultBudget 12 dynamics.text = .ok moved ∧
        (scanVoice moved).map NoteWord.text = ["c''".toList, "c'-2".toList, "c'".toList] ∧
        ¬ Raised 12 (scanVoice dynamics.text) (scanVoice moved) := by
  obtain ⟨-, moved, expanded, heard, -, raised⟩ :=
    dynamics.scanVoice_expand_line 12 (fun _ _ _ _ => rfl : ∀ word ∈ dynamics.words,
      ∀ name ∈ word.command, Variables.body? [] name.text = none) 49
  refine ⟨by decide +kernel, moved, expanded, by rw [heard]; decide +kernel, ?_⟩
  rw [raised]
  decide +kernel

end CommandedLine

/-- Notes are not transposed through their commands. -/
theorem not_forall_raised :
    ¬ ∀ (line : CommandedLine) (table : Variables) (interval : Int) (moved : Text),
      (∀ word ∈ line.words, ∀ name ∈ word.command, table.body? name.text = none) →
      expand table defaultBudget interval line.text = .ok moved →
      Raised interval (scanVoice line.text) (scanVoice moved) := by
  intro transparent
  have expanded : expand [] defaultBudget 12 CommandedLine.dynamics.text =
      .ok "c'\\f' c'-2\\f' c'\\p".toList := by decide +kernel
  have raised := transparent .dynamics [] 12 _ (fun _ _ _ _ => rfl) expanded
  have before : scanVoice CommandedLine.dynamics.text =
      [⟨['c'], [], [], []⟩, ⟨['c'], [], [], ['-', '2']⟩, ⟨['c'], [], [], []⟩] := by decide +kernel
  have after : scanVoice "c'\\f' c'-2\\f' c'\\p".toList =
      [⟨['c'], [], "''".toList, []⟩, ⟨['c'], [], "'".toList, ['-', '2']⟩,
        ⟨['c'], [], "'".toList, []⟩] := by decide +kernel
  rw [before, after, Raised, List.forall₂_cons] at raised
  exact absurd raised.1.2 (by decide +kernel)

end Clavier
