import Clavier.Proofs.OnePass
import Clavier.Proofs.Words

/-!
# Printed programs

A program is a tree: note words, references to other programs by name, and transposed blocks
of programs, one after the other. It is printed with one blank between any two parts. With
one more blank in front, every part of a program has its own blank (`Program.spaced`), and
the printed program is what follows the first one (`Program.cons_print`).

No block header begins at a reference, even if the name is that of the command: a header needs
an opening brace after its two pitches, and where a program has two notes after a reference,
no brace follows them (`Program.transposedBlockAt_reference`).
-/

set_option autoImplicit false

namespace Clavier

/-- A program of notes, references and transposed blocks. -/
inductive Program where
  | empty
  | note (written : WrittenNote) (rest : Program)
  | reference (name : Word) (rest : Program)
  | block (source target : Pitch) (inside rest : Program)

/-- The header of a block that is printed with single blanks. -/
def printedHeader (source target : Pitch) : TransposeHeader where
  source := source
  target := target
  afterCommand := [' ']
  afterSource := [' ']
  afterTarget := [' ']
  afterCommand_nonempty := List.cons_ne_nil _ _
  afterSource_nonempty := List.cons_ne_nil _ _
  afterCommand_blank := allBlank_space
  afterSource_blank := allBlank_space
  afterTarget_blank := allBlank_space

namespace Program

/-- The parts of a program, between any two of which there is a blank. -/
def words : Program → List Text
  | .empty => []
  | .note written rest => written.text :: rest.words
  | .reference name rest => ('\\' :: name.text) :: rest.words
  | .block source target inside rest =>
      transposeCommand :: source.text :: target.text :: ['{'] ::
        (inside.words ++ ['}'] :: rest.words)

/-- A program as it is printed. -/
def print (program : Program) : Text := Text.joinWith [' '] program.words

/-- A program with a blank before every part. -/
def spaced (program : Program) : Text := program.words.flatMap (' ' :: ·)

@[simp] theorem spaced_note (written : WrittenNote) (rest : Program) :
    (note written rest).spaced = ' ' :: (written.text ++ rest.spaced) := rfl

@[simp] theorem spaced_reference (name : Word) (rest : Program) :
    (reference name rest).spaced = ' ' :: '\\' :: (name.text ++ rest.spaced) := rfl

/-- A block is its header, its inside with a blank on both sides, and its closing brace. -/
theorem spaced_block (source target : Pitch) (inside rest : Program) :
    (block source target inside rest).spaced = ' ' :: ((printedHeader source target).text ++
      (inside.spaced ++ [' '] ++ '}' :: rest.spaced)) := by
  rw [TransposeHeader.text_append]
  simp [spaced, words, printedHeader]

/-- The printed program follows the first blank. -/
theorem cons_print {program : Program} (nonempty : program.words ≠ []) :
    ' ' :: program.print = program.spaced := Text.cons_joinWith ' ' nonempty

theorem words_eq_nil_iff {program : Program} : program.words = [] ↔ program = .empty := by
  cases program <;> simp [words]

end Program

/-! ## Balanced braces -/

/-- A written note has no braces. -/
theorem WrittenNote.balanced_text (note : WrittenNote) : Balanced note.text :=
  balanced_of_no_brace (note.not_mem_text separatesNotes_opening)
    (note.not_mem_text separatesNotes_closing)

/-- Every program is balanced. -/
theorem Program.balanced_spaced (program : Program) : Balanced program.spaced := by
  induction program with
  | empty => exact balanced_of_no_brace List.not_mem_nil List.not_mem_nil
  | note written rest ih =>
      exact (written.balanced_text.append ih).cons (by decide) (by decide)
  | reference name rest ih =>
      have word := balanced_of_isWord name.word
      exact ((word.append ih).cons (by decide) (by decide)).cons (by decide) (by decide)
  | block source target inside rest insideIh restIh =>
      have space : Balanced [' '] :=
        balanced_of_no_brace (by decide) (by decide)
      have front := (printedHeader source target).balanced_block (insideIh.append space)
      have whole := (front.append restIh).cons (by decide : ' ' ≠ '{') (by decide)
      rw [spaced_block]
      simpa only [List.append_assoc, List.cons_append, List.nil_append] using whole

/-! ## No header begins at a reference -/

/-- A written note has no blanks. -/
theorem WrittenNote.isBlank_of_mem_text (note : WrittenNote) {c : Char} (member : c ∈ note.text) :
    Text.isBlank c = false := by
  cases blank : Text.isBlank c with
  | false => rfl
  | true =>
      have inside := note.separatesNotes_of_mem_text member
      have noWord := isWord_of_isBlank blank
      have noMark : isOctaveMark c = false ∧ c ≠ '-' := by
        constructor
        · cases mark : isOctaveMark c with
          | false => rfl
          | true =>
              simp only [isOctaveMark, Bool.or_eq_true, decide_eq_true_eq] at mark
              rcases mark with rfl | rfl <;> cases blank
        · rintro rfl
          cases blank
      simp [separatesNotes, noWord, noMark] at inside

/-- What follows a program: nothing, or the blank before a closing brace. -/
inductive Trail : Text → Prop where
  | none : Trail []
  | space : Trail [' ']

/-- A text that is empty or begins with a blank. -/
def Led (text : Text) : Prop := text = [] ∨ ∃ rest, text = ' ' :: rest

namespace Program

variable {trail : Text} (ends : Trail trail)
include ends

/-- What follows a part of a program begins with a blank, if it is not empty. -/
theorem led_spaced (program : Program) : Led (program.spaced ++ trail) := by
  cases program with
  | empty =>
      cases ends with
      | none => exact .inl rfl
      | space => exact .inr ⟨_, rfl⟩
  | note written rest => exact .inr ⟨_, rfl⟩
  | reference name rest => exact .inr ⟨_, rfl⟩
  | block source target inside rest => exact .inr ⟨_, by rw [spaced_block]; rfl⟩

theorem stops_isWord (program : Program) : Text.Stops Text.isWord (program.spaced ++ trail) := by
  rcases program.led_spaced ends with empty | ⟨rest, led⟩
  · rw [empty]
    exact Text.stops_nil
  · rw [led]
    exact Text.stops_cons.mpr isWord_space

/-- The first part of a program is a note, or else it begins with a backslash. -/
theorem trimStart_spaced (program : Program) :
    Text.trimStart (program.spaced ++ trail) = [] ∨
      (∃ more, Text.trimStart (program.spaced ++ trail) = '\\' :: more) ∨
      ∃ written rest, program = .note written rest ∧
        Text.trimStart (program.spaced ++ trail) = written.text ++ (rest.spaced ++ trail) := by
  have trimmed : ∀ text, Text.Stops Text.isBlank text → Text.trimStart (' ' :: text) = text :=
    fun text stops => Text.trimStart_append allBlank_space stops
  have backslash : ∀ text, Text.trimStart (' ' :: '\\' :: text) = '\\' :: text :=
    fun text => trimmed _ (Text.stops_cons.mpr rfl)
  cases program with
  | empty =>
      cases ends with
      | none => exact .inl rfl
      | space => exact .inl (trimmed [] Text.stops_nil)
  | note written rest =>
      refine .inr (.inr ⟨written, rest, rfl, ?_⟩)
      rw [spaced_note, List.cons_append, List.append_assoc]
      refine trimmed _ ?_
      rw [WrittenNote.text, List.append_assoc]
      exact written.pitch.stops_isBlank _
  | reference name rest => exact .inr (.inl ⟨_, backslash _⟩)
  | block source target inside rest =>
      rw [spaced_block]
      exact .inr (.inl ⟨_, backslash _⟩)

/-- No part of a program begins with an opening brace. -/
theorem trimStart_ne_opening (program : Program) (inside : Text) :
    Text.trimStart (program.spaced ++ trail) ≠ '{' :: inside := by
  intro opening
  rcases program.trimStart_spaced ends with same | ⟨more, same⟩ | ⟨written, rest, -, same⟩
  · rw [same] at opening
    cases opening
  · rw [same] at opening
    cases (List.cons.inj opening).1
  · rw [same] at opening
    have letter := written.pitch.letter_note
    rw [(List.cons.inj opening).1] at letter
    cases letter

/-- A note of a program is the longest run without blanks. -/
theorem splitWhile_note (written : WrittenNote) (rest : Program) :
    Text.splitWhile (fun c => !Text.isBlank c) (written.text ++ (rest.spaced ++ trail)) =
      (written.text, rest.spaced ++ trail) := by
  refine Text.splitWhile_eq_iff.mpr ⟨rfl, ?_, ?_⟩
  · intro c member
    rw [written.isBlank_of_mem_text member]
    rfl
  · rcases rest.led_spaced ends with empty | ⟨others, led⟩
    · rw [empty]
      exact Text.stops_nil
    · rw [led]
      exact Text.stops_cons.mpr rfl

end Program

/-- The name in the command of a transposed block. -/
def transposeName : Text := "transpose".toList

theorem transposeCommand_eq : transposeCommand = '\\' :: transposeName := by decide

theorem isWord_of_mem_transposeName : ∀ c ∈ transposeName, Text.isWord c = true :=
  List.all_eq_true.mp (by decide +kernel)

namespace Program

variable {trail : Text} (ends : Trail trail)
include ends

/-- Where a pitch begins a program, with blanks or an opening brace after it, the pitch is a whole
note of the program: what follows it is the rest of the program. -/
theorem exists_rest_of_pitch {program : Program} {pitch : Pitch} {gap after : Text}
    (blank : Text.AllBlank gap) (follows : gap ≠ [] ∨ ∃ inside, after = '{' :: inside)
    (first : Text.trimStart (program.spaced ++ trail) = pitch.text ++ (gap ++ after)) :
    ∃ rest : Program, rest.spaced ++ trail = gap ++ after := by
  rcases program.trimStart_spaced ends with same | ⟨others, same⟩ | ⟨written, rest, -, same⟩
  · rw [same] at first
    cases first
  · rw [same] at first
    have letter := pitch.letter_note
    rw [← (List.cons.inj first).1] at letter
    cases letter
  · have noteRun := splitWhile_note ends written rest
    rw [← same, first] at noteRun
    have noBlank : ∀ c ∈ pitch.text, (!Text.isBlank c) = true := fun c member => by
      rw [pitch.isBlank_of_mem member]
      rfl
    cases gap with
    | cons c more =>
        have stops : Text.Stops (fun c => !Text.isBlank c) (c :: more ++ after) :=
          Text.stops_cons.mpr (by rw [blank c List.mem_cons_self]; rfl)
        rw [Text.splitWhile_eq_iff.mpr ⟨rfl, noBlank, stops⟩] at noteRun
        exact ⟨rest, (Prod.mk.inj noteRun).2.symm⟩
    | nil =>
        -- An opening brace is no blank, so it would belong to the note.
        obtain ⟨inside, rfl⟩ := follows.resolve_left fun nonempty => nonempty rfl
        have inNote : '{' ∈ written.text := by
          have run : (pitch.text ++ '{' :: inside).takeWhile (fun c => !Text.isBlank c) =
              written.text := congrArg Prod.fst noteRun
          rw [← run, List.takeWhile_append_of_pos noBlank]
          exact List.mem_append_right _ List.mem_cons_self
        exact absurd inNote (written.not_mem_text separatesNotes_opening)

/-- The name of a reference is the longest word after its backslash. -/
theorem splitWhile_name (name : Word) (rest : Program) :
    Text.splitWhile Text.isWord (name.text ++ (rest.spaced ++ trail)) =
      (name.text, rest.spaced ++ trail) := by
  refine Text.splitWhile_eq_iff.mpr ⟨rfl, name.word, rest.stops_isWord ends⟩

/-- **No header at a reference.** What a program prints after a reference is not the rest of a block
header, even if the name is that of the command. -/
theorem transposedBlockAt_reference (name : Word) (rest : Program) :
    transposedBlockAt none ('\\' :: (name.text ++ (rest.spaced ++ trail))) = none := by
  cases found : transposedBlockAt none ('\\' :: (name.text ++ (rest.spaced ++ trail))) with
  | none => rfl
  | some item =>
      obtain ⟨block, after⟩ := item
      obtain ⟨header, same, -⟩ := transposedBlockAt_eq_some_iff.mp found
      rw [TransposeHeader.text_append, transposeCommand_eq, List.cons_append] at same
      generalize block.body ++ '}' :: after = inside at same
      -- The name is that of the command, and the two pitches of the header are notes after it.
      have command := (List.cons.inj same).2
      obtain ⟨c, more, afterCommand⟩ := List.exists_cons_of_ne_nil header.afterCommand_nonempty
      have stops : Text.Stops Text.isWord
          (header.afterCommand ++ (header.source.text ++ (header.afterSource ++
            (header.target.text ++ (header.afterTarget ++ '{' :: inside))))) := by
        have blank := header.afterCommand_blank c (by rw [afterCommand]; exact List.mem_cons_self)
        rw [afterCommand]
        exact Text.stops_cons.mpr (isWord_of_isBlank blank)
      have nameRun := splitWhile_name ends name rest
      rw [command, Text.splitWhile_eq_iff.mpr ⟨rfl, isWord_of_mem_transposeName, stops⟩] at nameRun
      have first : Text.trimStart (rest.spaced ++ trail) =
          header.source.text ++ (header.afterSource ++
            (header.target.text ++ (header.afterTarget ++ '{' :: inside))) := by
        rw [← (Prod.mk.inj nameRun).2]
        exact Text.trimStart_append header.afterCommand_blank (header.source.stops_isBlank _)
      obtain ⟨rest', second⟩ := exists_rest_of_pitch ends header.afterSource_blank
        (.inl header.afterSource_nonempty) first
      have second' : Text.trimStart (rest'.spaced ++ trail) =
          header.target.text ++ (header.afterTarget ++ '{' :: inside) := by
        rw [second]
        exact Text.trimStart_append header.afterSource_blank (header.target.stops_isBlank _)
      obtain ⟨rest'', third⟩ := exists_rest_of_pitch ends header.afterTarget_blank
        (.inr ⟨inside, rfl⟩) second'
      refine absurd ?_ (rest''.trimStart_ne_opening ends inside)
      rw [third]
      exact Text.trimStart_append header.afterTarget_blank (Text.stops_cons.mpr rfl)

end Program

end Clavier
