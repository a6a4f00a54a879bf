import Clavier.Voice.Expansion
import Clavier.Proofs.Braces
import Clavier.Proofs.Spellings

/-!
# Headers of transposed blocks

The header of a transposed block is the command, two pitches and an opening brace, with
blanks between them. A transposed block is recognised exactly where a header, a balanced
body and a closing brace begin the text (`transposedBlockAt_eq_some_iff`).

A header holds one brace, at its end, and no marker edge (`TransposeHeader.not_mem_front`),
so it can be followed through a text in which other parts have been replaced.
-/

set_option autoImplicit false

namespace Clavier

/-- A blank goes on no pitch. -/
theorem continuesPitch_of_isBlank {c : Char} (blank : Text.isBlank c = true) :
    continuesPitch c = false := by
  cases going : continuesPitch c with
  | false => rfl
  | true =>
      simp only [continuesPitch, isOctaveMark, Bool.or_eq_true, decide_eq_true_eq] at going
      rcases going with ((rfl | rfl) | rfl) | rfl | rfl <;> exact absurd blank (by decide)

/-- Blanks before an opening brace go on no pitch. -/
theorem stops_blanks_opening {gap : Text} (blank : Text.AllBlank gap) (rest : Text) :
    Text.Stops continuesPitch (gap ++ '{' :: rest) := by
  cases gap with
  | nil => exact Text.stops_cons.mpr rfl
  | cons c more =>
      exact Text.stops_cons.mpr (continuesPitch_of_isBlank (blank c List.mem_cons_self))

/-- One or more blanks go on no pitch. -/
theorem stops_blanks {gap : Text} (nonempty : gap ≠ []) (blank : Text.AllBlank gap) (rest : Text) :
    Text.Stops continuesPitch (gap ++ rest) := by
  obtain ⟨c, more, rfl⟩ := List.exists_cons_of_ne_nil nonempty
  exact Text.stops_cons.mpr (continuesPitch_of_isBlank (blank c List.mem_cons_self))

/-- A pitch ends every run of blanks before it. -/
theorem Pitch.stops_isBlank (pitch : Pitch) (rest : Text) :
    Text.Stops Text.isBlank (pitch.text ++ rest) :=
  Text.stops_cons.mpr (isBlank_of_isNoteLetter pitch.letter_note)

/-- The header of a transposed block: its two pitches and the blanks around them. -/
structure TransposeHeader where
  source : Pitch
  target : Pitch
  afterCommand : Text
  afterSource : Text
  afterTarget : Text
  afterCommand_nonempty : afterCommand ≠ []
  afterSource_nonempty : afterSource ≠ []
  afterCommand_blank : Text.AllBlank afterCommand
  afterSource_blank : Text.AllBlank afterSource
  afterTarget_blank : Text.AllBlank afterTarget

/-- The command that begins a transposed block. -/
def transposeCommand : Text := "\\transpose".toList

namespace TransposeHeader

/-- A header without its opening brace. -/
def front (header : TransposeHeader) : Text :=
  transposeCommand ++ (header.afterCommand ++ (header.source.text ++
    (header.afterSource ++ (header.target.text ++ header.afterTarget))))

/-- A header as it is written. -/
def text (header : TransposeHeader) : Text := header.front ++ ['{']

theorem text_append (header : TransposeHeader) (inside : Text) :
    header.text ++ inside = transposeCommand ++ (header.afterCommand ++ (header.source.text ++
      (header.afterSource ++ (header.target.text ++ (header.afterTarget ++ '{' :: inside))))) := by
  simp only [text, front, List.append_assoc, List.cons_append, List.nil_append]

/-- What no header holds before its brace. -/
theorem not_mem_front (header : TransposeHeader) {c : Char} (noCommand : c ∉ transposeCommand)
    (noBlank : Text.isBlank c = false) (noLetter : isNoteLetter c = false)
    (noSuffix : c ≠ 'i' ∧ c ≠ 's') (noMark : isOctaveMark c = false) : c ∉ header.front := by
  have noPitch : ∀ pitch : Pitch, c ∉ pitch.text := by
    intro pitch member
    exact pitch.ne_of_mem_text member noLetter noSuffix noMark rfl
  have noGap : ∀ gap, Text.AllBlank gap → c ∉ gap := by
    intro gap blank
    exact Text.not_mem_of_test blank noBlank
  simp only [front, List.mem_append, not_or]
  exact ⟨noCommand, noGap _ header.afterCommand_blank, noPitch _,
    noGap _ header.afterSource_blank, noPitch _, noGap _ header.afterTarget_blank⟩

theorem markerEdge_not_mem (header : TransposeHeader) : markerEdge ∉ header.text := by
  simp only [text, List.mem_append, not_or]
  exact ⟨header.not_mem_front (by decide) rfl rfl (by decide) rfl, by decide⟩

/-- A block with a header and a balanced body is balanced. -/
theorem balanced_block (header : TransposeHeader) {body : Text} (balanced : Balanced body) :
    Balanced (header.text ++ (body ++ ['}'])) := by
  have front : Balanced header.front :=
    balanced_of_no_brace (header.not_mem_front (by decide) rfl rfl (by decide) rfl)
      (header.not_mem_front (by decide) rfl rfl (by decide) rfl)
  have whole := front.append balanced.braces
  simpa [text] using whole

/-- A block is one text before what follows it. -/
theorem block_append (header : TransposeHeader) (body rest : Text) :
    header.text ++ (body ++ '}' :: rest) = header.text ++ (body ++ ['}']) ++ rest := by
  simp only [List.append_assoc, List.cons_append, List.nil_append]

theorem head_text (header : TransposeHeader) (rest : Text) :
    ∃ more, header.text ++ rest = '\\' :: more := ⟨_, rfl⟩

end TransposeHeader

/-- Every transposed block that is recognised has a header and a balanced body. -/
theorem exists_header_of_transposedBlockAt {before : Option Char} {text rest : Text}
    {block : TransposedBlock} (found : transposedBlockAt before text = some (block, rest)) :
    ∃ header : TransposeHeader, text = header.text ++ (block.body ++ '}' :: rest) ∧
      block.source = header.source.text ∧ block.target = header.target.text ∧
      Balanced block.body := by
  obtain ⟨sourceText, targetText, body⟩ := block
  simp only [transposedBlockAt, bind, Option.bind_eq_some_iff, pure, Option.some.injEq,
    Prod.mk.injEq] at found
  obtain ⟨afterWord, word, afterFirst, firstGap, ⟨source, afterSource⟩, sourceTaken, afterSecond,
    secondGap, ⟨target, afterTarget⟩, targetTaken, inside, opening, ⟨found, rest'⟩, split, same,
    rfl⟩ := found
  simp only [TransposedBlock.mk.injEq] at same
  obtain ⟨rfl, rfl, rfl⟩ := same
  have front₀ := Text.dropStart?_eq_some_iff.mp word
  obtain ⟨gap₁, nonempty₁, blank₁, front₁, -⟩ := Text.dropBlanks?_eq_some_iff.mp firstGap
  obtain ⟨sourcePitch, rfl, front₂, -⟩ := exists_pitch_of_takePitch? sourceTaken
  obtain ⟨gap₂, nonempty₂, blank₂, front₃, -⟩ := Text.dropBlanks?_eq_some_iff.mp secondGap
  obtain ⟨targetPitch, rfl, front₄, -⟩ := exists_pitch_of_takePitch? targetTaken
  obtain ⟨gap₃, blank₃, front₅⟩ := dropOpening?_eq_some_iff.mp opening
  obtain ⟨closed, balanced⟩ := splitBlock?_eq_some_iff.mp split
  dsimp only at front₃ front₅
  refine ⟨⟨sourcePitch, targetPitch, gap₁, gap₂, gap₃, nonempty₁, nonempty₂, blank₁, blank₂,
    blank₃⟩, ?_, sourcePitch.word_text, targetPitch.word_text, balanced⟩
  rw [TransposeHeader.text_append, front₀, front₁, front₂, front₃, front₄, front₅, closed]
  rfl

/-- After a header, a transposed block is recognised if the block closes. -/
theorem transposedBlockAt_append (before : Option Char) (header : TransposeHeader) (inside : Text) :
    transposedBlockAt before (header.text ++ inside) =
      (splitBlock? inside).map fun found =>
        (⟨header.source.text, header.target.text, found.1⟩, found.2) := by
  have opening : dropOpening? (header.afterTarget ++ '{' :: inside) = some inside :=
    dropOpening?_eq_some_iff.mpr ⟨_, header.afterTarget_blank, rfl⟩
  have targetTaken := takePitch?_append header.target
    (stops_blanks_opening header.afterTarget_blank inside)
  have secondGap := Text.dropBlanks?_eq_some_iff.mpr ⟨_, header.afterSource_nonempty,
    header.afterSource_blank, rfl,
    header.target.stops_isBlank (header.afterTarget ++ '{' :: inside)⟩
  have sourceTaken := takePitch?_append header.source (stops_blanks header.afterSource_nonempty
    header.afterSource_blank (header.target.text ++ (header.afterTarget ++ '{' :: inside)))
  have firstGap := Text.dropBlanks?_eq_some_iff.mpr ⟨_, header.afterCommand_nonempty,
    header.afterCommand_blank, rfl, header.source.stops_isBlank
      (header.afterSource ++ (header.target.text ++ (header.afterTarget ++ '{' :: inside)))⟩
  have word := Text.dropStart?_eq_some_iff.mpr (header.text_append inside)
  unfold transposedBlockAt
  change (Text.dropStart? transposeCommand _ >>= _) = _
  rw [word]
  simp only [bind, Option.bind_some, firstGap, sourceTaken, secondGap, targetTaken, opening,
    Pitch.word_text, pure]
  exact Option.map_eq_bind.symm

/-- A header, a balanced body and a closing brace are read back. -/
theorem transposedBlockAt_written (before : Option Char) (header : TransposeHeader) {body : Text}
    (balanced : Balanced body) (rest : Text) :
    transposedBlockAt before (header.text ++ (body ++ '}' :: rest)) =
      some (⟨header.source.text, header.target.text, body⟩, rest) := by
  rw [transposedBlockAt_append, splitBlock?_of_balanced balanced]
  rfl

/-- **Transposed blocks.** A transposed block is recognised exactly where a header, a balanced body
and a closing brace begin the text. -/
theorem transposedBlockAt_eq_some_iff {before : Option Char} {text rest : Text}
    {block : TransposedBlock} :
    transposedBlockAt before text = some (block, rest) ↔
      ∃ header : TransposeHeader, text = header.text ++ (block.body ++ '}' :: rest) ∧
        block.source = header.source.text ∧ block.target = header.target.text ∧
        Balanced block.body := by
  constructor
  · exact exists_header_of_transposedBlockAt
  · rintro ⟨header, rfl, source, target, balanced⟩
    rw [transposedBlockAt_written before header balanced, ← source, ← target]

end Clavier
