import Clavier.Proofs.Comments
import Clavier.Proofs.Inlining
import Mathlib.Data.Fintype.Card
import Mathlib.Data.Set.Finite.List
import Mathlib.Logic.Relation

/-!
# Voices of inlined notes

The references that can be reached from a program are those of the program, those of the
programs that it refers to, and so on. When all of them are known and none can be reached
from itself, reaching is a well-founded order on the finitely many names, so the program has
a nesting height (`exists_nests_of_acyclic`) and its notes can be inlined (`Nests.exists_inlines`).

Notes and blanks are nothing that cleaning a voice removes (`Plays.cleanVoice_eq`), so a scan of
the expanded program finds the inlined notes (`scan_expand_print`).
-/

set_option autoImplicit false

namespace Clavier

/-! ## References that can be reached -/

/-- The names that a program refers to, also inside of blocks. -/
def Program.references : Program → List Text
  | .empty => []
  | .note _ rest => rest.references
  | .reference name rest => name.text :: rest.references
  | .block _ _ body rest => body.references ++ rest.references

namespace Library

variable (library : Library)

/-- The program of a name refers to another name. -/
def Refers (name other : Text) : Prop :=
  ∃ program, library.program? name = some program ∧ other ∈ program.references

/-- A name can be reached from a program. -/
def Reaches (body : Program) (name : Text) : Prop :=
  ∃ first ∈ body.references, Relation.ReflTransGen library.Refers first name

/-- The names that can be reached from a program. -/
def Reached (body : Program) : Type := { name : Text // library.Reaches body name }

/-- A reached name is below another one when it can be reached from it. -/
def Below (body : Program) (name other : library.Reached body) : Prop :=
  Relation.TransGen library.Refers other.1 name.1

end Library

section Heights

variable {library : Library}

/-- A program has a nesting height if the programs that it refers to have one. -/
theorem exists_nests {program : Program}
    (inside : ∀ name ∈ program.references, ∃ inner height,
      library.program? name = some inner ∧ Nests library inner height) :
    ∃ height, Nests library program height := by
  induction program with
  | empty => exact ⟨0, .empty⟩
  | note written rest ih =>
      obtain ⟨height, later⟩ := ih inside
      exact ⟨height, .note later⟩
  | reference name rest ih =>
      obtain ⟨inner, innerHeight, known, nests⟩ := inside name.text List.mem_cons_self
      obtain ⟨height, later⟩ := ih fun other member => inside other (List.mem_cons_of_mem _ member)
      exact ⟨_, .reference known nests later⟩
  | block source target body rest bodyIh restIh =>
      obtain ⟨inner, nests⟩ := bodyIh fun name member =>
        inside name (List.mem_append_left _ member)
      obtain ⟨height, later⟩ := restIh fun name member =>
        inside name (List.mem_append_right _ member)
      exact ⟨_, .block nests later⟩

theorem mem_of_program? {name : Text} {program : Program}
    (known : library.program? name = some program) : name ∈ library.map Prod.fst := by
  exact List.mem_map.mpr ⟨_, Variables.mem_of_lookup known, rfl⟩

/-- **Heights without cycles.** Where every name that can be reached is known and cannot be reached
from itself, a program has a nesting height: the induction is along the references between the
finitely many names. -/
theorem exists_nests_of_acyclic {body : Program}
    (known : ∀ name, library.Reaches body name → ∃ program, library.program? name = some program)
    (acyclic : ∀ name, library.Reaches body name →
      ¬ Relation.TransGen library.Refers name name) :
    ∃ height, Nests library body height := by
  have finite : Finite (library.Reached body) := by
    apply Set.Finite.subset (List.finite_toSet (library.map Prod.fst))
    intro name reached
    obtain ⟨program, found⟩ := known name reached
    exact mem_of_program? found
  have transitive : IsTrans _ (library.Below body) := ⟨fun _ _ _ first second => second.trans first⟩
  have irreflexive : Std.Irrefl (library.Below body) := ⟨fun name => acyclic name.1 name.2⟩
  have wellFounded := Finite.wellFounded_of_trans_of_irrefl (library.Below body)
  have heights : ∀ name : library.Reached body,
      ∃ program height, library.program? name.1 = some program ∧ Nests library program height := by
    intro name
    induction name using wellFounded.induction with
    | _ name ih =>
        obtain ⟨program, found⟩ := known name.1 name.2
        have inside : ∀ other ∈ program.references, ∃ inner height,
            library.program? other = some inner ∧ Nests library inner height := by
          intro other member
          obtain ⟨first, start, path⟩ := name.2
          have refers : library.Refers name.1 other := ⟨program, found, member⟩
          exact ih ⟨other, first, start, path.tail refers⟩ (.single refers)
        obtain ⟨height, nests⟩ := exists_nests inside
        exact ⟨program, height, found, nests⟩
  exact exists_nests fun name member => heights ⟨name, name, member, .refl⟩

/-- Every program with a nesting height has its notes inlined. -/
theorem Nests.exists_inlines {program : Program} {height : Nat}
    (nests : Nests library program height) (shift : Int) :
    ∃ notes, Inlines library shift program notes := by
  induction nests generalizing shift with
  | empty => exact ⟨[], .empty⟩
  | note later ih =>
      obtain ⟨notes, inlines⟩ := ih shift
      exact ⟨_, .note inlines⟩
  | reference known inside later insideIh laterIh =>
      obtain ⟨inner, inlinesInside⟩ := insideIh shift
      obtain ⟨notes, inlines⟩ := laterIh shift
      exact ⟨_, .reference known inlinesInside inlines⟩
  | block inside later insideIh laterIh =>
      obtain ⟨inner, inlinesInside⟩ := insideIh _
      obtain ⟨notes, inlines⟩ := laterIh shift
      exact ⟨_, .block inlinesInside inlines⟩

/-- Inlining from a higher shift raises every note by as much. -/
theorem Inlines.shifted {shift : Int} {program : Program} {notes : List (WrittenNote × Int)}
    (inlines : Inlines library shift program notes) (offset : Int) :
    Inlines library (offset + shift) program (notes.map fun note => (note.1, offset + note.2)) := by
  induction inlines with
  | empty => exact .empty
  | note _ ih => exact .note ih
  | reference known _ _ insideIh laterIh =>
      rw [List.map_append]
      exact .reference known insideIh laterIh
  | block _ _ insideIh laterIh =>
      rw [List.map_append]
      rw [← Int.add_assoc] at insideIh
      exact .block insideIh laterIh

end Heights

/-! ## Scanning what is played -/

section Cleaning

variable {c : Char}

/-- Only a backslash begins a command. -/
theorem commandAt_of_ne (other : c ≠ '\\') (before : Option Char) (more : Text) :
    commandAt before (c :: more) = none := by
  unfold commandAt
  split
  · rename_i same
    exact absurd (List.cons.inj same).1 other
  · rfl

theorem clefAt_of_ne (other : c ≠ '\\') (before : Option Char) (more : Text) :
    clefAt before (c :: more) = none := by
  have missing : Text.dropStart? "\\clef".toList (c :: more) = none := if_neg other
  simp only [clefAt, missing, bind, Option.bind_none]

theorem numericCommandAt_of_ne (other : c ≠ '\\') (before : Option Char) (more : Text) :
    numericCommandAt before (c :: more) = none := by
  simp only [numericCommandAt, commandAt_of_ne other, bind, Option.bind_none]

/-- Cleaning a voice without comments and commands removes its markers. -/
theorem cleanVoice_of_no_command {text : Text} (noComment : '%' ∉ text) (noCommand : '\\' ∉ text) :
    cleanVoice text = text.filter fun c => !isMarker c := by
  have comments : Text.without commentAt text = text := by
    apply Text.without_eq
    intro before c more member
    exact commentAt_of_ne (ne_of_mem_of_not_mem member noComment) before more
  have clefs : Text.without clefAt text = text := by
    apply Text.without_eq
    intro before c more member
    exact clefAt_of_ne (ne_of_mem_of_not_mem member noCommand) before more
  have numbers : Text.without numericCommandAt text = text := by
    apply Text.without_eq
    intro before c more member
    exact numericCommandAt_of_ne (ne_of_mem_of_not_mem member noCommand) before more
  have commands : Text.without commandAt text = text := by
    apply Text.without_eq
    intro before c more member
    exact commandAt_of_ne (ne_of_mem_of_not_mem member noCommand) before more
  simp only [cleanVoice, comments, clefs, numbers, commands]

/-- A text without markers keeps all its characters. -/
theorem filter_isMarker {text : Text} (noMarker : ∀ c ∈ text, isMarker c = false) :
    text.filter (fun c => !isMarker c) = text := by
  apply List.filter_eq_self.mpr
  intro c member
  rw [noMarker c member]
  rfl

/-- Cleaning a voice without comments, commands and markers removes nothing. -/
theorem cleanVoice_of_not_mem {text : Text} (noComment : '%' ∉ text) (noCommand : '\\' ∉ text)
    (noMarker : ∀ c ∈ text, isMarker c = false) : cleanVoice text = text := by
  rw [cleanVoice_of_no_command noComment noCommand, filter_isMarker noMarker]

end Cleaning

namespace Plays

variable {text : Text} {notes : List (WrittenNote × Int)}

theorem not_mem {c : Char} (plays : Plays text notes) (separates : separatesNotes c = true)
    (other : c ≠ ' ') : c ∉ text := by
  intro member
  rcases plays.plain c member with blank | inside
  · exact other blank
  · rw [separates] at inside
    cases inside

/-- Cleaning a voice removes no notes and no blanks. -/
theorem cleanVoice_eq (plays : Plays text notes) : cleanVoice text = text := by
  apply cleanVoice_of_not_mem
  · exact plays.not_mem (by decide +kernel) (by decide)
  · exact plays.not_mem separatesNotes_backslash (by decide)
  · intro c member
    cases marker : isMarker c with
    | false => rfl
    | true =>
        simp only [isMarker, Bool.or_eq_true, decide_eq_true_eq] at marker
        rcases marker with (rfl | rfl) | rfl
        all_goals exact absurd member (plays.not_mem (by decide +kernel) (by decide))

/-- A scan of a text that plays notes finds them, moved and with their fingerings. -/
theorem scanVoice_eq (plays : Plays text notes) :
    scanVoice text = notes.map fun note => (note.1.move note.2).word := by
  rw [scanVoice, plays.cleanVoice_eq]
  exact plays.items

end Plays

/-- A note word that has been found is a written note, higher by an offset and its own interval, and
with its own fingering. -/
def Heard (offset : Int) (found : NoteWord) (note : WrittenNote × Int) : Prop :=
  semitones found.text = semitones note.1.word.text + offset + note.2 ∧
    found.fingering = note.1.word.fingering

/-- **Scanning an expanded program.** Where every name that can be reached from a program is known
and cannot be reached from itself, the program has a nesting height, and its notes can be inlined.
With any offset and any budget above the height, expanding the printed program and scanning
the result finds exactly the inlined notes in their order: each is higher than it is spelled by
the offset and the intervals of the blocks around it, and keeps its fingering. -/
theorem scan_expand_print (library : Library) (body : Program)
    (known : ∀ name, library.Reaches body name → ∃ program, library.program? name = some program)
    (acyclic : ∀ name, library.Reaches body name →
      ¬ Relation.TransGen library.Refers name name) :
    (∃ height, Nests library body height) ∧ (∃ notes, Inlines library 0 body notes) ∧
      ∀ (height : Nat) (notes : List (WrittenNote × Int)), Nests library body height →
        Inlines library 0 body notes → ∀ (offset : Int) (budget : Nat), height < budget →
        ∃ text, expand library.table budget offset body.print = .ok text ∧
          List.Forall₂ (Heard offset) (scanVoice text) notes := by
  obtain ⟨height, nests⟩ := exists_nests_of_acyclic known acyclic
  refine ⟨⟨height, nests⟩, nests.exists_inlines 0, ?_⟩
  intro height notes nests inlines offset budget below
  have shifted := inlines.shifted offset
  rw [Int.add_zero] at shifted
  obtain ⟨text, expanded, plays⟩ := shifted.expands nests below body.print (.inl rfl)
  refine ⟨text, expanded, ?_⟩
  rw [plays.scanVoice_eq, List.map_map, List.forall₂_map_left_iff, List.forall₂_same]
  intro note _
  constructor
  · change semitones (note.1.move (offset + note.2)).word.text = _
    rw [semitones_word, semitones_word, WrittenNote.height_move, Int.add_assoc]
  · change (note.1.move (offset + note.2)).word.fingering = _
    rw [WrittenNote.word, WrittenNote.ending_move]
    rfl

/-! ### A reference inside of a block -/

/-- A pitch without accidental and octave marks. -/
def Pitch.natural (letter : Char) (known : isNoteLetter letter = true) : Pitch where
  letter := letter
  accidental := []
  octaves := []
  letter_note := known
  accidental_known := natural_known
  octaves_marks := fun _ member => absurd member List.not_mem_nil

/-- A name of one letter. -/
def Word.single (letter : Char) (word : Text.isWord letter = true) : Word where
  text := [letter]
  nonempty := List.cons_ne_nil _ _
  word := fun c member => by rwa [List.mem_singleton.mp member]

/-- The notes that the programs below have. -/
def noteC : WrittenNote := ⟨.natural 'c' isNoteLetter_c, .bare⟩

def noteD : WrittenNote := ⟨.natural 'd' rfl, .bare⟩

/-- Two programs, the first of which refers to the second. -/
def twoPrograms : Library :=
  [ (['x'], .note noteD (.reference (.single 'y' (by decide)) .empty)),
    (['y'], .note noteC .empty) ]

/-- A block with the first program, and the second program after it. -/
def blockThenReference : Program :=
  .block noteC.pitch noteD.pitch (.reference (.single 'x' (by decide)) .empty)
    (.reference (.single 'y' (by decide)) .empty)

theorem twoPrograms_refers {name other : Text} (refers : twoPrograms.Refers name other) :
    name = ['x'] ∧ other = ['y'] := by
  obtain ⟨program, known, member⟩ := refers
  have entry : (name, program) ∈ twoPrograms := Variables.mem_of_lookup known
  simp only [twoPrograms, List.mem_cons, Prod.mk.injEq, List.not_mem_nil, or_false] at entry
  rcases entry with ⟨rfl, rfl⟩ | ⟨rfl, rfl⟩
  · exact ⟨rfl, List.mem_singleton.mp member⟩
  · cases member

theorem inlines_y (shift : Int) :
    Inlines twoPrograms shift (.reference (.single 'y' (by decide)) .empty) [(noteC, shift)] :=
  .reference rfl (.note .empty) .empty

theorem nests_y : Nests twoPrograms (.reference (.single 'y' (by decide)) .empty) 1 :=
  .reference rfl (.note .empty) .empty

/-- The block moves the notes of both programs, and the reference after it moves nothing. -/
theorem scan_expand_print_twoPrograms :
    ∃ text, expand twoPrograms.table 4 5 blockThenReference.print = .ok text ∧
      List.Forall₂ (Heard 5) (scanVoice text) [(noteD, 2), (noteC, 2), (noteC, 0)] := by
  have known : ∀ name, twoPrograms.Reaches blockThenReference name →
      ∃ program, twoPrograms.program? name = some program := by
    rintro name ⟨first, start, path⟩
    have reached : name = ['x'] ∨ name = ['y'] := by
      rcases Relation.ReflTransGen.cases_tail path with rfl | ⟨before, -, step⟩
      · simpa [blockThenReference, Program.references, Word.single] using start
      · exact .inr (twoPrograms_refers step).2
    rcases reached with rfl | rfl <;> exact ⟨_, rfl⟩
  have acyclic : ∀ name, twoPrograms.Reaches blockThenReference name →
      ¬ Relation.TransGen twoPrograms.Refers name name := by
    intro name _ cycle
    obtain ⟨next, first, -⟩ := Relation.TransGen.head'_iff.mp cycle
    obtain ⟨before, -, last⟩ := Relation.TransGen.tail'_iff.mp cycle
    have start := (twoPrograms_refers first).1
    rw [(twoPrograms_refers last).2] at start
    exact absurd start (by decide)
  have interval : (0 : Int) + transpositionInterval noteC.pitch.text noteD.pitch.text = 2 := by
    decide
  have height : Nests twoPrograms blockThenReference 3 :=
    .block (.reference rfl (.note nests_y) .empty) nests_y
  have inside : Inlines twoPrograms (0 + transpositionInterval noteC.pitch.text noteD.pitch.text)
      (.reference (.single 'x' (by decide)) .empty) [(noteD, 2), (noteC, 2)] := by
    rw [interval]
    exact .reference rfl (.note (inlines_y 2)) .empty
  have notes : Inlines twoPrograms 0 blockThenReference [(noteD, 2), (noteC, 2), (noteC, 0)] :=
    .block inside (inlines_y 0)
  exact (scan_expand_print twoPrograms blockThenReference known acyclic).2.2 3 _ height notes 5 4
    (by decide)

end Clavier
