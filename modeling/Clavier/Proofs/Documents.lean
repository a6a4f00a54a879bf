import Clavier.Proofs.Braces
import Clavier.Proofs.Spellings
import Clavier.Proofs.Words
import Clavier.Score.Document

/-!
# Documents made of blocks

A document can be written block by block, one after the other, each on a line of its own:
definitions of variables, declarations of voices, and quoted fields. Every block begins with
a word and an equals sign, and has no other equals sign.

All that is looked for in a document begins with a word, blanks and an equals sign
(`AssignsAt`). Between two of these signs there is always the end of a line and the name of
the next block, so nothing begins inside a block or reaches across the border between two
(`not_assignsAt_stretch`). A scan of the whole document therefore finds what it finds at the
starts of the blocks, in their order (`Reads.items_writeBlocks`).
-/

set_option autoImplicit false

namespace Clavier

/-! ## Assignments -/

/-- A text that begins with a word, blanks and an equals sign; the value is what follows. -/
structure AssignsAt (text name value : Text) : Prop where
  nonempty : name ≠ []
  word : ∀ c ∈ name, Text.isWord c = true
  begins : ∃ gap, Text.AllBlank gap ∧ text = name ++ (gap ++ '=' :: value)

/-- Blanks and an equals sign end every word. -/
theorem stops_isWord_gap {gap : Text} (blank : Text.AllBlank gap) (value : Text) :
    Text.Stops Text.isWord (gap ++ '=' :: value) := by
  cases gap with
  | nil => exact Text.stops_cons.mpr isWord_equals
  | cons c more => exact Text.stops_cons.mpr (isWord_of_isBlank (blank c List.mem_cons_self))

namespace AssignsAt

variable {text name value : Text}

/-- The name of an assignment is the longest word that begins the text. -/
theorem splitWhile_isWord (assigns : AssignsAt text name value) :
    ∃ gap, Text.AllBlank gap ∧
      Text.splitWhile Text.isWord text = (name, gap ++ '=' :: value) := by
  obtain ⟨gap, blank, same⟩ := assigns.begins
  exact ⟨gap, blank, Text.splitWhile_eq_iff.mpr ⟨same, assigns.word, stops_isWord_gap blank value⟩⟩

/-- An assignment determines its name and its value. -/
theorem unique {name' value' : Text} (assigns : AssignsAt text name value)
    (assigns' : AssignsAt text name' value') : name = name' ∧ value = value' := by
  obtain ⟨gap, blank, split⟩ := assigns.splitWhile_isWord
  obtain ⟨gap', blank', split'⟩ := assigns'.splitWhile_isWord
  rw [split] at split'
  obtain ⟨rfl, rest⟩ := Prod.mk.inj split'
  have equals : ∀ value, Text.Stops Text.isBlank ('=' :: value) := fun value =>
    Text.stops_cons.mpr (by decide)
  have trimmed := Text.trimStart_append blank (equals value)
  have trimmed' := Text.trimStart_append blank' (equals value')
  rw [← rest, trimmed] at trimmed'
  exact ⟨rfl, (List.cons.inj trimmed').2⟩

/-- The first character of an assignment is a word character. -/
theorem head_isWord {c : Char} {rest : Text} (assigns : AssignsAt (c :: rest) name value) :
    Text.isWord c = true := by
  obtain ⟨gap, -, same⟩ := assigns.begins
  obtain ⟨d, more, rfl⟩ := List.exists_cons_of_ne_nil assigns.nonempty
  rw [(List.cons.inj same).1]
  exact assigns.word d List.mem_cons_self

end AssignsAt

theorem assignsAt_word (name : Word) (value : Text) :
    AssignsAt (name.text ++ ' ' :: '=' :: value) name.text value where
  nonempty := name.nonempty
  word := name.word
  begins := ⟨[' '], allBlank_space, rfl⟩

/-- What begins up to the equals sign of a line begins at no word character or with a word that ends
the name of the line. -/
theorem isWord_or_exists_word {line : Word} {c : Char} {more : Text}
    (place : c :: more <:+ line.text ++ [' ', '=']) :
    Text.isWord c = false ∨
      ∃ word : Word, word.text <:+ line.text ∧ c :: more = word.text ++ [' ', '='] := by
  obtain ⟨front, whole⟩ := place
  rcases List.append_eq_append_iff.mp whole with ⟨later, name, rest⟩ | ⟨later, -, rest⟩
  · cases later with
    | nil =>
        rw [(List.cons.inj rest).1]
        exact .inl isWord_space
    | cons d more' =>
        obtain ⟨rfl, -⟩ := List.cons.inj rest
        have suffix : c :: more' <:+ line.text := ⟨front, name.symm⟩
        exact .inr ⟨⟨c :: more', List.cons_ne_nil _ _,
          fun d member => line.word d (suffix.mem member)⟩, suffix, rest⟩
  · have sign : c ∈ [' ', '='] := rest ▸ List.mem_append_right _ List.mem_cons_self
    rcases List.mem_cons.mp sign with rfl | last
    · exact .inl isWord_space
    · exact .inl (List.mem_singleton.mp last ▸ isWord_equals)

/-- An assignment that begins up to the equals sign of a line is that of the line, to a word that
ends the name of the line. -/
theorem AssignsAt.of_line (line : Word) {c : Char} {more value name' value' : Text}
    (assigns : AssignsAt (c :: (more ++ value)) name' value')
    (place : c :: more <:+ line.text ++ [' ', '=']) :
    name' <:+ line.text ∧ c :: more = name' ++ [' ', '='] ∧ value' = value := by
  rcases isWord_or_exists_word place with noWord | ⟨word, suffix, here⟩
  · rw [assigns.head_isWord] at noWord
    cases noWord
  · rw [← List.cons_append, here, List.append_assoc] at assigns
    obtain ⟨rfl, rfl⟩ := assigns.unique (assignsAt_word word value)
    exact ⟨suffix, here, rfl⟩

/-- What may follow a block: the end of the document, or a new line with the next block. -/
inductive BeginsLine : Text → Prop where
  | done : BeginsLine []
  | line (name : Word) (value : Text) :
      BeginsLine ('\n' :: (name.text ++ ' ' :: '=' :: value))

/-- The first equals sign of a text splits it. -/
theorem splitWhile_equals {front : Text} (rest : Text) (clean : '=' ∉ front) :
    Text.splitWhile (· ≠ '=') (front ++ '=' :: rest) = (front, '=' :: rest) := by
  refine Text.splitWhile_eq_iff.mpr ⟨rfl, ?_, Text.stops_cons.mpr (by decide)⟩
  intro c member
  rw [decide_eq_true_eq]
  rintro rfl
  exact clean member

/-- A word and blanks have no equals sign. -/
theorem noEquals_word_gap {name gap : Text} (word : ∀ c ∈ name, Text.isWord c = true)
    (blank : Text.AllBlank gap) : '=' ∉ name ++ gap := by
  rw [List.mem_append, not_or]
  exact ⟨Text.not_mem_of_test word isWord_equals, Text.not_mem_of_test blank (by decide)⟩

/-- A word and the blanks after it hold no word of the next line: the end of the line is no word
character, and a word is not blank. -/
theorem line_ne_word_gap {name gap : Text} (word : ∀ c ∈ name, Text.isWord c = true)
    (blank : Text.AllBlank gap) (front : Text) (next : Word) (rest : Text) :
    front ++ '\n' :: (next.text ++ rest) ≠ name ++ gap := by
  intro same
  obtain ⟨c, others, nextText⟩ := List.exists_cons_of_ne_nil next.nonempty
  have notInGap : c ∉ gap := by
    intro inGap
    have noWord := isWord_of_isBlank (blank c inGap)
    rw [next.word c (nextText ▸ List.mem_cons_self)] at noWord
    cases noWord
  have inNext : c ∈ next.text ++ rest := by
    rw [nextText]
    exact List.mem_cons_self
  rcases List.append_eq_append_iff.mp same with ⟨tail, nameText, gapText⟩ | ⟨tail, -, gapText⟩
  · cases tail with
    | nil =>
        rw [List.nil_append] at gapText
        exact notInGap (gapText ▸ List.mem_cons_of_mem _ inNext)
    | cons d tail =>
        obtain ⟨rfl, -⟩ := List.cons.inj gapText
        have newline : '\n' ∈ name := by
          rw [nameText]
          exact List.mem_append_right _ List.mem_cons_self
        exact Text.not_mem_of_test word isWord_newline newline
  · rw [gapText] at notInGap
    exact notInGap (List.mem_append_right _ (List.mem_cons_of_mem _ inNext))

/-- **Borders between blocks.** In a stretch without equals signs before the next line no assignment
begins: the word before the next equals sign is on that line. -/
theorem not_assignsAt_stretch {c : Char} {more tail name value : Text} (clean : '=' ∉ c :: more)
    (line : BeginsLine tail) : ¬ AssignsAt (c :: more ++ tail) name value := by
  intro assigns
  obtain ⟨gap, blank, same⟩ := assigns.begins
  rw [← List.append_assoc] at same
  cases line with
  | done =>
      rw [List.append_nil] at same
      exact clean (same ▸ List.mem_append_right _ List.mem_cons_self)
  | line next nextValue =>
      have noSign : '=' ∉ c :: more ++ '\n' :: (next.text ++ [' ']) := by
        intro member
        rcases List.mem_append.mp member with before | after
        · exact clean before
        rcases List.mem_cons.mp after with newline | later
        · exact absurd newline (by decide)
        · exact noEquals_word_gap next.word allBlank_space later
      have whole : c :: more ++ '\n' :: (next.text ++ [' ']) ++ '=' :: nextValue =
          name ++ gap ++ '=' :: value := by
        rw [← same]
        simp only [List.append_assoc, List.cons_append, List.nil_append]
      have split := splitWhile_equals nextValue noSign
      rw [whole, splitWhile_equals value (noEquals_word_gap assigns.word blank)] at split
      exact line_ne_word_gap assigns.word blank _ next [' '] (Prod.mk.inj split).1.symm

/-! ## Blocks -/

/-- The text between the braces of a block. -/
structure BlockBody where
  text : Text
  balanced : Balanced text
  noEquals : '=' ∉ text
  noEdge : markerEdge ∉ text

/-- The text between the quotes of a field. -/
structure FieldValue where
  text : Text
  nonempty : text ≠ []
  noQuote : '"' ∉ text
  noEquals : '=' ∉ text
  noEdge : markerEdge ∉ text

/-- One of the two fields. -/
inductive Field where
  | title
  | composer
  deriving DecidableEq

/-- The name of a field. -/
def Field.name : Field → Text
  | .title => "title".toList
  | .composer => "composer".toList

/-- The command that begins a voice. -/
def relativeCommand : Text := "\\relative".toList

/-- A block of a document. -/
inductive Block where
  | definition (name : Word) (body : BlockBody)
  | voice (hand : Hand) (anchor : Pitch) (body : BlockBody)
  | quoted (field : Field) (value : FieldValue)

namespace Block

/-- The word that a block begins with. -/
def name : Block → Text
  | .definition name _ => name.text
  | .voice hand _ _ => hand.voiceName
  | .quoted field _ => field.name

/-- What stands after the equals sign of a block. -/
def value : Block → Text
  | .definition _ body => ' ' :: '{' :: (body.text ++ ['}'])
  | .voice _ anchor body =>
      ' ' :: (relativeCommand ++ ' ' :: (anchor.text ++ ' ' :: '{' :: (body.text ++ ['}'])))
  | .quoted _ value => ' ' :: '"' :: (value.text ++ ['"'])

/-- A block as it is written. -/
def text (block : Block) : Text := block.name ++ ' ' :: '=' :: block.value

theorem isWord_of_mem_voiceName {hand : Hand} {c : Char} (member : c ∈ hand.voiceName) :
    Text.isWord c = true := by
  have all : hand.voiceName.all Text.isWord = true := by
    cases hand <;> decide +kernel
  exact List.all_eq_true.mp all c member

theorem isWord_of_mem_fieldName {field : Field} {c : Char} (member : c ∈ field.name) :
    Text.isWord c = true := by
  have all : field.name.all Text.isWord = true := by
    cases field <;> decide +kernel
  exact List.all_eq_true.mp all c member

/-- The name of a block is a word. -/
def nameWord (block : Block) : Word where
  text := block.name
  nonempty := by
    cases block with
    | definition name _ => exact name.nonempty
    | voice hand _ _ => cases hand <;> exact List.cons_ne_nil _ _
    | quoted field _ => cases field <;> exact List.cons_ne_nil _ _
  word := fun _ member => by
    cases block with
    | definition name _ => exact name.word _ member
    | voice hand _ _ => exact isWord_of_mem_voiceName member
    | quoted field _ => exact isWord_of_mem_fieldName member

/-- A body in braces has no equals sign. -/
theorem noEquals_braces (body : BlockBody) : '=' ∉ ' ' :: '{' :: (body.text ++ ['}']) := by
  simp only [List.mem_cons, List.mem_append, List.not_mem_nil, or_false, not_or]
  exact ⟨by decide, by decide, body.noEquals, by decide⟩

/-- A block has no equals sign but the one after its name. -/
theorem noEquals_value (block : Block) : '=' ∉ block.value := by
  cases block with
  | definition name body =>
      rw [value]
      exact noEquals_braces body
  | voice hand anchor body =>
      have noPitch : '=' ∉ anchor.text := by
        intro member
        have differs : '=' ≠ '=' := anchor.ne_of_mem_text member rfl (by decide) rfl
        exact differs rfl
      have inBraces := noEquals_braces body
      rw [value, List.mem_cons, List.mem_append, List.mem_cons, List.mem_append, not_or, not_or,
        not_or, not_or]
      exact ⟨by decide, by decide, by decide, noPitch, inBraces⟩
  | quoted field value =>
      simp only [Block.value, List.mem_cons, List.mem_append, List.not_mem_nil, or_false, not_or]
      exact ⟨by decide, by decide, value.noEquals, by decide⟩

end Block

/-- Some blocks, each on a line of its own. -/
def writeBlocks (blocks : List Block) : Text := Text.joinWith ['\n'] (blocks.map Block.text)

/-- The lines that follow a block. -/
def laterLines : List Block → Text
  | [] => []
  | block :: rest => '\n' :: writeBlocks (block :: rest)

theorem writeBlocks_cons (block : Block) (rest : List Block) :
    writeBlocks (block :: rest) = block.text ++ laterLines rest := by
  cases rest with
  | nil => exact (List.append_nil _).symm
  | cons next others =>
      change block.text ++ ['\n'] ++ writeBlocks (next :: others) = _
      rw [List.append_assoc]
      rfl

theorem beginsLine_laterLines (blocks : List Block) : BeginsLine (laterLines blocks) := by
  cases blocks with
  | nil => exact .done
  | cons block rest =>
      have line := BeginsLine.line block.nameWord (block.value ++ laterLines rest)
      rw [laterLines, writeBlocks_cons, Block.text, List.append_assoc]
      exact line

/-! ## What is read off the blocks -/

/-- A recogniser that finds an assignment of one kind at the start of a block and nothing else: of
what it finds there, `value` is what the block says by itself. -/
structure Reads {α β : Type} (recognise : Text.Recogniser α) (value : α → Option β)
    (content : Block → Option β) : Prop where
  assigns : ∀ {before text found}, recognise before text = some found →
    ∃ name value, AssignsAt text name value
  newline : ∀ text, recognise (some '\n') text = recognise none text
  here : ∀ {block found}, content block = some found → ∀ tail, ∃ item taken run,
    block.text = taken ++ run ∧ taken ≠ [] ∧ '=' ∉ run ∧
      recognise none (block.text ++ tail) = some (item, run ++ tail) ∧ value item = some found
  nowhere : ∀ {block}, content block = none → ∀ (name : Word), name.text <:+ block.name →
    ∀ before tail, recognise before (name.text ++ ' ' :: '=' :: (block.value ++ tail)) = none

namespace Reads

variable {α β : Type} {recognise : Text.Recogniser α} {value : α → Option β}
variable {content : Block → Option β} (reads : Reads recognise value content)
include reads

/-- Nothing begins at a character that is no word character. -/
theorem none_of_not_isWord {c : Char} (noWord : Text.isWord c = false) (before : Option Char)
    (rest : Text) : recognise before (c :: rest) = none := by
  cases found : recognise before (c :: rest) with
  | none => rfl
  | some item =>
      obtain ⟨name, value, assigns⟩ := reads.assigns found
      rw [assigns.head_isWord] at noWord
      cases noWord

/-- Nothing begins in a stretch without equals signs before the next line. -/
theorem none_in_stretch {run tail : Text} (clean : '=' ∉ run) (line : BeginsLine tail)
    (before : Option Char) (c : Char) (more : Text) (place : c :: more <:+ run) :
    recognise before (c :: (more ++ tail)) = none := by
  cases found : recognise before (c :: (more ++ tail)) with
  | none => rfl
  | some item =>
      obtain ⟨name, value, assigns⟩ := reads.assigns found
      exact absurd assigns (not_assignsAt_stretch (fun member => clean (place.mem member)) line)

/-- Nothing begins in a block that says nothing of this kind. -/
theorem none_in_block {block : Block} (silent : content block = none) {tail : Text}
    (line : BeginsLine tail) (before : Option Char) (c : Char) (more : Text)
    (place : c :: more <:+ block.text) : recognise before (c :: (more ++ tail)) = none := by
  have whole : block.text = block.nameWord.text ++ [' ', '='] ++ block.value :=
    (List.append_assoc block.name [' ', '='] block.value).symm
  obtain ⟨front, same⟩ := place
  rw [whole] at same
  rcases List.append_eq_append_iff.mp same with ⟨later, name, rest⟩ | ⟨later, -, rest⟩
  · cases later with
    | nil => exact reads.none_in_stretch block.noEquals_value line before c more ⟨[], rest⟩
    | cons d more' =>
        obtain ⟨rfl, rfl⟩ := List.cons.inj rest
        rcases isWord_or_exists_word ⟨front, name.symm⟩ with noWord | ⟨word, suffix, here⟩
        · exact reads.none_of_not_isWord noWord before _
        · have missing := reads.nowhere silent word suffix before tail
          change recognise before ((c :: more') ++ block.value ++ tail) = none
          rw [here, List.append_assoc, List.append_assoc]
          exact missing
  · exact reads.none_in_stretch block.noEquals_value line before c more ⟨later, rest.symm⟩

/-- The items of the lines that follow a block are the items of the blocks on them. -/
theorem items_laterLines (before : Option Char) (blocks : List Block) :
    (Text.piecesFrom recognise before 0 (laterLines blocks)).filterMap Text.Piece.item? =
      Text.items recognise (writeBlocks blocks) := by
  cases blocks with
  | nil => rfl
  | cons block rest =>
      rw [laterLines, Text.piecesFrom_of_none (reads.none_of_not_isWord isWord_newline before _),
        Text.piecesFrom_before (reads.newline _)]
      rfl

/-- The items of a stretch before the next line are the items of that line and those after it. -/
theorem items_stretch {run : Text} {blocks : List Block} (before : Option Char)
    (missing : ∀ before c more, c :: more <:+ run →
      recognise before (c :: (more ++ laterLines blocks)) = none) :
    (Text.piecesFrom recognise before 0 (run ++ laterLines blocks)).filterMap Text.Piece.item? =
      Text.items recognise (writeBlocks blocks) := by
  rw [Text.piecesFrom_append_plain before missing, List.filterMap_append,
    Text.filterMap_item?_stretch, List.nil_append, reads.items_laterLines]

/-- **Reading a document.** A scan of a document finds what its blocks say, in their order. -/
theorem items_writeBlocks (blocks : List Block) :
    (Text.items recognise (writeBlocks blocks)).map value =
      (blocks.filterMap content).map some := by
  induction blocks with
  | nil => rfl
  | cons block rest ih =>
      have line := beginsLine_laterLines rest
      cases said : content block with
      | none =>
          have silent := reads.items_stretch none (reads.none_in_block said line)
          rw [writeBlocks_cons, Text.items, Text.pieces, silent, ih, List.filterMap_cons_none said]
      | some found =>
          obtain ⟨item, taken, run, whole, nonempty, clean, here, same⟩ :=
            reads.here said (laterLines rest)
          obtain ⟨c, more, rfl⟩ := List.exists_cons_of_ne_nil nonempty
          rw [whole, List.append_assoc] at here
          rw [writeBlocks_cons, whole, List.append_assoc, Text.items, Text.pieces,
            Text.piecesFrom_of_item here, List.filterMap_cons_some said, List.map_cons, ← ih,
            ← same, ← reads.items_stretch _ (reads.none_in_stretch clean line)]
          rfl

end Reads

end Clavier
