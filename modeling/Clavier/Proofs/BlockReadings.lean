import Clavier.Proofs.Documents
import Clavier.Proofs.Headers
import Mathlib.Tactic.ByContra

/-!
# What the scans read off blocks

The definitions, the voices and the fields of a document are looked for in separate scans.
Each of them is a reading of blocks: it begins at assignments only, takes what a block of its
own kind says, and finds nothing in any other block (`reads_definitions`, `reads_voices`,
`reads_fields`).

What tells the kinds apart is the sign after the equals sign (`Block.sign`) and, for voices
and fields, the name, because no name of a hand or a field ends another one
(`voiceName_suffix`, `fieldName_suffix`).
-/

set_option autoImplicit false

namespace Clavier

namespace BlockBody

/-- The closing brace of a block is found. -/
theorem splitBlock?_text (body : BlockBody) (tail : Text) :
    splitBlock? (body.text ++ ['}'] ++ tail) = some (body.text, tail) := by
  rw [List.append_assoc]
  exact splitBlock?_of_balanced body.balanced tail

theorem noEquals_closing (body : BlockBody) : '=' ∉ body.text ++ ['}'] := by
  rw [List.mem_append, not_or]
  exact ⟨body.noEquals, by decide⟩

end BlockBody

/-! ## Definitions -/

/-- What a definition adds to the table. -/
def Block.defined? : Block → Option (Text × Text)
  | .definition name body => some (name.text, Text.trim body.text)
  | _ => none

theorem Block.defined?_eq_some_iff {block : Block} {entry : Text × Text} :
    block.defined? = some entry ↔
      ∃ name body, block = .definition name body ∧ entry = (name.text, Text.trim body.text) := by
  constructor
  · intro said
    cases block with
    | definition name body => cases said; exact ⟨name, body, rfl, rfl⟩
    | voice _ _ _ => cases said
    | quoted _ _ => cases said
  · rintro ⟨name, body, rfl, rfl⟩
    rfl

/-- The entry of a definition that has been found. -/
def foundDefinition? (found : Text × Text) : Option (Text × Text) :=
  (splitBlock? found.2).map fun block => (found.1, Text.trim block.1)

/-- A definition is found exactly where an assignment begins whose value is a block. -/
theorem definitionAt_of_assignsAt {text name value : Text} (assigns : AssignsAt text name value)
    (before : Option Char) : Variables.definitionAt before text =
      (dropOpening? value).map fun inside => ((name, inside), inside) := by
  obtain ⟨gap, blank, split⟩ := assigns.splitWhile_isWord
  obtain ⟨c, more, same⟩ := List.exists_cons_of_ne_nil assigns.nonempty
  have trimmed : Text.trimStart (gap ++ '=' :: value) = '=' :: value :=
    Text.trimStart_append blank (Text.stops_cons.mpr (by decide))
  subst same
  simp only [Variables.definitionAt, split, trimmed]

theorem assignsAt_of_definitionAt {before : Option Char} {text : Text}
    {found : (Text × Text) × Text} (here : Variables.definitionAt before text = some found) :
    ∃ name value, AssignsAt text name value := by
  obtain ⟨name, rest, split⟩ : ∃ name rest,
      Text.splitWhile Text.isWord text = (name, rest) := ⟨_, _, rfl⟩
  obtain ⟨whole, word, -⟩ := Text.splitWhile_eq_iff.mp split
  simp only [Variables.definitionAt, split] at here
  cases name with
  | nil => cases here
  | cons c more =>
      dsimp only at here
      split at here
      · rename_i value trimmed
        obtain ⟨gap, blank, same, -⟩ := Text.exists_gap_of_trimStart rest
        rw [trimmed] at same
        exact ⟨c :: more, value, List.cons_ne_nil _ _, word, gap, blank, by rw [whole, same]⟩
      · cases here

/-- The value of a block begins with its own sign, after one blank. -/
def Block.sign : Block → Char
  | .definition _ _ => '{'
  | .voice _ _ _ => '\\'
  | .quoted _ _ => '"'

theorem Block.trimStart_value (block : Block) (tail : Text) :
    ∃ rest, Text.trimStart (block.value ++ tail) = block.sign :: rest := by
  have trimmed : ∀ sign rest, Text.isBlank sign = false →
      Text.trimStart ([' '] ++ sign :: rest) = sign :: rest := fun sign rest noBlank =>
    Text.trimStart_append allBlank_space (Text.stops_cons.mpr noBlank)
  cases block with
  | definition name body => exact ⟨_, trimmed '{' _ rfl⟩
  | voice hand anchor body => exact ⟨_, trimmed '\\' _ rfl⟩
  | quoted field value => exact ⟨_, trimmed '"' _ rfl⟩

/-- A block is opened right after the equals sign of a definition only. -/
theorem Block.dropOpening?_value {block : Block} (other : block.sign ≠ '{') (tail : Text) :
    dropOpening? (block.value ++ tail) = none := by
  obtain ⟨rest, trimmed⟩ := block.trimStart_value tail
  unfold dropOpening?
  rw [trimmed]
  split
  · rename_i same
    exact absurd (List.cons.inj same).1 other
  · rfl

theorem reads_definitions : Reads Variables.definitionAt foundDefinition? Block.defined? where
  assigns := assignsAt_of_definitionAt
  newline := fun _ => rfl
  here := by
    intro block found said tail
    obtain ⟨name, body, rfl, rfl⟩ := Block.defined?_eq_some_iff.mp said
    have opened : dropOpening? (' ' :: '{' :: (body.text ++ ['}'] ++ tail)) =
        some (body.text ++ ['}'] ++ tail) :=
      dropOpening?_eq_some_iff.mpr ⟨[' '], allBlank_space, rfl⟩
    have closes : splitBlock? (body.text ++ ['}'] ++ tail) = some (body.text, tail) :=
      body.splitBlock?_text tail
    have whole := definitionAt_of_assignsAt
      (assignsAt_word name (' ' :: '{' :: (body.text ++ ['}'] ++ tail))) none
    rw [opened] at whole
    refine ⟨(name.text, body.text ++ ['}'] ++ tail), name.text ++ [' ', '=', ' ', '{'],
      body.text ++ ['}'], ?_, by simp, body.noEquals_closing, ?_, ?_⟩
    · simp [Block.text, Block.name, Block.value]
    · simpa [Block.text, Block.name, Block.value] using whole
    · rw [foundDefinition?, closes]
      rfl
  nowhere := by
    intro block silent name _ before tail
    have other : block.sign ≠ '{' := by
      cases block with
      | definition _ _ => cases silent
      | voice _ _ _ => exact (by decide : '\\' ≠ '{')
      | quoted _ _ => exact (by decide : '"' ≠ '{')
    rw [definitionAt_of_assignsAt (assignsAt_word name _) before, block.dropOpening?_value other]
    rfl

/-! ## Voices -/

/-- The anchor and the body of a voice block of a hand. -/
def Block.voice? (hand : Hand) : Block → Option (Text × Text)
  | .voice declared anchor body => if declared = hand then some (anchor.text, body.text) else none
  | _ => none

theorem Block.voice?_eq_some_iff {block : Block} {hand : Hand} {found : Text × Text} :
    block.voice? hand = some found ↔
      ∃ anchor body, block = .voice hand anchor body ∧ found = (anchor.text, body.text) := by
  constructor
  · intro said
    cases block with
    | definition _ _ => cases said
    | quoted _ _ => cases said
    | voice declared anchor body =>
        by_cases same : declared = hand
        · subst same
          rw [voice?, if_pos rfl] at said
          cases said
          exact ⟨anchor, body, rfl, rfl⟩
        · rw [voice?, if_neg same] at said
          cases said
  · rintro ⟨anchor, body, rfl, rfl⟩
    exact if_pos rfl

/-- The anchor and the body of a voice that has been found. -/
def declaredBody? (found : Text × Text) : Option (Text × Text) :=
  (splitBlock? found.2).map fun block => (found.1, block.1)

/-- The name of one hand is no part of the name of the other. -/
theorem voiceName_suffix {hand declared : Hand} (suffix : hand.voiceName <:+ declared.voiceName) :
    declared = hand := by
  have apart : ∀ hand declared : Hand, hand ≠ declared →
      ¬ hand.voiceName <:+ declared.voiceName := by
    intro hand declared differ
    cases hand <;> cases declared <;> first | exact absurd rfl differ | decide
  by_cases same : hand = declared
  · exact same.symm
  · exact absurd suffix (apart hand declared same)

/-- A voice header is read back. -/
theorem relativeAt_written (anchor : Pitch) (inside : Text) :
    relativeAt none (relativeCommand ++ ' ' :: (anchor.text ++ ' ' :: '{' :: inside)) =
      some ((anchor.text, inside), inside) := by
  have command : Text.dropStart? relativeCommand
      (relativeCommand ++ ' ' :: (anchor.text ++ ' ' :: '{' :: inside)) =
      some (' ' :: (anchor.text ++ ' ' :: '{' :: inside)) := Text.dropStart?_eq_some_iff.mpr rfl
  have gap := Text.dropBlanks?_eq_some_iff.mpr ⟨[' '], List.cons_ne_nil _ _, allBlank_space, rfl,
    anchor.stops_isBlank (' ' :: '{' :: inside)⟩
  have pitch : takePitch? (anchor.text ++ ' ' :: '{' :: inside) =
      some (anchor.word, ' ' :: '{' :: inside) :=
    takePitch?_append anchor (stops_blanks_opening allBlank_space inside)
  have opened : dropOpening? (' ' :: '{' :: inside) = some inside :=
    dropOpening?_eq_some_iff.mpr ⟨[' '], allBlank_space, rfl⟩
  unfold relativeAt
  change (Text.dropStart? relativeCommand _ >>= _) = _
  rw [command]
  simp only [List.cons_append, List.nil_append] at gap
  simp only [bind, Option.bind_some, gap, pitch, opened, pure, Pitch.word_text]

theorem relativeAt_of_ne {c : Char} (other : c ≠ '\\') (rest : Text) :
    relativeAt none (c :: rest) = none := by
  have missing : Text.dropStart? relativeCommand (c :: rest) = none := if_neg other
  unfold relativeAt
  change (Text.dropStart? relativeCommand _ >>= _) = _
  rw [missing]
  rfl

/-- A declaration is read back at the start of a line. -/
theorem declarationAt_written (hand : Hand) (anchor : Pitch) (inside : Text) :
    declarationAt hand none (hand.voiceName ++ ' ' :: '=' :: ' ' ::
      (relativeCommand ++ ' ' :: (anchor.text ++ ' ' :: '{' :: inside))) =
      some ((anchor.text, inside), inside) := by
  have header := relativeAt_written anchor inside
  generalize relativeCommand ++ ' ' :: (anchor.text ++ ' ' :: '{' :: inside) = text at header ⊢
  have name : Text.dropStart? hand.voiceName (hand.voiceName ++ ' ' :: '=' :: ' ' :: text) =
      some (' ' :: '=' :: ' ' :: text) := Text.dropStart?_eq_some_iff.mpr rfl
  have sign : Text.trimStart (' ' :: '=' :: ' ' :: text) = '=' :: ' ' :: text :=
    Text.trimStart_append allBlank_space (Text.stops_cons.mpr (by decide))
  have command : Text.trimStart (' ' :: text) = text := by
    apply Text.trimStart_append allBlank_space
    intro c first
    cases text with
    | nil => cases first
    | cons d more =>
        cases first
        by_contra blank
        have other : c ≠ '\\' := by
          rintro rfl
          exact blank rfl
        rw [relativeAt_of_ne other] at header
        cases header
  simp only [declarationAt, Option.any_none, Bool.false_eq_true, if_false, bind, name,
    Option.bind_some, sign, command, header]

/-- A declaration is an assignment of a voice header to the name of the hand. -/
theorem exists_assignsAt_of_declarationAt {hand : Hand} {before : Option Char} {text : Text}
    {found : (Text × Text) × Text} (here : declarationAt hand before text = some found) :
    ∃ value, AssignsAt text hand.voiceName value ∧
      relativeAt none (Text.trimStart value) = some found := by
  unfold declarationAt at here
  split at here
  · cases here
  · obtain ⟨rest, word, after⟩ := Option.bind_eq_some_iff.mp here
    split at after
    · rename_i value trimmed
      obtain ⟨gap, blank, same, -⟩ := Text.exists_gap_of_trimStart rest
      rw [trimmed] at same
      refine ⟨value, ⟨by cases hand <;> exact List.cons_ne_nil _ _,
        fun _ member => Block.isWord_of_mem_voiceName member, gap, blank, ?_⟩, after⟩
      rw [Text.dropStart?_eq_some_iff.mp word, same]
    · cases after

/-- The value of a block is a voice header in voice blocks only. -/
theorem Block.relativeAt_value {block : Block} (other : block.sign ≠ '\\') (tail : Text) :
    relativeAt none (Text.trimStart (block.value ++ tail)) = none := by
  obtain ⟨rest, trimmed⟩ := block.trimStart_value tail
  rw [trimmed]
  exact relativeAt_of_ne other rest

theorem reads_voices (hand : Hand) :
    Reads (declarationAt hand) declaredBody? (Block.voice? hand) where
  assigns := by
    intro _ _ _ here
    obtain ⟨value, assigns, -⟩ := exists_assignsAt_of_declarationAt here
    exact ⟨_, _, assigns⟩
  newline := by
    intro text
    simp only [declarationAt, Option.any_some, isWord_newline, Option.any_none]
  here := by
    intro block found said tail
    obtain ⟨anchor, body, rfl, rfl⟩ := Block.voice?_eq_some_iff.mp said
    have closes : splitBlock? (body.text ++ ['}'] ++ tail) = some (body.text, tail) :=
      body.splitBlock?_text tail
    have whole := declarationAt_written hand anchor (body.text ++ ['}'] ++ tail)
    refine ⟨(anchor.text, body.text ++ ['}'] ++ tail), hand.voiceName ++
      ' ' :: '=' :: ' ' :: (relativeCommand ++ ' ' :: (anchor.text ++ [' ', '{'])),
      body.text ++ ['}'], ?_, by simp, body.noEquals_closing, ?_, ?_⟩
    · simp [Block.text, Block.name, Block.value]
    · simpa [Block.text, Block.name, Block.value] using whole
    · rw [declaredBody?, closes]
      rfl
  nowhere := by
    intro block silent name suffix before tail
    cases here : declarationAt hand before (name.text ++ ' ' :: '=' :: (block.value ++ tail)) with
    | none => rfl
    | some found =>
        obtain ⟨value, assigns, header⟩ := exists_assignsAt_of_declarationAt here
        obtain ⟨same, rfl⟩ := assigns.unique (assignsAt_word name _)
        have voice : block.sign = '\\' := by
          by_contra other
          rw [block.relativeAt_value other] at header
          cases header
        cases block with
        | definition name body => exact absurd voice (by decide : '{' ≠ '\\')
        | quoted field value => exact absurd voice (by decide : '"' ≠ '\\')
        | voice declared anchor body =>
            rw [← same] at suffix
            rw [Block.voice?, if_pos (voiceName_suffix suffix)] at silent
            cases silent

/-! ## Fields -/

/-- The value of a block of a field. -/
def Block.value? (field : Field) : Block → Option Text
  | .quoted named value => if named = field then some value.text else none
  | _ => none

theorem Block.value?_eq_some_iff {block : Block} {field : Field} {found : Text} :
    block.value? field = some found ↔
      ∃ value, block = .quoted field value ∧ found = value.text := by
  constructor
  · intro said
    cases block with
    | definition _ _ => cases said
    | voice _ _ _ => cases said
    | quoted named value =>
        by_cases same : named = field
        · subst same
          rw [value?, if_pos rfl] at said
          cases said
          exact ⟨value, rfl, rfl⟩
        · rw [value?, if_neg same] at said
          cases said
  · rintro ⟨value, rfl, rfl⟩
    exact if_pos rfl

/-- The name of one field is no part of the name of the other. -/
theorem fieldName_suffix {field named : Field} (suffix : field.name <:+ named.name) :
    named = field := by
  have apart : ∀ field named : Field, field ≠ named → ¬ field.name <:+ named.name := by
    intro field named differ
    cases field <;> cases named <;> first | exact absurd rfl differ | decide
  by_cases same : field = named
  · exact same.symm
  · exact absurd suffix (apart field named same)

/-- **Fields.** A field is found exactly where its name, an equals sign and a value in quotation
marks begin the text, with blanks between them. -/
theorem fieldAt_eq_some_iff {name : Text} {before : Option Char} {text value rest : Text} :
    fieldAt name before text = some (value, rest) ↔
      value ≠ [] ∧ '"' ∉ value ∧ ∃ gap gap', Text.AllBlank gap ∧ Text.AllBlank gap' ∧
        text = name ++ (gap ++ '=' :: (gap' ++ '"' :: (value ++ '"' :: rest))) := by
  constructor
  · intro found
    obtain ⟨afterName, word, found⟩ := Option.bind_eq_some_iff.mp found
    split at found
    · rename_i afterSign sign
      split at found
      · rename_i afterQuote quote
        split at found
        · rename_i value' rest' run
          cases found
          obtain ⟨nonempty, same, all, -⟩ := takeRun?_eq_some_iff.mp run
          obtain ⟨gap, blank, same', -⟩ := Text.exists_gap_of_trimStart afterName
          obtain ⟨gap', blank', same'', -⟩ := Text.exists_gap_of_trimStart afterSign
          refine ⟨nonempty, Text.not_mem_of_test all (by decide), gap, gap', blank, blank', ?_⟩
          rw [Text.dropStart?_eq_some_iff.mp word, same', sign, same'', quote, same]
        · cases found
      · cases found
    · cases found
  · rintro ⟨nonempty, noQuote, gap, gap', blank, blank', rfl⟩
    have word := Text.dropStart?_eq_some_iff.mpr
      (rfl : name ++ (gap ++ '=' :: (gap' ++ '"' :: (value ++ '"' :: rest))) = _)
    have sign : Text.trimStart (gap ++ '=' :: (gap' ++ '"' :: (value ++ '"' :: rest))) =
        '=' :: (gap' ++ '"' :: (value ++ '"' :: rest)) :=
      Text.trimStart_append blank (Text.stops_cons.mpr (by decide))
    have quote : Text.trimStart (gap' ++ '"' :: (value ++ '"' :: rest)) =
        '"' :: (value ++ '"' :: rest) :=
      Text.trimStart_append blank' (Text.stops_cons.mpr (by decide))
    have run : takeRun? (· ≠ '"') (value ++ '"' :: rest) = some (value, '"' :: rest) := by
      refine takeRun?_eq_some_iff.mpr ⟨nonempty, rfl, ?_, Text.stops_cons.mpr (by decide)⟩
      intro c member
      rw [decide_eq_true_eq]
      exact ne_of_mem_of_not_mem member noQuote
    simp only [fieldAt, bind, word, Option.bind_some, sign, quote, run]

/-- A field is an assignment of a quoted value to its name. -/
theorem exists_assignsAt_of_fieldAt {field : Field} {before : Option Char} {text : Text}
    {found : Text × Text} (here : fieldAt field.name before text = some found) :
    ∃ value rest, AssignsAt text field.name value ∧ Text.trimStart value = '"' :: rest := by
  obtain ⟨-, -, gap, gap', blank, blank', same⟩ := fieldAt_eq_some_iff.mp here
  exact ⟨_, _, ⟨by cases field <;> exact List.cons_ne_nil _ _,
    fun _ member => Block.isWord_of_mem_fieldName member, gap, blank, same⟩,
    Text.trimStart_append blank' (Text.stops_cons.mpr (by decide))⟩

/-- A field is read back. -/
theorem fieldAt_written (field : Field) (value : FieldValue) (tail : Text) :
    fieldAt field.name none
        (field.name ++ ' ' :: '=' :: ' ' :: '"' :: (value.text ++ '"' :: tail)) =
      some (value.text, tail) :=
  fieldAt_eq_some_iff.mpr
    ⟨value.nonempty, value.noQuote, [' '], [' '], allBlank_space, allBlank_space, rfl⟩

theorem reads_fields (field : Field) : Reads (fieldAt field.name) some (Block.value? field) where
  assigns := by
    intro _ _ _ here
    obtain ⟨value, rest, assigns, -⟩ := exists_assignsAt_of_fieldAt here
    exact ⟨_, _, assigns⟩
  newline := fun _ => rfl
  here := by
    intro block found said tail
    obtain ⟨value, rfl, rfl⟩ := Block.value?_eq_some_iff.mp said
    have whole := fieldAt_written field value tail
    refine ⟨value.text, (Block.quoted field value).text, [], by simp, by simp [Block.text], by simp,
      ?_, rfl⟩
    simpa [Block.text, Block.name, Block.value] using whole
  nowhere := by
    intro block silent name suffix before tail
    cases here : fieldAt field.name before (name.text ++ ' ' :: '=' :: (block.value ++ tail)) with
    | none => rfl
    | some found =>
        obtain ⟨value, rest, assigns, quote⟩ := exists_assignsAt_of_fieldAt here
        obtain ⟨same, rfl⟩ := assigns.unique (assignsAt_word name _)
        obtain ⟨inner, trimmed⟩ := block.trimStart_value tail
        rw [trimmed] at quote
        have sign := (List.cons.inj quote).1
        cases block with
        | definition name body => exact absurd sign (by decide : '{' ≠ '"')
        | voice hand anchor body => exact absurd sign (by decide : '\\' ≠ '"')
        | quoted named value =>
            rw [← same] at suffix
            rw [Block.value?, if_pos (fieldName_suffix suffix)] at silent
            cases silent

end Clavier
