import Clavier.Proofs.BlockReadings

/-!
# Headers that open a block

A definition, a voice and a transposed block each begin with a header that ends in an opening
brace (`IsHeader`). Definitions and voices are found exactly where such a header begins the
text (`definitionAt_eq_some_iff`, `declarationAt_eq_some_iff`), whatever the block holds and
whether it closes or not (`OpensBlock`).
-/

set_option autoImplicit false

namespace Clavier

/-! ## Voice headers -/

/-- The header of a voice after the equals sign: its anchor and the blanks around it. -/
structure RelativeHeader where
  anchor : Pitch
  afterCommand : Text
  afterAnchor : Text
  afterCommand_nonempty : afterCommand ≠ []
  afterCommand_blank : Text.AllBlank afterCommand
  afterAnchor_blank : Text.AllBlank afterAnchor

namespace RelativeHeader

/-- A voice header as it is written. -/
def text (header : RelativeHeader) : Text :=
  relativeCommand ++ (header.afterCommand ++ (header.anchor.text ++ (header.afterAnchor ++ ['{'])))

theorem text_append (header : RelativeHeader) (inside : Text) :
    header.text ++ inside = relativeCommand ++ (header.afterCommand ++ (header.anchor.text ++
      (header.afterAnchor ++ '{' :: inside))) := by
  simp only [text, List.append_assoc, List.cons_append, List.nil_append]

end RelativeHeader

/-- **Voice headers.** A voice header is found exactly where one begins the text. -/
theorem relativeAt_eq_some_iff {before : Option Char} {text anchor inside rest : Text} :
    relativeAt before text = some ((anchor, inside), rest) ↔
      ∃ header : RelativeHeader, text = header.text ++ inside ∧ anchor = header.anchor.text ∧
        rest = inside := by
  constructor
  · intro found
    simp only [relativeAt, bind, Option.bind_eq_some_iff, pure, Option.some.injEq,
      Prod.mk.injEq] at found
    obtain ⟨afterWord, word, afterGap, gap, ⟨found, afterPitch⟩, taken, inside', opening,
      ⟨rfl, rfl⟩, rfl⟩ := found
    have front₀ := Text.dropStart?_eq_some_iff.mp word
    obtain ⟨gap₁, nonempty₁, blank₁, front₁, -⟩ := Text.dropBlanks?_eq_some_iff.mp gap
    obtain ⟨pitch, rfl, front₂, -⟩ := exists_pitch_of_takePitch? taken
    obtain ⟨gap₂, blank₂, front₃⟩ := dropOpening?_eq_some_iff.mp opening
    dsimp only at front₃
    refine ⟨⟨pitch, gap₁, gap₂, nonempty₁, blank₁, blank₂⟩, ?_, pitch.word_text, rfl⟩
    rw [RelativeHeader.text_append, front₀, front₁, front₂, front₃]
    rfl
  · rintro ⟨header, rfl, rfl, rfl⟩
    have command := Text.dropStart?_eq_some_iff.mpr (header.text_append rest)
    have gap := Text.dropBlanks?_eq_some_iff.mpr ⟨_, header.afterCommand_nonempty,
      header.afterCommand_blank, rfl, header.anchor.stops_isBlank (header.afterAnchor ++ '{' :: rest)⟩
    have taken := takePitch?_append header.anchor
      (stops_blanks_opening header.afterAnchor_blank rest)
    have opening : dropOpening? (header.afterAnchor ++ '{' :: rest) = some rest :=
      dropOpening?_eq_some_iff.mpr ⟨_, header.afterAnchor_blank, rfl⟩
    unfold relativeAt
    change (Text.dropStart? relativeCommand _ >>= _) = _
    rw [command]
    simp only [bind, Option.bind_some, gap, taken, opening, pure, Pitch.word_text]

theorem RelativeHeader.backslash_mem_text (header : RelativeHeader) : '\\' ∈ header.text :=
  List.mem_append_left _ (List.mem_of_mem_head? rfl)

theorem RelativeHeader.opening_mem_text (header : RelativeHeader) : '{' ∈ header.text := by
  simp [text]

/-- A text without a character that every voice header has, has no voice header. -/
theorem firstItem?_relativeAt_of_not_mem {c : Char}
    (known : ∀ header : RelativeHeader, c ∈ header.text) {text : Text} (absent : c ∉ text) :
    Text.firstItem? relativeAt text = none := by
  rw [Option.eq_none_iff_forall_ne_some]
  rintro ⟨⟨anchor, inside⟩, rest⟩ first
  obtain ⟨before, place, suffix, found⟩ := Text.exists_suffix_of_firstItem? first
  obtain ⟨header, rfl, -, -⟩ := relativeAt_eq_some_iff.mp found
  exact absent (suffix.mem (List.mem_append_left _ (known header)))

/-! ## Definitions and declarations -/

/-- **Definitions.** A definition is found exactly where a word, an equals sign and an opening
brace begin the text, with blanks between them. -/
theorem definitionAt_eq_some_iff {before : Option Char} {text name inside rest : Text} :
    Variables.definitionAt before text = some ((name, inside), rest) ↔
      name ≠ [] ∧ (∀ c ∈ name, Text.isWord c = true) ∧ rest = inside ∧
        ∃ gap gap', Text.AllBlank gap ∧ Text.AllBlank gap' ∧
          text = name ++ (gap ++ '=' :: (gap' ++ '{' :: inside)) := by
  constructor
  · intro found
    obtain ⟨name', value, assigns⟩ := assignsAt_of_definitionAt found
    rw [definitionAt_of_assignsAt assigns] at found
    obtain ⟨inside', opening, same⟩ := Option.map_eq_some_iff.mp found
    simp only [Prod.mk.injEq] at same
    obtain ⟨⟨rfl, rfl⟩, rfl⟩ := same
    obtain ⟨gap', blank', rfl⟩ := dropOpening?_eq_some_iff.mp opening
    obtain ⟨gap, blank, same⟩ := assigns.begins
    exact ⟨assigns.nonempty, assigns.word, rfl, gap, gap', blank, blank', same⟩
  · rintro ⟨nonempty, word, rfl, gap, gap', blank, blank', rfl⟩
    have assigns : AssignsAt (name ++ (gap ++ '=' :: (gap' ++ '{' :: rest))) name
        (gap' ++ '{' :: rest) := ⟨nonempty, word, gap, blank, rfl⟩
    rw [definitionAt_of_assignsAt assigns, dropOpening?_eq_some_iff.mpr ⟨gap', blank', rfl⟩]
    rfl

/-- **Declarations.** The declaration of a voice is found exactly where its name, an equals sign and
a voice header begin the text, with blanks between them, and no word goes on into the name. -/
theorem declarationAt_eq_some_iff {hand : Hand} {before : Option Char}
    {text anchor inside rest : Text} :
    declarationAt hand before text = some ((anchor, inside), rest) ↔
      before.any Text.isWord = false ∧ rest = inside ∧
        ∃ gap gap' : Text, ∃ header : RelativeHeader, Text.AllBlank gap ∧ Text.AllBlank gap' ∧
          anchor = header.anchor.text ∧
          text = hand.voiceName ++ (gap ++ '=' :: (gap' ++ (header.text ++ inside))) := by
  constructor
  · intro found
    have free : before.any Text.isWord = false := by
      unfold declarationAt at found
      split at found
      · cases found
      · rename_i noWord
        simpa using noWord
    obtain ⟨value, assigns, relative⟩ := exists_assignsAt_of_declarationAt found
    obtain ⟨header, trimmed, rfl, rfl⟩ := relativeAt_eq_some_iff.mp relative
    obtain ⟨gap', blank', same', -⟩ := Text.exists_gap_of_trimStart value
    obtain ⟨gap, blank, same⟩ := assigns.begins
    rw [same', trimmed] at same
    exact ⟨free, rfl, gap, gap', header, blank, blank', rfl, same⟩
  · rintro ⟨free, rfl, gap, gap', header, blank, blank', rfl, rfl⟩
    have word := Text.dropStart?_eq_some_iff.mpr
      (rfl : hand.voiceName ++ (gap ++ '=' :: (gap' ++ (header.text ++ rest))) = _)
    have sign : Text.trimStart (gap ++ '=' :: (gap' ++ (header.text ++ rest))) =
        '=' :: (gap' ++ (header.text ++ rest)) :=
      Text.trimStart_append blank (Text.stops_cons.mpr (by decide))
    have command : Text.trimStart (gap' ++ (header.text ++ rest)) = header.text ++ rest :=
      Text.trimStart_append blank' (Text.stops_cons.mpr (by decide))
    have relative : relativeAt none (header.text ++ rest) =
        some ((header.anchor.text, rest), rest) :=
      relativeAt_eq_some_iff.mpr ⟨header, rfl, rfl, rfl⟩
    simp only [declarationAt, free, Bool.false_eq_true, if_false, bind, word, Option.bind_some,
      sign, command, relative]

/-! ## Headers -/

/-- What stands before the inside of a block, up to the opening brace. -/
inductive IsHeader : Text → Prop where
  | definition {name gap gap' : Text} (nonempty : name ≠ [])
      (word : ∀ c ∈ name, Text.isWord c = true) (blank : Text.AllBlank gap)
      (blank' : Text.AllBlank gap') : IsHeader (name ++ (gap ++ '=' :: (gap' ++ ['{'])))
  | voice (hand : Hand) {gap gap' : Text} (header : RelativeHeader) (blank : Text.AllBlank gap)
      (blank' : Text.AllBlank gap') :
      IsHeader (hand.voiceName ++ (gap ++ '=' :: (gap' ++ header.text)))
  | transposed (header : TransposeHeader) : IsHeader header.text

/-- A character that can stand in a header before its brace. -/
def isHeaderChar (c : Char) : Bool :=
  Text.isWord c || Text.isBlank c || isOctaveMark c || c = '=' || c = '\\'

theorem Pitch.isHeaderChar_of_mem (pitch : Pitch) {c : Char} (member : c ∈ pitch.text) :
    isHeaderChar c = true := by
  rcases pitch.mem_text member with letter | rfl | rfl | mark
  · simp [isHeaderChar, isWord_of_isNoteLetter letter]
  · decide
  · decide
  · simp [isHeaderChar, mark]

theorem isHeaderChar_of_isBlank {gap : Text} (blank : Text.AllBlank gap) :
    ∀ c ∈ gap, isHeaderChar c = true := by
  intro c member
  simp [isHeaderChar, blank c member]

theorem isHeaderChar_of_isWord {name : Text} (word : ∀ c ∈ name, Text.isWord c = true) :
    ∀ c ∈ name, isHeaderChar c = true := by
  intro c member
  simp [isHeaderChar, word c member]

theorem Hand.isWord_voiceName (hand : Hand) : hand.voiceName.all Text.isWord = true := by
  cases hand <;> decide

namespace IsHeader

variable {header : Text}

/-- A header is some header characters and the brace. -/
theorem exists_front (isHeader : IsHeader header) :
    ∃ front, header = front ++ ['{'] ∧ ∀ c ∈ front, isHeaderChar c = true := by
  cases isHeader with
  | @definition name gap gap' _ word blank blank' =>
      refine ⟨name ++ (gap ++ '=' :: gap'), by simp, ?_⟩
      simp only [List.forall_mem_append, List.forall_mem_cons]
      exact ⟨isHeaderChar_of_isWord word, isHeaderChar_of_isBlank blank, rfl,
        isHeaderChar_of_isBlank blank'⟩
  | @voice hand gap gap' header blank blank' =>
      refine ⟨hand.voiceName ++ (gap ++ '=' :: (gap' ++ (relativeCommand ++
        (header.afterCommand ++ (header.anchor.text ++ header.afterAnchor))))), ?_, ?_⟩
      · simp only [RelativeHeader.text, List.append_assoc, List.cons_append]
      · simp only [List.forall_mem_append, List.forall_mem_cons]
        exact ⟨isHeaderChar_of_isWord (List.all_eq_true.mp hand.isWord_voiceName),
          isHeaderChar_of_isBlank blank, rfl, isHeaderChar_of_isBlank blank',
          List.all_eq_true.mp (by decide), isHeaderChar_of_isBlank header.afterCommand_blank,
          fun _ member => header.anchor.isHeaderChar_of_mem member,
          isHeaderChar_of_isBlank header.afterAnchor_blank⟩
  | transposed header =>
      refine ⟨header.front, rfl, ?_⟩
      simp only [TransposeHeader.front, List.forall_mem_append]
      exact ⟨List.all_eq_true.mp (by decide), isHeaderChar_of_isBlank header.afterCommand_blank,
        fun _ member => header.source.isHeaderChar_of_mem member,
        isHeaderChar_of_isBlank header.afterSource_blank,
        fun _ member => header.target.isHeaderChar_of_mem member,
        isHeaderChar_of_isBlank header.afterTarget_blank⟩

theorem ne_nil (isHeader : IsHeader header) : header ≠ [] := by
  obtain ⟨front, rfl, -⟩ := isHeader.exists_front
  simp

/-- No header holds a percent sign. -/
theorem noComment (isHeader : IsHeader header) : '%' ∉ header := by
  obtain ⟨front, rfl, chars⟩ := isHeader.exists_front
  simp only [List.mem_append, not_or]
  exact ⟨Text.not_mem_of_test chars (by decide), by decide⟩

/-- No header begins with a blank. -/
theorem stops_isBlank (isHeader : IsHeader header) : Text.Stops Text.isBlank header := by
  cases isHeader with
  | @definition name _ _ nonempty word _ _ =>
      obtain ⟨c, more, rfl⟩ := List.exists_cons_of_ne_nil nonempty
      refine Text.stops_cons.mpr ?_
      cases blank : Text.isBlank c with
      | false => rfl
      | true =>
          have noWord := isWord_of_isBlank blank
          rw [word c List.mem_cons_self] at noWord
          cases noWord
  | voice hand => cases hand <;> exact Text.stops_cons.mpr rfl
  | transposed => exact Text.stops_cons.mpr rfl

/-- No header begins where a comment does. -/
theorem not_begins_comment (isHeader : IsHeader header) (rest : Text) :
    ¬ header <+: '%' :: rest := by
  intro begins
  obtain ⟨c, more, rfl⟩ := List.exists_cons_of_ne_nil isHeader.ne_nil
  obtain rfl := (List.cons_prefix_cons.mp begins).1
  exact isHeader.noComment List.mem_cons_self

/-- No header begins at a line end. -/
theorem not_begins_line (isHeader : IsHeader header) (rest : Text) :
    ¬ header <+: '\n' :: rest := by
  intro begins
  obtain ⟨c, more, rfl⟩ := List.exists_cons_of_ne_nil isHeader.ne_nil
  obtain rfl := (List.cons_prefix_cons.mp begins).1
  exact absurd (Text.stops_cons.mp isHeader.stops_isBlank) (by decide)

end IsHeader

/-- A header opens a block for a recogniser that finds it with a label, whatever stands inside of
the block. -/
structure OpensBlock (recognise : Text.Recogniser (Text × Text)) (before : Option Char)
    (label header : Text) : Prop where
  isHeader : IsHeader header
  found : ∀ inside, recognise before (header ++ inside) = some ((label, inside), inside)

/-- A recogniser that finds nothing but blocks that a header opens. -/
def FindsBlocks (recognise : Text.Recogniser (Text × Text)) : Prop :=
  ∀ ⦃before text label inside rest⦄, recognise before text = some ((label, inside), rest) →
    ∃ header, OpensBlock recognise before label header ∧ text = header ++ inside ∧ rest = inside

theorem findsBlocks_definitionAt : FindsBlocks Variables.definitionAt := by
  intro before text name inside rest found
  obtain ⟨nonempty, word, rfl, gap, gap', blank, blank', rfl⟩ := definitionAt_eq_some_iff.mp found
  refine ⟨name ++ (gap ++ '=' :: (gap' ++ ['{'])), ⟨.definition nonempty word blank blank', ?_⟩,
    by simp, rfl⟩
  intro inside
  exact definitionAt_eq_some_iff.mpr ⟨nonempty, word, rfl, gap, gap', blank, blank', by simp⟩

theorem findsBlocks_declarationAt (hand : Hand) : FindsBlocks (declarationAt hand) := by
  intro before text anchor inside rest found
  obtain ⟨free, rfl, gap, gap', header, blank, blank', rfl, rfl⟩ :=
    declarationAt_eq_some_iff.mp found
  refine ⟨hand.voiceName ++ (gap ++ '=' :: (gap' ++ header.text)),
    ⟨.voice hand header blank blank', ?_⟩, by simp, rfl⟩
  intro inside
  exact declarationAt_eq_some_iff.mpr
    ⟨free, rfl, gap, gap', header, blank, blank', rfl, by simp⟩

/-- The inside of a block that is found in a document ends the document. -/
theorem FindsBlocks.suffix {recognise : Text.Recogniser (Text × Text)} (finds : FindsBlocks recognise)
    {source label inside : Text} (member : (label, inside) ∈ Text.items recognise source) :
    inside <:+ source := by
  obtain ⟨before, text, after, suffix, here⟩ :=
    Text.exists_suffix_of_item_mem (Text.mem_filterMap_item?.mp member)
  obtain ⟨header, -, rfl, -⟩ := finds here
  exact (List.suffix_append _ _).trans suffix

/-! ## The definitions of a document -/

/-- The blocks of the definitions of a document, as they are written; the last one comes first. -/
def definedBlocks (source : Text) : List (Text × Text) :=
  ((Text.items Variables.definitionAt source).filterMap fun (name, inside) =>
    (splitBlock? inside).map fun block => (name, block.1)).reverse

/-- The body of a variable is the block of its definition, trimmed. -/
theorem body?_ofSource (source name : Text) :
    (Variables.ofSource source).body? name =
      ((definedBlocks source).lookup name).map Text.trim := by
  have entries : Variables.ofSource source =
      (definedBlocks source).map fun entry => (entry.1, Text.trim entry.2) := by
    rw [definedBlocks, List.map_reverse, List.map_filterMap]
    simp only [Option.map_map]
    rfl
  rw [entries, Variables.body?_map]

/-- A block of a definition stands in the document before a closing brace. -/
theorem exists_suffix_of_lookup {source name block : Text}
    (known : (definedBlocks source).lookup name = some block) :
    ∃ rest, block ++ '}' :: rest <:+ source := by
  obtain ⟨⟨name', inside⟩, found, written⟩ :=
    List.mem_filterMap.mp (List.mem_reverse.mp (Variables.mem_of_lookup known))
  obtain ⟨⟨block', rest⟩, closes, same⟩ := Option.map_eq_some_iff.mp written
  cases same
  refine ⟨rest, ?_⟩
  rw [← (splitBlock?_eq_some_iff.mp closes).1]
  exact findsBlocks_definitionAt.suffix found

end Clavier
