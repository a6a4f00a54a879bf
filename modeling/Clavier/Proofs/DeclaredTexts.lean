import Clavier.Proofs.TrimmedDocuments

/-!
# Voices declared from a text

A text that begins with a voice header can be parsed as a voice by itself, with the variables that
it defines, or declared as the voice of a hand and read as a document. Nothing is found in the name
and the equals sign that the declaration puts before the text, so both see the same variables and,
for the other hand, the same declarations (`ofSource_declaration`, `declaredVoice_other`). The
declared voice is the first of its hand, whatever else the text declares, and is the one that is
parsed alone (`declaredVoice_declaration`).

The document also declares a voice of the other hand if one stands in the text, and it has no score
if that one fails. So the two ways lead to the same notes where there is a score, but there are
texts that are parsed alone and have no score as documents (`score_of_declaration`).
-/

set_option autoImplicit false

namespace Clavier

namespace Hand

/-- The hand beside a hand. -/
def other : Hand → Hand
  | .upper => .lower
  | .lower => .upper

theorem exists_iff (hand : Hand) {P : Hand → Prop} : (∃ any, P any) ↔ P hand ∨ P hand.other := by
  constructor
  · rintro ⟨any, known⟩
    cases hand <;> cases any <;> first | exact .inl known | exact .inr known
  · rintro (known | known)
    · exact ⟨hand, known⟩
    · exact ⟨hand.other, known⟩

/-- The name of a hand's voice is a word. -/
def nameWord (hand : Hand) : Word where
  text := hand.voiceName
  nonempty := by cases hand <;> exact List.cons_ne_nil _ _
  word := fun _ member => Block.isWord_of_mem_voiceName member

/-- A text as the declaration of a hand's voice. -/
def declaration (hand : Hand) (text : Text) : Text := hand.voiceName ++ [' ', '='] ++ ' ' :: text

end Hand

/-! ## What the declaration adds -/

section Scans

variable (hand : Hand) (text : Text)

/-- No other hand is declared before the text. -/
theorem items_declarationAt_other :
    Text.items (declarationAt hand.other) (hand.declaration text) =
      Text.items (declarationAt hand.other) text := by
  refine (passesBlanks_declarationAt hand.other).items_after_stretch rfl fun before c more place => ?_
  cases found : declarationAt hand.other before (c :: (more ++ ' ' :: text)) with
  | none => rfl
  | some item =>
      obtain ⟨value, assigns, -⟩ := exists_assignsAt_of_declarationAt found
      obtain ⟨suffix, -, -⟩ := assigns.of_line hand.nameWord place
      have same := voiceName_suffix suffix
      cases hand <;> cases same

theorem declaredVoice_other (table : Variables) :
    declaredVoice (hand.declaration text) table hand.other = declaredVoice text table hand.other := by
  rw [declaredVoice_eq_head?, declaredVoice_eq_head?, items_declarationAt_other]

variable (header : RelativeHeader) (inside : Text)

/-- No variable is defined before a voice header. -/
theorem ofSource_declaration :
    Variables.ofSource (hand.declaration (header.text ++ inside)) =
      .ofSource (header.text ++ inside) := by
  have items : Text.items Variables.definitionAt (hand.declaration (header.text ++ inside)) =
      Text.items Variables.definitionAt (header.text ++ inside) := by
    refine passesBlanks_definitionAt.items_after_stretch rfl fun before c more place => ?_
    cases found : Variables.definitionAt before (c :: (more ++ ' ' :: (header.text ++ inside))) with
    | none => rfl
    | some item =>
        obtain ⟨name, value, assigns⟩ := assignsAt_of_definitionAt found
        obtain ⟨-, -, rfl⟩ := assigns.of_line hand.nameWord place
        rw [definitionAt_of_assignsAt assigns] at found
        cases found
  rw [Variables.ofSource, items, Variables.ofSource]

variable {body rest : Text} (balanced : Balanced body) (table : Variables)
include balanced

/-- The declared voice is the one that is parsed alone. -/
theorem declaredVoice_declaration :
    declaredVoice (hand.declaration (header.text ++ (body ++ '}' :: rest))) table hand =
      Score.parseVoice table (header.text ++ (body ++ '}' :: rest)) := by
  have closes := splitBlock?_of_balanced balanced rest
  generalize body ++ '}' :: rest = inside at closes
  have alone : relativeAt none (header.text ++ inside) =
      some ((header.anchor.text, inside), inside) :=
    relativeAt_eq_some_iff.mpr ⟨header, rfl, rfl, rfl⟩
  have declared : declarationAt hand none (hand.declaration (header.text ++ inside)) =
      some ((header.anchor.text, inside), inside) := by
    refine declarationAt_eq_some_iff.mpr
      ⟨rfl, rfl, [' '], [' '], header, allBlank_space, allBlank_space, rfl, ?_⟩
    rw [Hand.declaration, List.append_assoc]
    rfl
  have nonempty : header.text ++ inside ≠ [] :=
    List.ne_nil_of_mem (List.mem_append_left _ header.backslash_mem_text)
  have first := Text.firstItem?_of_found nonempty alone
  have declaredNonempty : hand.declaration (header.text ++ inside) ≠ [] :=
    List.append_ne_nil_of_right_ne_nil _ (List.cons_ne_nil _ _)
  have firstDeclared := Text.firstItem?_of_found declaredNonempty declared
  have parsed : Score.parseVoice table (header.text ++ inside) =
      resolveVoice table defaultBudget (some header.anchor.text)
        (((splitBlock? inside).map Prod.fst).getD inside) := by
    rw [Score.parseVoice, first]
  rw [declaredVoice_eq firstDeclared, parsed, closes]
  rfl

end Scans

/-- No marker is forged by a declaration. -/
theorem unforged_declaration (hand : Hand) {text : Text} (unforged : Unforged text) :
    Unforged (hand.declaration text) := by
  have noEdge : markerEdge ∉ hand.voiceName ++ [' ', '=', ' '] := by cases hand <;> decide
  have whole : hand.declaration text = hand.voiceName ++ [' ', '=', ' '] ++ text := by
    rw [Hand.declaration, List.append_assoc, List.append_assoc]
    rfl
  rw [whole]
  exact unforged.append_left noEdge

/-! ## Documents and voices -/

section Scores

variable (hand : Hand) (header : RelativeHeader) {body rest : Text}

/-- **Documents and voices.** A text begins with a voice header whose block closes, and is declared
as the voice of a hand. The notes of that voice in the score of the document are those that are
parsed alone. The document has no score exactly if the voice fails when it is parsed alone, or the
voice fails that the text declares for the other hand. Where no marker edge of the text stands
before a digit, there is a score. -/
theorem score_of_declaration (balanced : Balanced body) :
    let text := header.text ++ (body ++ '}' :: rest)
    let table := Variables.ofSource text
    (∀ score, Score.ofSource (hand.declaration text) = .ok score →
        Score.parseVoice table text = .ok (score.voice hand)) ∧
      ((∃ fault, Score.ofSource (hand.declaration text) = .error fault) ↔
        (∃ fault, Score.parseVoice table text = .error fault) ∨
          ∃ fault, declaredVoice text table hand.other = .error fault) ∧
      (Unforged text → ∃ score, Score.ofSource (hand.declaration text) = .ok score) := by
  intro text table
  have defined : Variables.ofSource (hand.declaration text) = table :=
    ofSource_declaration hand header (body ++ '}' :: rest)
  have voice : declaredVoice (hand.declaration text) table hand = Score.parseVoice table text :=
    declaredVoice_declaration hand header balanced table
  refine ⟨fun score found => ?_, ?_, fun unforged => ?_⟩
  · have declared := (ofSource_eq_ok_iff.mp found).1 hand
    rwa [defined, voice] at declared
  · rw [exists_fault_ofSource_iff, hand.exists_iff, defined, voice, declaredVoice_other]
  · exact exists_ofSource_of_unforged (unforged_declaration hand unforged)

end Scores

/-- The header of the voices below. -/
def middleHeader : RelativeHeader where
  anchor := ⟨'c', [], ['\''], rfl, Pitch.natural_known, List.all_eq_true.mp (by decide)⟩
  afterCommand := [' ']
  afterAnchor := ['\n']
  afterCommand_nonempty := by decide
  afterCommand_blank := allBlank_space
  afterAnchor_blank := List.forall_mem_singleton.mpr rfl

/-- A body that defines a variable, and after it the variable again, another voice of the same hand
and one of the other hand. -/
theorem score_of_declaration_nested :
    let text := middleHeader.text ++ (" m = \x7b e \x7d \\m g ".toList ++ '}' ::
      " m = \x7b a \x7d upper = \\relative c \x7b b \x7d lower = \\relative f \x7b \\m \x7d".toList)
    Balanced " m = \x7b e \x7d \\m g ".toList ∧ Unforged text ∧
      ∃ score, Score.ofSource (Hand.upper.declaration text) = .ok score ∧
        Score.parseVoice (.ofSource text) text = .ok score.upper := by
  intro text
  have balanced : Balanced " m = \x7b e \x7d \\m g ".toList :=
    balanced_iff_depthAfter?.mpr (by decide)
  have unforged : Unforged text := by decide +kernel
  obtain ⟨same, -, scored⟩ := score_of_declaration .upper middleHeader balanced
  obtain ⟨score, found⟩ := scored unforged
  exact ⟨balanced, unforged, score, found, same score found⟩

/-- A voice of one note, and after it a voice of the other hand that holds a marker. -/
def forgedTail : Text :=
  middleHeader.text ++ (" c ".toList ++ '}' :: " lower = \\relative c \x7b \x005\x00 \x7d".toList)

/-- Not every text that is parsed alone has a score when it is declared. -/
theorem not_forall_score_of_declaration :
    ¬∀ (hand : Hand) (header : RelativeHeader) (body rest : Text), Balanced body →
      let text := header.text ++ (body ++ '}' :: rest)
      ((∃ fault, Score.ofSource (hand.declaration text) = .error fault) ↔
        ∃ fault, Score.parseVoice (.ofSource text) text = .error fault) := by
  intro same
  have voice : (Score.parseVoice (.ofSource forgedTail) forgedTail).toOption =
      some [⟨72, "C".toList, "c".toList⟩] := by decide +kernel
  have document : (Score.ofSource (Hand.upper.declaration forgedTail)).toOption = none := by
    decide +kernel
  have failed : ∃ fault, Score.ofSource (Hand.upper.declaration forgedTail) = .error fault := by
    cases found : Score.ofSource (Hand.upper.declaration forgedTail) with
    | error fault => exact ⟨fault, rfl⟩
    | ok score =>
        rw [found] at document
        cases document
  obtain ⟨fault, refused⟩ := (same .upper middleHeader " c ".toList _
    (balanced_iff_depthAfter?.mpr (by decide))).mp failed
  cases (toOption_eq_some_iff.mp voice).symm.trans refused

end Clavier
