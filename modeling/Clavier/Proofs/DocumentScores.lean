import Clavier.Proofs.BlockReadings
import Clavier.Proofs.OnePass

/-!
# The score of a document made of blocks

The scans for definitions, voices and fields read what the blocks of a document say, so the
document has the score that its blocks declare, whatever their order is
(`ofSource_document`).

The order of the definitions is no matter either: an expansion depends on its table only
through the bodies of the names (`expand_congr`), and where every name is defined once, its
body is the one of its definition (`body?_eq_some_iff_mem`).
-/

set_option autoImplicit false

namespace Clavier

/-! ## Tables -/

/-- Trimming adds nothing. -/
theorem Text.mem_of_mem_trim {text : Text} {c : Char} (member : c ∈ Text.trim text) : c ∈ text := by
  have inEnd := List.dropWhile_sublist (p := Text.isBlank) |>.mem (List.mem_reverse.mp member)
  exact (List.dropWhile_sublist _).mem (List.mem_reverse.mp inEnd)

/-- Where every name is defined once, its body is the one of its definition. -/
theorem body?_eq_some_iff_mem {table : Variables} (distinct : (table.map Prod.fst).Nodup)
    {name body : Text} : table.body? name = some body ↔ (name, body) ∈ table := by
  induction table with
  | nil => simp [Variables.body?]
  | cons entry rest ih =>
      obtain ⟨defined, content⟩ := entry
      rw [List.map_cons, List.nodup_cons] at distinct
      have later := ih distinct.2
      unfold Variables.body? at later ⊢
      rw [List.lookup_cons]
      split
      · rename_i same
        obtain rfl := eq_of_beq same
        constructor
        · intro found
          rw [Option.some.inj found]
          exact List.mem_cons_self
        · intro member
          rcases List.mem_cons.mp member with here | inside
          · rw [(Prod.mk.inj here).2]
          · exact absurd (List.mem_map_of_mem inside) distinct.1
      · rename_i differ
        rw [later, List.mem_cons]
        refine (or_iff_right fun here => ?_).symm
        rw [(Prod.mk.inj here).1, beq_self_eq_true] at differ
        cases differ

/-- Tables with the same entries give every name the same body. -/
theorem body?_congr {table other : Variables} (distinct : (table.map Prod.fst).Nodup)
    (distinct' : (other.map Prod.fst).Nodup) (same : ∀ entry, entry ∈ table ↔ entry ∈ other)
    (name : Text) : table.body? name = other.body? name := by
  apply Option.ext
  intro body
  rw [body?_eq_some_iff_mem distinct, body?_eq_some_iff_mem distinct', same]

section Congruence

variable {table other : Variables} (same : ∀ name, table.body? name = other.body? name)
include same

theorem referenceAt_congr : referenceAt table = referenceAt other := by
  funext before text
  unfold referenceAt
  simp only [same]

theorem expandRounds_congr (budget : Nat) (interval : Int) (draft : Draft) :
    expandRounds table budget interval draft = expandRounds other budget interval draft := by
  induction budget generalizing interval draft with
  | zero => rfl
  | succ budget ih =>
      unfold expandRounds
      simp only [referenceAt_congr same, ih]

/-- **Expansion reads the table** only through the bodies of the names. -/
theorem expand_congr (budget : Nat) (interval : Int) (body : Text) :
    expand table budget interval body = expand other budget interval body := by
  unfold expand
  simp only [expandRounds_congr same]

theorem resolveVoice_congr (budget : Nat) (anchor : Option Text) (body : Text) :
    resolveVoice table budget anchor body = resolveVoice other budget anchor body := by
  unfold resolveVoice
  simp only [expand_congr same]

end Congruence

/-! ## Documents -/

/-- Blocks of different names. -/
structure Document where
  blocks : List Block
  distinct : (blocks.map Block.name).Nodup

namespace Document

/-- A document as it is written. -/
def text (document : Document) : Text := writeBlocks document.blocks

/-- The variables that a document defines, in its order. -/
def table (document : Document) : Variables := document.blocks.filterMap Block.defined?

/-- The anchor and the body of a hand's voice. -/
def voice? (document : Document) (hand : Hand) : Option (Text × Text) :=
  document.blocks.findSome? (Block.voice? hand)

/-- The value of a field. -/
def value? (document : Document) (field : Field) : Option Text :=
  document.blocks.findSome? (Block.value? field)

/-- The notes of a hand's voice. -/
def notes (document : Document) (hand : Hand) : Except Fault (List Note) :=
  match document.voice? hand with
  | none => .ok []
  | some (anchor, body) => resolveVoice document.table defaultBudget (some anchor) body

/-! ### What the scans find -/

section Scans

variable (document : Document)

/-- The table of a document holds its definitions. -/
theorem ofSource_text : Variables.ofSource document.text = document.table.reverse := by
  have entries := reads_definitions.items_writeBlocks document.blocks
  have whole : (Text.items Variables.definitionAt document.text).filterMap foundDefinition? =
      document.table := by
    have flattened := congrArg (List.filterMap id) entries
    rwa [List.filterMap_map, List.filterMap_map, Function.id_comp, Function.id_comp,
      List.filterMap_some] at flattened
  exact congrArg List.reverse whole

/-- The first item of a scan of a document is what its first block of that kind says. -/
theorem firstItem?_text {α β : Type} {recognise : Text.Recogniser α} {value : α → Option β}
    {content : Block → Option β} (reads : Reads recognise value content) :
    ((Text.firstItem? recognise document.text).map Prod.fst).map value =
      (document.blocks.findSome? content).map some := by
  rw [Text.firstItem?_fst, ← List.head?_map, text, reads.items_writeBlocks, List.head?_map,
    List.head?_filterMap]

theorem declaredVoice_text (table : Variables) (hand : Hand) :
    declaredVoice document.text table hand =
      match document.voice? hand with
      | none => .ok []
      | some (anchor, body) => resolveVoice table defaultBudget (some anchor) body := by
  have first := document.firstItem?_text (reads_voices hand)
  change _ = (document.voice? hand).map some at first
  unfold declaredVoice
  cases found : Text.firstItem? (declarationAt hand) document.text with
  | none =>
      rw [found] at first
      cases voice : document.voice? hand with
      | none => rfl
      | some _ => rw [voice] at first; cases first
  | some item =>
      obtain ⟨⟨anchor, inside⟩, rest⟩ := item
      rw [found] at first
      cases voice : document.voice? hand with
      | none => rw [voice] at first; cases first
      | some declared =>
          rw [voice] at first
          obtain ⟨block, split, rfl⟩ := Option.map_eq_some_iff.mp (Option.some.inj first)
          simp only [split]

theorem metadata_text :
    Metadata.ofSource document.text = ⟨document.value? .title, document.value? .composer⟩ := by
  have value : ∀ field : Field, firstField? field.name document.text = document.value? field := by
    intro field
    have first := document.firstItem?_text (reads_fields field)
    exact Option.map_injective (fun _ _ same => Option.some.inj same) first
  exact congr (congrArg Metadata.mk (value .title)) (value .composer)

end Scans

/-! ### The order of the blocks -/

section Order

variable {document other : Document}

theorem distinct_table (document : Document) : (document.table.map Prod.fst).Nodup := by
  have sublist : ∀ blocks : List Block,
      ((blocks.filterMap Block.defined?).map Prod.fst).Sublist (blocks.map Block.name) := by
    intro blocks
    induction blocks with
    | nil => exact .slnil
    | cons block rest ih =>
        cases block with
        | definition name body => exact ih.cons_cons name.text
        | voice hand anchor body => exact ih.cons _
        | quoted field value => exact ih.cons _
  exact (sublist document.blocks).nodup document.distinct

/-- What the only block of a name says is found, wherever the block stands. -/
theorem findSome?_eq_some_iff {β : Type} {content : Block → Option β} {name : Text}
    (named : ∀ block found, content block = some found → block.name = name) {blocks : List Block}
    (distinct : (blocks.map Block.name).Nodup) {found : β} :
    blocks.findSome? content = some found ↔ ∃ block ∈ blocks, content block = some found := by
  constructor
  · exact List.exists_of_findSome?_eq_some
  · rintro ⟨block, member, said⟩
    induction blocks with
    | nil => cases member
    | cons first rest ih =>
        rw [List.map_cons, List.nodup_cons] at distinct
        cases here : content first with
        | none =>
            rw [List.findSome?_cons_of_isNone (by rw [here]; rfl)]
            refine ih distinct.2 ((List.mem_cons.mp member).resolve_left ?_)
            rintro rfl
            rw [said] at here
            cases here
        | some other =>
            rcases List.mem_cons.mp member with rfl | inside
            · rw [List.findSome?_cons_of_isSome (by rw [here]; rfl), said]
            · have sameName : first.name = block.name :=
                (named first other here).trans (named block found said).symm
              exact absurd (sameName ▸ List.mem_map_of_mem inside) distinct.1

/-- Two documents in which the same blocks say something of one kind say the same. -/
theorem findSome?_congr {β : Type} {content : Block → Option β} (name : Text)
    (named : ∀ block found, content block = some found → block.name = name)
    (same : ∀ block found, content block = some found →
      (block ∈ other.blocks ↔ block ∈ document.blocks)) :
    other.blocks.findSome? content = document.blocks.findSome? content := by
  apply Option.ext
  intro found
  rw [findSome?_eq_some_iff named other.distinct, findSome?_eq_some_iff named document.distinct]
  exact exists_congr fun block => and_congr_left fun said => same block found said

end Order

/-! ### The score -/

section Score

variable (document : Document)

theorem clean_table : document.table.Clean := by
  apply Variables.clean_of_entries
  intro entry member
  obtain ⟨block, -, said⟩ := List.mem_filterMap.mp member
  obtain ⟨name, body, -, rfl⟩ := Block.defined?_eq_some_iff.mp said
  exact fun inside => body.noEdge (Text.mem_of_mem_trim inside)

/-- The voices of a document can always be resolved. -/
theorem exists_notes (hand : Hand) : ∃ row, document.notes hand = .ok row := by
  unfold notes
  cases voice : document.voice? hand with
  | none => exact ⟨[], rfl⟩
  | some declared =>
      obtain ⟨anchor, body⟩ := declared
      have clean : markerEdge ∉ body := by
        obtain ⟨block, -, said⟩ := List.exists_of_findSome?_eq_some voice
        obtain ⟨pitch, inside, -, same⟩ := Block.voice?_eq_some_iff.mp said
        cases same
        exact inside.noEdge
      obtain ⟨expanded, found, -⟩ := exists_expand document.clean_table defaultBudget 0 clean
      simp only [resolveVoice, found]
      exact ⟨_, rfl⟩

/-- A scan for definitions lists them backwards, which is no matter for distinct names. -/
theorem body?_reverse (name : Text) :
    Variables.body? document.table.reverse name = document.table.body? name := by
  have distinct := document.distinct_table
  have backwards := ((List.reverse_perm document.table).map Prod.fst).nodup_iff.mpr distinct
  exact body?_congr backwards distinct (fun entry => List.mem_reverse) name

theorem ofSource_text_eq {upper lower : List Note} (upperNotes : document.notes .upper = .ok upper)
    (lowerNotes : document.notes .lower = .ok lower) :
    Score.ofSource document.text =
      .ok ⟨upper, lower, ⟨document.value? .title, document.value? .composer⟩⟩ := by
  have declared : ∀ hand, declaredVoice document.text document.table.reverse hand =
      document.notes hand := by
    intro hand
    rw [declaredVoice_text, notes]
    cases document.voice? hand with
    | none => rfl
    | some voice => exact resolveVoice_congr document.body?_reverse defaultBudget _ _
  unfold Score.ofSource
  simp only [ofSource_text, declared, upperNotes, lowerNotes, metadata_text, bind, Except.bind,
    pure, Except.pure]

/-- Every document has a score, with the notes of its hands and the values of its fields. -/
theorem exists_score : ∃ score, Score.ofSource document.text = .ok score ∧
    (∀ hand, document.notes hand = .ok (score.voice hand)) ∧
    score.metadata = ⟨document.value? .title, document.value? .composer⟩ := by
  obtain ⟨upper, upperNotes⟩ := document.exists_notes .upper
  obtain ⟨lower, lowerNotes⟩ := document.exists_notes .lower
  refine ⟨_, document.ofSource_text_eq upperNotes lowerNotes, ?_, rfl⟩
  intro hand
  cases hand with
  | upper => exact upperNotes
  | lower => exact lowerNotes

end Score

section Independence

variable {document other : Document}

/-- Documents with the same definitions and the same voice of a hand have the same notes for it. -/
theorem notes_congr {hand : Hand}
    (definitions : ∀ name body, (.definition name body ∈ other.blocks ↔
      .definition name body ∈ document.blocks))
    (voices : ∀ anchor body, (.voice hand anchor body ∈ other.blocks ↔
      .voice hand anchor body ∈ document.blocks)) :
    other.notes hand = document.notes hand := by
  have entries : ∀ entry, entry ∈ other.table ↔ entry ∈ document.table := by
    intro entry
    simp only [table, List.mem_filterMap]
    apply exists_congr
    intro block
    apply and_congr_left
    intro said
    obtain ⟨name, body, rfl, -⟩ := Block.defined?_eq_some_iff.mp said
    exact definitions name body
  have voice : other.voice? hand = document.voice? hand := by
    apply findSome?_congr hand.voiceName
    · intro block found said
      obtain ⟨anchor, body, rfl, -⟩ := Block.voice?_eq_some_iff.mp said
      rfl
    · intro block found said
      obtain ⟨anchor, body, rfl, -⟩ := Block.voice?_eq_some_iff.mp said
      exact voices anchor body
  unfold notes
  rw [voice]
  cases document.voice? hand with
  | none => rfl
  | some declared =>
      exact resolveVoice_congr (body?_congr other.distinct_table document.distinct_table entries)
        defaultBudget _ _

/-- Documents with the same value of a field. -/
theorem value?_congr {field : Field}
    (values : ∀ value, (.quoted field value ∈ other.blocks ↔
      .quoted field value ∈ document.blocks)) :
    other.value? field = document.value? field := by
  apply findSome?_congr field.name
  · intro block found said
    obtain ⟨value, rfl, -⟩ := Block.value?_eq_some_iff.mp said
    rfl
  · intro block found said
    obtain ⟨value, rfl, -⟩ := Block.value?_eq_some_iff.mp said
    exact values value

/-- A document with the same blocks in another order has the same score. -/
theorem ofSource_text_of_perm (perm : other.blocks.Perm document.blocks) :
    Score.ofSource other.text = Score.ofSource document.text := by
  obtain ⟨upper, upperNotes⟩ := document.exists_notes .upper
  obtain ⟨lower, lowerNotes⟩ := document.exists_notes .lower
  have notes : ∀ hand, other.notes hand = document.notes hand := by
    intro hand
    exact notes_congr (fun _ _ => perm.mem_iff) fun _ _ => perm.mem_iff
  have values : ∀ field, other.value? field = document.value? field := by
    intro field
    exact value?_congr fun _ => perm.mem_iff
  rw [document.ofSource_text_eq upperNotes lowerNotes, ← values, ← values]
  exact other.ofSource_text_eq ((notes .upper).trans upperNotes) ((notes .lower).trans lowerNotes)

/-- Documents that differ in the voice of one hand at most have the same other voice and the same
fields. -/
theorem kept_of_other_voice {hand : Hand}
    (same : ∀ block : Block, (∀ anchor body, block ≠ .voice hand anchor body) →
      (block ∈ other.blocks ↔ block ∈ document.blocks)) :
    (∀ kept, kept ≠ hand → other.notes kept = document.notes kept) ∧
      ∀ field, other.value? field = document.value? field := by
  constructor
  · intro kept differ
    apply notes_congr
    · intro name body
      exact same _ fun _ _ equal => by cases equal
    · intro anchor body
      apply same
      rintro _ _ equal
      cases equal
      exact differ rfl
  · intro field
    apply value?_congr
    intro value
    exact same _ fun _ _ equal => by cases equal

end Independence

end Document

/-- **The score of a document** is what its blocks declare, wherever they stand: the notes of both
voices, resolved over the table of all definitions, and the values of the fields. A document
with the same blocks in another order has the same score, and a document with another block
for the voice of a hand, or with none, keeps the other voice and the fields. -/
theorem ofSource_document (document : Document) :
    ∃ score, Score.ofSource document.text = .ok score ∧
      (∀ hand, document.notes hand = .ok (score.voice hand)) ∧
      score.metadata = ⟨document.value? .title, document.value? .composer⟩ ∧
      (∀ other : Document, other.blocks.Perm document.blocks →
        Score.ofSource other.text = .ok score) ∧
      ∀ (hand : Hand) (other : Document),
        (∀ block : Block, (∀ anchor body, block ≠ .voice hand anchor body) →
          (block ∈ other.blocks ↔ block ∈ document.blocks)) →
        ∃ changed, Score.ofSource other.text = .ok changed ∧
          (∀ kept, kept ≠ hand → changed.voice kept = score.voice kept) ∧
          changed.metadata = score.metadata := by
  obtain ⟨score, found, notes, fields⟩ := document.exists_score
  refine ⟨score, found, notes, fields, ?_, ?_⟩
  · intro other perm
    rw [Document.ofSource_text_of_perm perm, found]
  · intro hand other same
    obtain ⟨changed, foundChanged, changedNotes, changedFields⟩ := other.exists_score
    obtain ⟨keptNotes, keptFields⟩ := Document.kept_of_other_voice same
    refine ⟨changed, foundChanged, ?_, ?_⟩
    · intro kept differ
      have agree := keptNotes kept differ
      rw [changedNotes, notes] at agree
      exact Except.ok.inj agree
    · rw [changedFields, fields, keptFields, keptFields]

/-- The definition of a tune, and a voice that refers to it. -/
def tune : Block :=
  .definition ⟨"tune".toList, by decide, List.all_eq_true.mp (by decide +kernel)⟩
    ⟨" e4 f ".toList, balanced_of_no_brace (by decide) (by decide), by decide, by decide⟩

def tuneVoice : Block :=
  .voice .upper ⟨'c', [], [raiseMark], isNoteLetter_c, Pitch.natural_known, List.all_eq_true.mp rfl⟩
    ⟨"\\tune".toList, balanced_of_no_brace (by decide) (by decide), by decide, by decide⟩

/-- The voice before the definition, after it, and left out. -/
def voiceFirst : Document := ⟨[tuneVoice, tune], by decide⟩

def voiceLast : Document := ⟨[tune, tuneVoice], by decide⟩

def voiceMissing : Document := ⟨[tune], by decide⟩

/-- A voice before the definition that it refers to has the two notes of the tune, as it has after it,
and without the voice the other hand and the fields stay as they are. -/
theorem ofSource_document_before_definition :
    voiceFirst.text = "upper = \\relative c\x27 \x7b\\tune\x7d\ntune = \x7b e4 f \x7d".toList ∧
      ∃ score changed, Score.ofSource voiceFirst.text = .ok score ∧
        Score.ofSource voiceLast.text = .ok score ∧
        Score.ofSource voiceMissing.text = .ok changed ∧
        score.voice .upper =
          [⟨76, "E".toList, some "e".toList⟩, ⟨77, "F".toList, some "f".toList⟩] ∧
        changed.voice .lower = score.voice .lower ∧ changed.metadata = score.metadata := by
  obtain ⟨score, found, -, -, reordered, independent⟩ := ofSource_document voiceFirst
  have notes : (Score.ofSource voiceFirst.text).toOption.map (Score.voice · .upper) =
      some [⟨76, "E".toList, some "e".toList⟩, ⟨77, "F".toList, some "f".toList⟩] := by
    decide +kernel
  rw [found] at notes
  have swapped : voiceLast.blocks.Perm voiceFirst.blocks := List.Perm.swap _ _ _
  have others : ∀ block : Block, (∀ anchor body, block ≠ .voice .upper anchor body) →
      (block ∈ voiceMissing.blocks ↔ block ∈ voiceFirst.blocks) := by
    intro block other
    have notVoice : block ≠ tuneVoice := other _ _
    simp only [voiceMissing, voiceFirst, List.mem_cons, List.not_mem_nil, or_false, notVoice,
      false_or]
  obtain ⟨changed, foundChanged, kept, fields⟩ := independent .upper voiceMissing others
  exact ⟨by decide +kernel, score, changed, found, reordered voiceLast swapped, foundChanged,
    Option.some.inj notes, kept .lower (by decide), fields⟩

end Clavier
