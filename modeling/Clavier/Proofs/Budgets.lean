import Clavier.Proofs.OnePass
import Mathlib.Data.Finset.Card
import Mathlib.Logic.Relation

/-!
# Budgets that suffice

An expansion calls itself for every block and every reference that one of its rounds finds, with
what the rounds before have left of its budget. A budget suffices for a body if no call that is
reached from it is without budget (`Variables.Suffices`).

Only the first round calls: it finds what the cut of the body holds, and the later ones find nothing
(`ExpandCall.Calls.exists_cut`). So a call has one less of the budget than its caller, and two
expansions with budgets that suffice have the same calls apart from the budgets, and the same
results (`expand_of_suffices`).

How long a chain of calls can be is bounded by the names that can be reached and by the blocks that
stand inside of each other. A call for a block has entered one more block of the same body; a call
for a reference has left a name behind that no later body of the chain can reach, unless the
references of the table run in a cycle (`Variables.Bounded.calls`).
-/

set_option autoImplicit false

namespace Clavier

/-! ## Calls -/

/-- A call of the expansion. -/
structure ExpandCall where
  budget : Nat
  interval : Int
  body : Text

/-- What the rounds over a draft call, as far as no call before fails. A round calls for the blocks
of the draft first, and for the references of what is left once the blocks are parked; it has one
less of the budget to give than the rounds have, and so have the rounds after it. -/
inductive RoundsCall (table : Variables) : Nat → Int → Draft → ExpandCall → Prop where
  | block {budget : Nat} {interval : Int} {draft : Draft} {found : TransposedBlock}
      (member : found ∈ Text.items transposedBlockAt draft.text) :
      RoundsCall table (budget + 1) interval draft ⟨budget, interval + found.interval, found.body⟩
  | reference {budget : Nat} {interval : Int} {draft blocks : Draft} {body : Text}
      (parked : parkPieces (fun found => expandCut table budget interval (.block found))
        draft.parked (Text.pieces transposedBlockAt draft.text) = .ok blocks)
      (member : body ∈ Text.items (referenceAt table) blocks.text) :
      RoundsCall table (budget + 1) interval draft ⟨budget, interval, body⟩
  | later {budget : Nat} {interval : Int} {draft round : Draft} {call : ExpandCall}
      (finished : expandRound table budget interval draft = .ok round)
      (changed : round.text ≠ draft.text) (calls : RoundsCall table budget interval round call) :
      RoundsCall table (budget + 1) interval draft call

/-- One call makes another one directly. -/
def ExpandCall.Calls (table : Variables) (caller callee : ExpandCall) : Prop :=
  RoundsCall table caller.budget caller.interval ⟨caller.body, []⟩ callee

/-- No call that is reached from a body is without budget. -/
def Variables.Suffices (table : Variables) (budget : Nat) (interval : Int) (body : Text) : Prop :=
  ∀ call, Relation.ReflTransGen (ExpandCall.Calls table) ⟨budget, interval, body⟩ call →
    call.budget ≠ 0

/-- The semitones that a cut adds. -/
def Cut.offset : Cut → Int
  | .block found => found.interval
  | .reference _ => 0

theorem expandCut_eq_offset (table : Variables) (budget : Nat) (interval : Int) (cut : Cut) :
    expandCut table budget interval cut =
      expand table budget (interval + cut.offset) cut.inner := by
  cases cut with
  | block found => rfl
  | reference body => rw [Cut.offset, Int.add_zero]; rfl

/-- A settled draft calls nothing. -/
theorem Draft.Settled.not_roundsCall {table : Variables} {budget : Nat} {interval : Int}
    {draft : Draft} (settled : draft.Settled table) (call : ExpandCall) :
    ¬ RoundsCall table budget interval draft call := by
  intro calls
  have parked : ∀ budget, parkPieces
      (fun found => expandCut table budget interval (.block found)) draft.parked
        (Text.pieces transposedBlockAt draft.text) = .ok draft := by
    intro budget
    rw [settled.noBlocks, parkPieces_stretch]
  induction calls with
  | block member =>
      rw [Text.items, settled.noBlocks, Text.filterMap_item?_stretch] at member
      cases member
  | reference parked' member =>
      rw [parked] at parked'
      cases parked'
      rw [Text.items, settled.noReferences, Text.filterMap_item?_stretch] at member
      cases member
  | later finished changed _ _ =>
      rw [expandRound, parked] at finished
      simp only [bind, Except.bind, settled.noReferences, parkPieces_stretch, Except.ok.injEq]
        at finished
      exact changed (congrArg Draft.text finished.symm)

/-- Whatever is parked, its items give way to markers. -/
theorem text_of_parkPieces {α : Type} {finish : α → Except Fault Text} {parked : List Text}
    {pieces : List (Text.Piece α)} {draft : Draft}
    (done : parkPieces finish parked pieces = .ok draft) :
    draft.text = Text.writePieces marker (numbered parked.length pieces) := by
  induction pieces generalizing parked draft with
  | nil => cases done; rfl
  | cons piece rest ih =>
      cases piece with
      | plain c =>
          obtain ⟨later, inside, same⟩ := bind_eq_ok_iff.mp done
          cases same
          exact congrArg (c :: ·) (ih inside)
      | item value =>
          obtain ⟨text, -, next⟩ := bind_eq_ok_iff.mp done
          obtain ⟨later, inside, same⟩ := bind_eq_ok_iff.mp next
          cases same
          have tail := ih inside
          rw [List.length_append, List.length_singleton] at tail
          exact congrArg (marker parked.length ++ ·) tail

section Calls

variable {table : Variables} {body : Text} {pieces : List (Text.Piece Cut)}
variable {budget : Nat} {interval : Int}

theorem mem_blocksOf_iff {found : TransposedBlock} :
    found ∈ blocksOf pieces ↔ .item (.block found) ∈ pieces :=
  ⟨mem_blocksOf, fun member => List.mem_filterMap.mpr
    ⟨_, Text.mem_filterMap_item?.mpr member, rfl⟩⟩

theorem mem_referencesOf_iff {text : Text} :
    text ∈ referencesOf pieces ↔ .item (.reference text) ∈ pieces :=
  ⟨mem_referencesOf, fun member => List.mem_filterMap.mpr
    ⟨_, Text.mem_filterMap_item?.mpr member, rfl⟩⟩

/-- The blocks that the first round finds are those of the cut. -/
theorem Cuts.mem_items_transposedBlockAt (cuts : Cuts table body pieces) {found : TransposedBlock} :
    found ∈ Text.items transposedBlockAt body ↔ .item (.block found) ∈ pieces := by
  rw [Text.items, cuts.blocks, mem_blocksOf_iff]

/-- The references that the first round finds once the blocks are parked are those of the cut. -/
theorem Cuts.mem_items_referenceAt (cuts : Cuts table body pieces) {blocks : Draft}
    {finish : TransposedBlock → Except Fault Text}
    (parked : parkPieces finish [] (Text.pieces transposedBlockAt body) = .ok blocks)
    {text : Text} :
    text ∈ Text.items (referenceAt table) blocks.text ↔ .item (.reference text) ∈ pieces := by
  have left : blocks.text = parkBlocks 0 body := text_of_parkPieces parked
  rw [left, Text.items, cuts.references, filterMap_item?_referencePieces, mem_referencesOf_iff]

/-- The first round leaves nothing for the later ones. -/
theorem Cuts.settled_of_expandRound (cuts : Cuts table body pieces) {round : Draft}
    (finished : expandRound table budget interval ⟨body, []⟩ = .ok round) :
    round.Settled table := by
  obtain ⟨blocks, parked, finished⟩ := bind_eq_ok_iff.mp finished
  have left : blocks.text = parkBlocks 0 body := text_of_parkPieces parked
  have text : round.text = writeLayout 0 blocks.parked.length pieces := by
    rw [text_of_parkPieces finished, left, cuts.references, writePieces_numbered_referencePieces]
  exact ⟨text ▸ cuts.pieces_transposedBlockAt_writeLayout 0 _,
    text ▸ cuts.pieces_referenceAt_writeLayout 0 _⟩

/-- **Calls are cuts.** What a call makes directly are calls for the cuts of its body, with one less
of its budget. -/
theorem ExpandCall.Calls.exists_cut {caller callee : ExpandCall}
    (calls : caller.Calls table callee) :
    ∃ cut, .item cut ∈ Text.pieces (cutAt table) caller.body ∧
      caller.budget = callee.budget + 1 ∧ callee.interval = caller.interval + cut.offset ∧
      callee.body = cut.inner := by
  obtain ⟨budget, interval, body⟩ := caller
  have cuts := cuts_pieces table body
  unfold Calls at calls
  generalize start : (⟨body, []⟩ : Draft) = draft at calls
  cases calls with
  | @block budget _ _ found member =>
      subst start
      exact ⟨.block found, cuts.mem_items_transposedBlockAt.mp member, rfl, rfl, rfl⟩
  | @reference budget _ _ _ text parked member =>
      subst start
      exact ⟨.reference text, (cuts.mem_items_referenceAt parked).mp member, rfl,
        (Int.add_zero _).symm, rfl⟩
  | later finished changed calls =>
      subst start
      exact absurd calls ((cuts.settled_of_expandRound finished).not_roundsCall callee)

/-- In a clean body every cut is called for. -/
theorem calls_of_cut (cleanTable : table.Clean) (clean : markerEdge ∉ body) {cut : Cut}
    (member : .item cut ∈ Text.pieces (cutAt table) body) :
    ExpandCall.Calls table ⟨budget + 1, interval, body⟩
      ⟨budget, interval + cut.offset, cut.inner⟩ := by
  have cuts := cuts_pieces table body
  cases cut with
  | block found => exact .block (cuts.mem_items_transposedBlockAt.mpr member)
  | reference text =>
      obtain ⟨expanded, finished, -⟩ := exists_expanded (cuts.clean clean cleanTable)
        (fun interval _ clean => exists_expand cleanTable budget interval clean)
      have parked := @parkPieces_eq _
        (fun found => expandCut table budget interval (.block found))
        (fun found => expanded (.block found)) (Text.pieces transposedBlockAt body)
        (fun found here => finished _ (cuts.mem_items_transposedBlockAt.mp
          (Text.mem_filterMap_item?.mpr here))) []
      rw [Cut.offset, Int.add_zero]
      exact .reference parked ((cuts.mem_items_referenceAt parked).mpr member)

theorem Variables.Suffices.of_calls {caller : ExpandCall} {callee : ExpandCall}
    (enough : table.Suffices caller.budget caller.interval caller.body)
    (calls : caller.Calls table callee) :
    table.Suffices callee.budget callee.interval callee.body :=
  fun call reached => enough call (.head calls reached)

/-- **More budget changes nothing** once a budget suffices. -/
theorem expand_of_suffices (cleanTable : table.Clean) (clean : markerEdge ∉ body)
    (enough : table.Suffices budget interval body) {larger : Nat} (le : budget ≤ larger) :
    expand table larger interval body = expand table budget interval body := by
  induction budget generalizing interval body larger with
  | zero => exact absurd rfl (enough _ .refl)
  | succ budget ih =>
      obtain ⟨larger, rfl⟩ := Nat.exists_eq_add_one_of_ne_zero (Nat.ne_zero_of_lt le)
      have cuts := cuts_pieces table body
      have cleanPieces := cuts.clean clean cleanTable
      obtain ⟨expanded, finished, -⟩ := exists_expanded cleanPieces
        (fun interval _ clean => exists_expand cleanTable budget interval clean)
      have finished' : Finished table larger interval expanded
          (Text.pieces (cutAt table) body) := by
        intro cut member
        have inner := ih (cleanPieces _ member)
          (enough.of_calls (calls_of_cut cleanTable clean member)) (Nat.le_of_succ_le_succ le)
        rw [← finished cut member, expandCut_eq_offset, expandCut_eq_offset, inner]
      rw [expand_of_cuts cuts finished fun c => cleanPieces (.plain c),
        expand_of_cuts cuts finished' fun c => cleanPieces (.plain c)]

end Calls

/-! ## Blocks inside of blocks -/

/-- Transposed blocks stand at most so deep inside of each other. -/
def NestsWithin : Nat → Text → Prop
  | 0, text => Text.items transposedBlockAt text = []
  | depth + 1, text => ∀ found ∈ Text.items transposedBlockAt text, NestsWithin depth found.body

/-- A block has one level less inside than the text around it. -/
theorem NestsWithin.of_mem {depth : Nat} {text : Text} (nests : NestsWithin depth text)
    {found : TransposedBlock} (member : found ∈ Text.items transposedBlockAt text) :
    ∃ inner, depth = inner + 1 ∧ NestsWithin inner found.body := by
  cases depth with
  | zero =>
      rw [NestsWithin] at nests
      rw [nests] at member
      cases member
  | succ inner => exact ⟨inner, rfl, nests found member⟩

/-! ## References -/

/-- A text refers to a name: a backslash and the name stand at a place where no transposed block
begins, or inside of a block of the text. -/
inductive Mentions : Text → Text → Prop where
  | here {text name rest : Text} (place : '\\' :: (name ++ rest) <:+ text)
      (noBlock : transposedBlockAt none ('\\' :: (name ++ rest)) = none) (nonempty : name ≠ [])
      (word : ∀ c ∈ name, Text.isWord c = true) (stops : Text.Stops Text.isWord rest) :
      Mentions text name
  | inside {text name : Text} {found : TransposedBlock}
      (member : found ∈ Text.items transposedBlockAt text) (mentions : Mentions found.body name) :
      Mentions text name

/-- A text without commands refers to nothing. -/
theorem not_mentions_of_no_command {text : Text} (noCommand : '\\' ∉ text) (name : Text) :
    ¬ Mentions text name := by
  intro mentions
  cases mentions with
  | here place => exact noCommand (place.mem List.mem_cons_self)
  | inside member _ =>
      have plain : Text.pieces transposedBlockAt text = text.map .plain :=
        Text.pieces_eq_map_plain fun _ _ _ suffix => transposedBlockAt_of_ne
          (ne_of_mem_of_not_mem (suffix.mem List.mem_cons_self) noCommand) _
      rw [Text.items, plain, Text.filterMap_item?_stretch] at member
      cases member

/-- A reference that is cut out of a body has a name that the body refers to. -/
theorem Cuts.exists_mentions {table : Variables} {body : Text} {pieces : List (Text.Piece Cut)}
    (cuts : Cuts table body pieces) {text : Text} (member : .item (.reference text) ∈ pieces) :
    ∃ name, Mentions body name ∧ table.body? name = some text := by
  have place : ∃ name rest, '\\' :: (name ++ rest) <:+ body ∧
      transposedBlockAt none ('\\' :: (name ++ rest)) = none ∧ name ≠ [] ∧
      (∀ c ∈ name, Text.isWord c = true) ∧ Text.Stops Text.isWord rest ∧
      table.body? name = some text := by
    induction cuts with
    | nil => cases member
    | @plain c _ _ _ _ _ ih =>
        obtain ⟨name, rest, place, found⟩ := ih (List.mem_of_ne_of_mem (by simp) member)
        exact ⟨name, rest, place.trans (List.suffix_cons c _), found⟩
    | @block rest _ header inner _ _ ih =>
        obtain ⟨name, more, place, found⟩ := ih (List.mem_of_ne_of_mem (by simp) member)
        refine ⟨name, more, place.trans ⟨header.text ++ (inner ++ ['}']), ?_⟩, found⟩
        simp only [List.append_assoc, List.cons_append, List.nil_append]
    | @reference name _ rest _ noBlock nonempty word stops known _ ih =>
        rcases List.mem_cons.mp member with same | later
        · cases same
          exact ⟨name, rest, List.suffix_refl _, noBlock, nonempty, word, stops, known⟩
        · obtain ⟨other, more, place, found⟩ := ih later
          exact ⟨other, more, place.trans ⟨'\\' :: name, rfl⟩, found⟩
  obtain ⟨name, rest, place, noBlock, nonempty, word, stops, known⟩ := place
  exact ⟨name, .here place noBlock nonempty word stops, known⟩

namespace Variables

variable (table : Variables)

/-- The body of a name refers to another name. -/
def Refers (name other : Text) : Prop :=
  ∃ body, table.body? name = some body ∧ Mentions body other

/-- A name can be reached from a text. -/
def Reaches (text name : Text) : Prop :=
  ∃ first, Mentions text first ∧ Relation.ReflTransGen table.Refers first name

open Classical in
/-- The variables that can be reached from a text. -/
noncomputable def reached (text : Text) : Finset Text :=
  ((entries table).map Prod.fst).toFinset.filter (table.Reaches text)

variable {table}

theorem mem_reached {text name : Text} :
    name ∈ table.reached text ↔
      name ∈ (entries table).map Prod.fst ∧ table.Reaches text name := by
  classical
  rw [reached, Finset.mem_filter, List.mem_toFinset]

/-- No more variables are reached than there are. -/
theorem card_reached_le (text : Text) : (table.reached text).card ≤ (entries table).length := by
  classical
  calc (table.reached text).card
      ≤ ((entries table).map Prod.fst).toFinset.card :=
        Finset.card_le_card (Finset.filter_subset _ _)
    _ ≤ ((entries table).map Prod.fst).length := List.toFinset_card_le _
    _ = (entries table).length := List.length_map _

/-- What a block of a text reaches is reached from the text. -/
theorem card_reached_block {text : Text} {found : TransposedBlock}
    (member : found ∈ Text.items transposedBlockAt text) :
    (table.reached found.body).card ≤ (table.reached text).card := by
  apply Finset.card_le_card
  intro name reached
  obtain ⟨known, first, mentions, path⟩ := mem_reached.mp reached
  exact mem_reached.mpr ⟨known, first, .inside member mentions, path⟩

/-- **A name is left behind.** Where no name refers to itself, directly or through others, the body
of a variable reaches less than the text that refers to the variable. -/
theorem card_reached_reference (acyclic : ∀ name, ¬ Relation.TransGen table.Refers name name)
    {text name body : Text} (mentions : Mentions text name) (known : table.body? name = some body) :
    (table.reached body).card < (table.reached text).card := by
  apply Finset.card_lt_card
  rw [Finset.ssubset_iff_of_subset]
  · refine ⟨name, mem_reached.mpr ⟨?_, name, mentions, .refl⟩, ?_⟩
    · rw [← body?_entries] at known
      exact List.mem_map.mpr ⟨_, mem_of_lookup known, rfl⟩
    · intro reached
      obtain ⟨-, first, again, path⟩ := mem_reached.mp reached
      exact acyclic name (.head' ⟨body, known, again⟩ path)
  · intro other reached
    obtain ⟨listed, first, inside, path⟩ := mem_reached.mp reached
    exact mem_reached.mpr ⟨listed, name, mentions, .head ⟨body, known, inside⟩ path⟩

/-! ## The bound -/

/-- The budget of a call exceeds the levels of blocks in its body and all those in the bodies of the
variables that it reaches, each of them with one level for the reference itself. -/
def Bounded (table : Variables) (depth : Nat) (call : ExpandCall) : Prop :=
  ∃ inner, NestsWithin inner call.body ∧
    (table.reached call.body).card * (depth + 1) + inner < call.budget

section Bound

variable {depth : Nat}
  (nested : ∀ name body, table.body? name = some body → NestsWithin depth body)
  (acyclic : ∀ name, ¬ Relation.TransGen table.Refers name name)
include nested acyclic

/-- One call keeps the bound. -/
theorem Bounded.calls {caller callee : ExpandCall} (bounded : table.Bounded depth caller)
    (calls : caller.Calls table callee) : table.Bounded depth callee := by
  obtain ⟨inner, nests, below⟩ := bounded
  obtain ⟨cut, member, budget, -, body⟩ := calls.exists_cut
  have cuts := cuts_pieces table caller.body
  cases cut with
  | block found =>
      have here := cuts.mem_items_transposedBlockAt.mpr member
      obtain ⟨level, rfl, nests'⟩ := nests.of_mem here
      have fewer := Nat.mul_le_mul_right (depth + 1) (@card_reached_block table _ _ here)
      refine ⟨level, body ▸ nests', ?_⟩
      rw [body, Cut.inner]
      omega
  | reference text =>
      obtain ⟨name, mentions, known⟩ := cuts.exists_mentions member
      have fewer := Nat.mul_le_mul_right (depth + 1)
        (Nat.succ_le_of_lt (card_reached_reference acyclic mentions known))
      rw [Nat.succ_mul] at fewer
      refine ⟨depth, body ▸ nested name text known, ?_⟩
      rw [body, Cut.inner]
      omega

/-- A call within the bound has a budget that suffices. -/
theorem Bounded.suffices {call : ExpandCall} (bounded : table.Bounded depth call) :
    table.Suffices call.budget call.interval call.body := by
  intro callee reached
  have kept : table.Bounded depth callee := by
    induction reached with
    | refl => exact bounded
    | tail _ calls ih => exact ih.calls nested acyclic calls
  obtain ⟨inner, -, below⟩ := kept
  omega

end Bound

end Variables

/-- **Budgets.** When neither a body nor the table holds marker edges, and no call that is reached
with a budget is without budget, every larger budget gives the same expansion. And where no variable
refers to itself, directly or through others, and neither the body nor a variable has blocks that
stand more than `depth` deep inside of each other, the levels of one body more than there are
variables are a budget that suffices, and so is every larger one. -/
theorem expand_budget (table : Variables) (body : Text) (interval : Int) :
    (table.Clean → markerEdge ∉ body → ∀ budget, table.Suffices budget interval body →
      ∀ larger, budget ≤ larger →
        expand table larger interval body = expand table budget interval body) ∧
    ∀ depth, NestsWithin depth body →
      (∀ name text, table.body? name = some text → NestsWithin depth text) →
      (∀ name, ¬ Relation.TransGen table.Refers name name) →
      ∀ budget, ((Variables.entries table).length + 1) * (depth + 1) ≤ budget →
        table.Suffices budget interval body := by
  refine ⟨fun cleanTable clean _ enough _ le => expand_of_suffices cleanTable clean enough le, ?_⟩
  intro depth nests nested acyclic budget le
  have fewer := Nat.mul_le_mul_right (depth + 1) (@Variables.card_reached_le table body)
  rw [Nat.add_mul, Nat.one_mul] at le
  have bounded : table.Bounded depth ⟨budget, interval, body⟩ := ⟨depth, nests, by
    change (table.reached body).card * (depth + 1) + depth < budget
    omega⟩
  exact bounded.suffices nested acyclic

/-- A variable with a block, which refers to no other one. -/
def Variables.raised : Variables := [("a".toList, "\\transpose c d \x7b c \x7d".toList)]

theorem Variables.body?_raised {name text : Text} (known : raised.body? name = some text) :
    text = "\\transpose c d \x7b c \x7d".toList := by
  have entry := mem_of_lookup known
  simp only [raised, List.mem_singleton, Prod.mk.injEq] at entry
  exact entry.2

theorem Variables.not_refers_raised (name other : Text) : ¬ raised.Refers name other := by
  rintro ⟨text, known, mentions⟩
  rw [body?_raised known] at mentions
  have blocks : ∀ place ∈ "\\transpose c d \x7b c \x7d".toList.tails, place.head? = some '\\' →
      (transposedBlockAt none place).isSome = true := by decide +kernel
  have inner : ∀ found ∈ Text.items transposedBlockAt "\\transpose c d \x7b c \x7d".toList,
      '\\' ∉ found.body := by decide +kernel
  cases mentions with
  | here place noBlock _ _ _ =>
      have found := blocks _ ((List.mem_tails _ _).mpr place) rfl
      rw [noBlock] at found
      cases found
  | inside member mentions => exact not_mentions_of_no_command (inner _ member) other mentions

/-- One variable and one level of blocks: a budget of four suffices, and no larger one expands
more. -/
theorem expand_budget_raised :
    Variables.raised.Suffices 4 0 "\\transpose c d \x7b \\a \x7d".toList ∧
      ∀ larger, 4 ≤ larger →
        expand .raised larger 0 "\\transpose c d \x7b \\a \x7d".toList = .ok "  e  ".toList := by
  obtain ⟨stable, enough⟩ :=
    expand_budget .raised "\\transpose c d \x7b \\a \x7d".toList 0
  have four : Variables.raised.Suffices 4 0 "\\transpose c d \x7b \\a \x7d".toList := by
    refine enough 1 ?_ ?_ ?_ 4 (by decide)
    · change ∀ found ∈ Text.items transposedBlockAt _, Text.items transposedBlockAt found.body = []
      decide +kernel
    · intro name text known
      rw [Variables.body?_raised known]
      change ∀ found ∈ Text.items transposedBlockAt _, Text.items transposedBlockAt found.body = []
      decide +kernel
    · intro name cycle
      obtain ⟨other, refers, -⟩ := Relation.TransGen.head'_iff.mp cycle
      exact Variables.not_refers_raised name other refers
  refine ⟨four, fun larger le => ?_⟩
  rw [stable (Variables.clean_of_entries (by decide +kernel)) (by decide +kernel) 4 four
    larger le]
  decide +kernel

end Clavier
