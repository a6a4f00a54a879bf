import Clavier.Proofs.MovedNotes
import Clavier.Proofs.Parking
import Mathlib.Tactic.Choose

/-!
# Expansion in one pass

Expanding a body is cutting it once: every transposed block and every reference of the
cut gives way to its own expansion, with one less of the budget, and the notes of every
stretch in between are moved by the offset (`expand_of_cuts`). The rounds of the program
reach this after the first of them (`expandRounds_stable`): the markers that it leaves
are found again one by one, in their own places (`finish_layout`), because moving notes
neither touches a marker nor crosses one (`moveNotes_marker`).

A body and a table without marker edges expand to a text without marker edges, at every
budget (`exists_expand`).
-/

set_option autoImplicit false

namespace Clavier

/-! ## Rounds -/

/-- The expansion of what is cut out of a body. -/
def expandCut (table : Variables) (budget : Nat) (interval : Int) : Cut → Except Fault Text
  | .block found => expand table budget (interval + found.interval) found.body
  | .reference body => expand table budget interval body

/-- The expansions of all that is cut out of a body are known. -/
def Finished (table : Variables) (budget : Nat) (interval : Int) (expanded : Cut → Text)
    (pieces : List (Text.Piece Cut)) : Prop :=
  ∀ cut, .item cut ∈ pieces → expandCut table budget interval cut = .ok (expanded cut)

/-- One round over a draft. -/
def expandRound (table : Variables) (budget : Nat) (interval : Int) (draft : Draft) :
    Except Fault Draft := do
  let blocks ← parkPieces (fun found => expandCut table budget interval (.block found))
    draft.parked (Text.pieces transposedBlockAt draft.text)
  parkPieces (fun body => expandCut table budget interval (.reference body)) blocks.parked
    (Text.pieces (referenceAt table) blocks.text)

section Rounds

variable {table : Variables} {interval : Int}

/-- The rounds that a budget allows: one round, and the others if it has changed the text. -/
theorem expandRounds_succ (budget : Nat) (draft : Draft) :
    expandRounds table (budget + 1) interval draft = (do
      let round ← expandRound table budget interval draft
      if round.text = draft.text then return round
      else expandRounds table budget interval round) := by
  rw [expandRound, bind_assoc]
  rfl

theorem parkPieces_stretch {α : Type} (finish : α → Except Fault Text) (parked : List Text)
    (run : Text) : parkPieces finish parked (run.map .plain) = .ok ⟨run, parked⟩ := by
  induction run with
  | nil => rfl
  | cons c more ih =>
      rw [List.map_cons, parkPieces, ih]
      rfl

/-- A draft in which nothing is left to expand. -/
structure Draft.Settled (table : Variables) (draft : Draft) : Prop where
  noBlocks : Text.pieces transposedBlockAt draft.text = draft.text.map .plain
  noReferences : Text.pieces (referenceAt table) draft.text = draft.text.map .plain

/-- **Later rounds change nothing.** -/
theorem expandRounds_stable {draft : Draft} (settled : draft.Settled table) (budget : Nat) :
    expandRounds table budget interval draft = .ok draft := by
  cases budget with
  | zero => rfl
  | succ budget =>
      have round : expandRound table budget interval draft = .ok draft := by
        simp only [expandRound, settled.noBlocks, parkPieces_stretch, bind, Except.bind,
          settled.noReferences]
      rw [expandRounds_succ, round]
      simp only [bind, Except.bind, if_true, pure, Except.pure]

end Rounds

/-! ## The first round -/

section FirstRound

variable {table : Variables} {body : Text} {pieces : List (Text.Piece Cut)}
variable {budget : Nat} {interval : Int} {expanded : Cut → Text}

theorem mem_blocksOf {found : TransposedBlock} (member : found ∈ blocksOf pieces) :
    .item (.block found) ∈ pieces := by
  obtain ⟨cut, inside, block⟩ := List.mem_filterMap.mp member
  cases cut with
  | reference text => cases block
  | block other => cases block; exact Text.mem_filterMap_item?.mp inside

theorem mem_referencesOf {text : Text} (member : text ∈ referencesOf pieces) :
    .item (.reference text) ∈ pieces := by
  obtain ⟨cut, inside, reference⟩ := List.mem_filterMap.mp member
  cases cut with
  | block found => cases reference
  | reference other => cases reference; exact Text.mem_filterMap_item?.mp inside

/-- The draft that the first round leaves, when the expansions of what is cut are known. -/
def firstDraft (expanded : Cut → Text) (pieces : List (Text.Piece Cut)) : Draft where
  text := writeLayout 0 (blocksOf pieces).length pieces
  parked := (blocksOf pieces).map (fun found => expanded (.block found)) ++
    (referencesOf pieces).map fun text => expanded (.reference text)

/-- The first round parks what is cut: the blocks, then the references. -/
theorem expandRound_cuts (cuts : Cuts table body pieces)
    (finished : Finished table budget interval expanded pieces) :
    expandRound table budget interval ⟨body, []⟩ = .ok (firstDraft expanded pieces) := by
  have blocks := @parkPieces_eq _ (fun found => expandCut table budget interval (.block found))
    (fun found => expanded (.block found)) (Text.pieces transposedBlockAt body)
    (fun found member => finished _ (mem_blocksOf (cuts.blocks ▸
      List.mem_filterMap.mpr ⟨_, member, rfl⟩))) []
  have references := @parkPieces_eq _
    (fun text => expandCut table budget interval (.reference text))
    (fun text => expanded (.reference text)) (referencePieces 0 pieces)
    (fun text member => finished _ (mem_referencesOf (filterMap_item?_referencePieces 0 pieces ▸
      List.mem_filterMap.mpr ⟨_, member, rfl⟩)))
    ((blocksOf pieces).map fun found => expanded (.block found))
  rw [cuts.blocks, List.nil_append] at blocks
  rw [filterMap_item?_referencePieces, List.length_map,
    writePieces_numbered_referencePieces] at references
  have parked : Text.writePieces marker
      (numbered ([] : List Text).length (Text.pieces transposedBlockAt body)) =
      parkBlocks 0 body := rfl
  rw [parked] at blocks
  simp only [expandRound, blocks, bind, Except.bind, cuts.references, references]
  rfl

theorem firstDraft_settled (cuts : Cuts table body pieces) :
    (firstDraft expanded pieces).Settled table :=
  ⟨cuts.pieces_transposedBlockAt_writeLayout 0 _, cuts.pieces_referenceAt_writeLayout 0 _⟩

/-- All rounds together leave what the first one leaves. -/
theorem expandRounds_cuts (cuts : Cuts table body pieces)
    (finished : Finished table budget interval expanded pieces) :
    expandRounds table (budget + 1) interval ⟨body, []⟩ = .ok (firstDraft expanded pieces) := by
  rw [expandRounds_succ, expandRound_cuts cuts finished]
  simp only [bind, Except.bind, pure, Except.pure, expandRounds_stable (firstDraft_settled cuts),
    ite_self]

end FirstRound

/-! ## Filling the markers again -/

/-- A part of a body: a stretch without cuts, or a cut. -/
inductive Segment where
  | stretch (text : Text)
  | cut (found : Cut)

/-- The parts of a cut body, after a stretch that has been read so far. Between two cuts there is
always one stretch, which may be empty. -/
def joinStretches : Text → List (Text.Piece Cut) → List Segment
  | run, [] => [.stretch run]
  | run, .plain c :: rest => joinStretches (run ++ [c]) rest
  | run, .item found :: rest => .stretch run :: .cut found :: joinStretches [] rest

/-- The text of a part, when the expansions of what is cut are known. -/
def Segment.result (interval : Int) (expanded : Cut → Text) : Segment → Text
  | .stretch text => moveNotes interval text
  | .cut found => expanded found

/-- Notes have no digits of their own, so numerals stay. -/
theorem moveNotes_digits (interval : Int) {digits : Text}
    (all : ∀ c ∈ digits, Text.isDigit c = true) : moveNotes interval digits = digits := by
  have scan : Text.pieces noteAt digits = digits.map .plain := by
    apply Text.pieces_eq_map_plain
    intro before c more suffix
    have digit := all c (suffix.mem List.mem_cons_self)
    exact noteAt_of_not_letter (isNoteLetter_of_isDigit digit) before more
  unfold moveNotes
  split
  · rfl
  · rw [Text.replacing_eq_writePieces, scan, Text.writePieces_map_plain]

/-- Moving notes neither touches a marker nor crosses one. -/
theorem moveNotes_marker (interval : Int) (run : Text) (number : Nat) (rest : Text) :
    moveNotes interval (run ++ (marker number ++ rest)) =
      moveNotes interval run ++ (marker number ++ moveNotes interval rest) := by
  have digits : moveNotes interval (Text.ofNat number) = Text.ofNat number :=
    moveNotes_digits interval fun _ member => Text.isDigit_of_mem_ofNat member
  simp only [marker, List.cons_append, List.append_assoc, List.nil_append]
  rw [moveNotes_append separatesNotes_markerEdge, moveNotes_append separatesNotes_markerEdge,
    digits]

section Filling

variable {interval : Int} {expanded : Cut → Text} {parked : List Text}

/-- Moving notes puts no digit behind a marker edge: an edge separates notes. -/
theorem Unforged.moveNotes {text : Text} (unforged : Unforged text) (interval : Int) :
    Unforged (moveNotes interval text) := by
  induction length : text.length using Nat.strongRecOn generalizing text with
  | ind n ih =>
      by_cases member : markerEdge ∈ text
      · obtain ⟨run, rest, rfl, clean⟩ := List.eq_append_cons_of_mem member
        have shorter : rest.length < n := by
          rw [← length]
          simp only [List.length_append, List.length_cons]
          omega
        have later := ih _ shorter (unforged.inside ⟨run ++ [markerEdge], [], by simp⟩) rfl
        have clean' := not_mem_moveNotes separatesNotes_markerEdge interval clean
        rw [moveNotes_append separatesNotes_markerEdge]
        rintro after ⟨front, same⟩
        have atEdge := stops_isDigit_moveNotes interval (unforged rest ⟨run, rfl⟩)
        rcases List.append_eq_append_iff.mp same with ⟨tail, run', edge⟩ | ⟨tail, -, edge⟩
        · cases tail with
          | nil => rwa [(List.cons.inj edge).2]
          | cons c more =>
              rw [run', (List.cons.inj edge).1] at clean'
              exact absurd (List.mem_append_right _ List.mem_cons_self) clean'
        · cases tail with
          | nil => rwa [← (List.cons.inj edge).2]
          | cons c more => exact later after ⟨more, (List.cons.inj edge).2.symm⟩
      · exact unforged_of_not_mem (not_mem_moveNotes separatesNotes_markerEdge interval member)

/-- A stretch before the end of a draft. -/
theorem finish_stretch {run : Text} (unforged : Unforged run) :
    Draft.finish interval ⟨run, parked⟩ = .ok (moveNotes interval run) := by
  have filled := fillMarkers_append (unforged.moveNotes interval) Text.stops_nil parked
  rw [List.append_nil] at filled
  change fillMarkers parked (moveNotes interval run) = _
  rw [filled]
  exact congrArg Except.ok (List.append_nil _)

/-- A stretch before a marker. -/
theorem finish_marker {run : Text} (unforged : Unforged run) {number : Nat} {text : Text}
    (found : parked[number]? = some text) {rest after : Text}
    (finished : Draft.finish interval ⟨rest, parked⟩ = .ok after) :
    Draft.finish interval ⟨run ++ (marker number ++ rest), parked⟩ =
      .ok (moveNotes interval run ++ (text ++ after)) := by
  have edge : Text.Stops Text.isDigit (marker number ++ moveNotes interval rest) :=
    Text.stops_cons.mpr rfl
  change fillMarkers parked (moveNotes interval rest) = _ at finished
  change fillMarkers parked (moveNotes interval (run ++ (marker number ++ rest))) = _
  rw [moveNotes_marker, fillMarkers_append (unforged.moveNotes interval) edge,
    fillMarkers_marker found, finished]
  rfl

/-- **Filling the markers again.** When the parked texts are the expansions of what was cut, filling
the markers of the moved draft yields the moved stretches and these expansions in the order of
the body. The stretch read so far is the accumulator of the induction. -/
theorem finish_layout (pieces : List (Text.Piece Cut)) (blocks references : Nat) (run : Text)
    (blocksParked : ∀ i found, (blocksOf pieces)[i]? = some found →
      parked[blocks + i]? = some (expanded (.block found)))
    (referencesParked : ∀ i text, (referencesOf pieces)[i]? = some text →
      parked[references + i]? = some (expanded (.reference text)))
    (unforged : ∀ text, .stretch text ∈ joinStretches run pieces → Unforged text) :
    Draft.finish interval ⟨run ++ writeLayout blocks references pieces, parked⟩ =
      .ok ((joinStretches run pieces).flatMap (Segment.result interval expanded)) := by
  induction pieces generalizing blocks references run with
  | nil =>
      have whole : joinStretches run [] = [.stretch run] := rfl
      have written : run ++ writeLayout blocks references [] = run := List.append_nil run
      rw [whole, written, finish_stretch (unforged run List.mem_cons_self)]
      exact congrArg Except.ok (List.append_nil _).symm
  | cons piece rest ih =>
      cases piece with
      | plain c =>
          have later := ih blocks references (run ++ [c]) blocksParked referencesParked unforged
          rwa [List.append_assoc] at later
      | item cut =>
          have here := unforged run List.mem_cons_self
          have unforgedRest : ∀ text, .stretch text ∈ joinStretches [] rest → Unforged text :=
            fun text member => unforged text (List.mem_cons_of_mem _ (List.mem_cons_of_mem _ member))
          cases cut with
          | block found =>
              have later := ih (blocks + 1) references []
                (fun i other same => by
                  rw [Nat.add_assoc, Nat.add_comm 1]
                  exact blocksParked (i + 1) other same)
                referencesParked unforgedRest
              exact finish_marker here (blocksParked 0 found rfl) later
          | reference text =>
              have later := ih blocks (references + 1) [] blocksParked
                (fun i other same => by
                  rw [Nat.add_assoc, Nat.add_comm 1]
                  exact referencesParked (i + 1) other same)
                unforgedRest
              exact finish_marker here (referencesParked 0 text rfl) later

end Filling

/-! ## One pass -/

section OnePass

variable {table : Variables} {body : Text} {pieces : List (Text.Piece Cut)}
variable {budget : Nat} {interval : Int} {expanded : Cut → Text}

/-- Every segment of a cut body is a cut of it, or a stretch without marker edges. -/
theorem mem_joinStretches {run : Text} {segment : Segment}
    (member : segment ∈ joinStretches run pieces) (clean : markerEdge ∉ run)
    (cleanPieces : ∀ c, .plain c ∈ pieces → c ≠ markerEdge) :
    (∃ cut, segment = .cut cut ∧ .item cut ∈ pieces) ∨
      ∃ text, segment = .stretch text ∧ markerEdge ∉ text := by
  induction pieces generalizing run with
  | nil =>
      rw [joinStretches, List.mem_singleton] at member
      exact .inr ⟨run, member, clean⟩
  | cons piece rest ih =>
      have cleanRest : ∀ c, .plain c ∈ rest → c ≠ markerEdge := fun c inside =>
        cleanPieces c (List.mem_cons_of_mem piece inside)
      have inLater : (∃ cut, segment = .cut cut ∧ .item cut ∈ rest) →
          ∃ cut, segment = .cut cut ∧ .item cut ∈ piece :: rest :=
        fun ⟨cut, same, inside⟩ => ⟨cut, same, List.mem_cons_of_mem piece inside⟩
      cases piece with
      | plain c =>
          have longer : markerEdge ∉ run ++ [c] := by
            simp only [List.mem_append, List.mem_singleton, not_or]
            exact ⟨clean, (cleanPieces c List.mem_cons_self).symm⟩
          exact (ih member longer cleanRest).imp_left inLater
      | item cut =>
          rcases List.mem_cons.mp member with same | later
          · exact .inr ⟨run, same, clean⟩
          rcases List.mem_cons.mp later with same | later
          · exact .inl ⟨cut, same, List.mem_cons_self⟩
          · exact (ih later List.not_mem_nil cleanRest).imp_left inLater

/-- Every parked text of the first round is the expansion of its part. -/
theorem finish_firstDraft_of_unforged
    (unforged : ∀ text, .stretch text ∈ joinStretches [] pieces → Unforged text) :
    (firstDraft expanded pieces).finish interval =
      .ok ((joinStretches [] pieces).flatMap (Segment.result interval expanded)) := by
  refine finish_layout pieces 0 (blocksOf pieces).length [] ?_ ?_ unforged
  · intro i found same
    have inside : i < (blocksOf pieces).length := (List.getElem?_eq_some_iff.mp same).1
    rw [Nat.zero_add, List.getElem?_append_left (by rwa [List.length_map]), List.getElem?_map, same]
    rfl
  · intro i text same
    rw [List.getElem?_append_right (by rw [List.length_map]; exact Nat.le_add_right _ _),
      List.length_map, Nat.add_sub_cancel_left, List.getElem?_map, same]
    rfl

/-- No edge stands in a stretch without marker edges, and none before a digit. -/
theorem unforged_of_cleanPieces (cleanPieces : ∀ c, .plain c ∈ pieces → c ≠ markerEdge)
    (text : Text) (member : .stretch text ∈ joinStretches [] pieces) : Unforged text := by
  rcases mem_joinStretches member List.not_mem_nil cleanPieces with
    ⟨cut, same, -⟩ | ⟨run, same, clean⟩
  · cases same
  · cases same
    exact unforged_of_not_mem clean

theorem finish_firstDraft (cleanPieces : ∀ c, .plain c ∈ pieces → c ≠ markerEdge) :
    (firstDraft expanded pieces).finish interval =
      .ok ((joinStretches [] pieces).flatMap (Segment.result interval expanded)) :=
  finish_firstDraft_of_unforged (unforged_of_cleanPieces cleanPieces)

/-- **One pass.** The expansion of a cut body joins the moved stretches and the expansions of what
is cut, in the order of the body. -/
theorem expand_of_unforged (cuts : Cuts table body pieces)
    (finished : Finished table budget interval expanded pieces)
    (unforged : ∀ text, .stretch text ∈ joinStretches [] pieces → Unforged text) :
    expand table (budget + 1) interval body =
      .ok ((joinStretches [] pieces).flatMap (Segment.result interval expanded)) := by
  have rounds := expandRounds_cuts cuts finished
  rw [expand, if_neg (Nat.succ_ne_zero budget), rounds]
  exact finish_firstDraft_of_unforged unforged

theorem expand_of_cuts (cuts : Cuts table body pieces)
    (finished : Finished table budget interval expanded pieces)
    (cleanPieces : ∀ c, .plain c ∈ pieces → c ≠ markerEdge) :
    expand table (budget + 1) interval body =
      .ok ((joinStretches [] pieces).flatMap (Segment.result interval expanded)) :=
  expand_of_unforged cuts finished (unforged_of_cleanPieces cleanPieces)

/-! ### Texts without marker edges -/

/-- The text inside what is cut out. -/
def Cut.inner : Cut → Text
  | .block found => found.body
  | .reference body => body

/-- A table in which no name has a body with a marker edge. -/
def Variables.Clean (table : Variables) : Prop :=
  ∀ name text, table.body? name = some text → markerEdge ∉ text

theorem Variables.clean_of_entries (clean : ∀ entry ∈ table, markerEdge ∉ entry.2) :
    table.Clean := by
  intro name text known
  exact clean (name, text) (mem_of_lookup known)

/-- A piece of a cut body without marker edges, neither in its place nor inside. -/
def CleanPiece : Text.Piece Cut → Prop
  | .plain c => c ≠ markerEdge
  | .item cut => markerEdge ∉ cut.inner

/-- The cut of a clean body over a clean table has clean pieces. -/
theorem Cuts.clean (cuts : Cuts table body pieces) (clean : markerEdge ∉ body)
    (cleanTable : table.Clean) : ∀ piece ∈ pieces, CleanPiece piece := by
  induction cuts with
  | nil => exact fun _ member => absurd member List.not_mem_nil
  | plain _ _ _ ih =>
      rw [List.mem_cons, not_or] at clean
      exact List.forall_mem_cons.mpr ⟨Ne.symm clean.1, ih clean.2⟩
  | block header _ _ ih =>
      simp only [List.mem_append, List.mem_cons, not_or] at clean
      exact List.forall_mem_cons.mpr ⟨clean.2.1, ih clean.2.2.2⟩
  | @reference name text _ _ _ _ _ _ known _ ih =>
      simp only [List.mem_append, List.mem_cons, not_or] at clean
      exact List.forall_mem_cons.mpr ⟨cleanTable name text known, ih clean.2.2⟩

theorem expandCut_eq (cut : Cut) :
    ∃ inner, expandCut table budget interval cut = expand table budget inner cut.inner := by
  cases cut with
  | block found => exact ⟨_, rfl⟩
  | reference text => exact ⟨_, rfl⟩

/-- When everything inside of clean pieces expands, so does everything that is cut out. -/
theorem exists_expanded (cleanPieces : ∀ piece ∈ pieces, CleanPiece piece)
    (inside : ∀ (interval : Int) {body : Text}, markerEdge ∉ body →
      ∃ text, expand table budget interval body = .ok text ∧ markerEdge ∉ text) :
    ∃ expanded : Cut → Text, Finished table budget interval expanded pieces ∧
      markerEdge ∉ (joinStretches [] pieces).flatMap (Segment.result interval expanded) := by
  have each : ∀ cut, .item cut ∈ pieces →
      ∃ text, expandCut table budget interval cut = .ok text ∧ markerEdge ∉ text := by
    intro cut member
    obtain ⟨moved, same⟩ := @expandCut_eq table budget interval cut
    rw [same]
    exact inside moved (cleanPieces _ member)
  choose! expanded finished cleanExpanded using each
  refine ⟨expanded, finished, ?_⟩
  intro member
  obtain ⟨segment, place, written⟩ := List.mem_flatMap.mp member
  rcases mem_joinStretches place List.not_mem_nil fun c => cleanPieces (.plain c) with
    ⟨cut, rfl, here⟩ | ⟨run, rfl, cleanRun⟩
  · exact cleanExpanded cut here written
  · exact not_mem_moveNotes separatesNotes_markerEdge interval cleanRun written

end OnePass

/-- **Expansion succeeds.** A clean body over a clean table expands to a clean text. -/
theorem exists_expand {table : Variables} (cleanTable : table.Clean) (budget : Nat) (interval : Int)
    {body : Text} (clean : markerEdge ∉ body) :
    ∃ text, expand table budget interval body = .ok text ∧ markerEdge ∉ text := by
  induction budget generalizing interval body with
  | zero => exact ⟨body, rfl, clean⟩
  | succ budget ih =>
      have cuts := cuts_pieces table body
      have cleanPieces := cuts.clean clean cleanTable
      obtain ⟨expanded, finished, cleanText⟩ := exists_expanded cleanPieces ih
      exact ⟨_, expand_of_cuts cuts finished fun c => cleanPieces (.plain c), cleanText⟩

/-! ### The definition in one pass -/

/-- The segments of a body: its outermost closed transposed blocks, the references outside of them,
and the stretches in between. -/
def segments (table : Variables) (body : Text) : List Segment :=
  joinStretches [] (Text.pieces (cutAt table) body)

/-- The expansion of a segment. -/
def expandSegment (table : Variables) (budget : Nat) (interval : Int) : Segment → Except Fault Text
  | .stretch text => .ok (moveNotes interval text)
  | .cut found => expandCut table budget interval found

/-- The expansion of a body in one pass over its segments, with a budget for what is cut. -/
def expandOnce (table : Variables) (budget : Nat) (interval : Int) (body : Text) :
    Except Fault Text := do
  let texts ← (segments table body).mapM (expandSegment table budget interval)
  return texts.flatten

/-- The segments expand one by one. -/
theorem mapM_expandSegment {table : Variables} {budget : Nat} {interval : Int}
    {expanded : Cut → Text} {parts : List Segment}
    (finished : ∀ cut, .cut cut ∈ parts →
      expandCut table budget interval cut = .ok (expanded cut)) :
    parts.mapM (expandSegment table budget interval) =
      .ok (parts.map (Segment.result interval expanded)) := by
  induction parts with
  | nil => rfl
  | cons segment rest ih =>
      have later := ih fun cut member => finished cut (List.mem_cons_of_mem segment member)
      have here : expandSegment table budget interval segment =
          .ok (segment.result interval expanded) := by
        cases segment with
        | stretch text => rfl
        | cut found => exact finished found List.mem_cons_self
      rw [List.mapM_cons, here, later]
      rfl

/-- **Expansion is one pass.** A clean body over a clean table expands, and its expansion joins what
its segments expand to. The draft after the first round is final, and it is finished with the
texts that this round has parked.

What the segments are is said elsewhere: a block that begins at a place in
`transposedBlockAt_eq_some_iff`, a reference to a name of the table in `referenceAt_eq_some_iff`, and
what becomes of a note in the text between them in `moveNotes_written`. -/
theorem expand_eq_expandOnce {table : Variables} (cleanTable : table.Clean) {body : Text}
    (clean : markerEdge ∉ body) (budget : Nat) (interval : Int) :
    ∃ text, expand table (budget + 1) interval body = .ok text ∧ markerEdge ∉ text ∧
      expandOnce table budget interval body = .ok text ∧
      ∃ draft, expandRound table budget interval ⟨body, []⟩ = .ok draft ∧
        (∀ rounds, expandRounds table rounds interval draft = .ok draft) ∧
        draft.finish interval = .ok text := by
  have cuts := cuts_pieces table body
  have cleanPieces := cuts.clean clean cleanTable
  have cleanPlain : ∀ c, .plain c ∈ Text.pieces (cutAt table) body → c ≠ markerEdge :=
    fun c => cleanPieces (.plain c)
  obtain ⟨expanded, finished, cleanText⟩ := exists_expanded cleanPieces
    fun interval _ => exists_expand cleanTable budget interval
  have parts : (segments table body).mapM (expandSegment table budget interval) =
      .ok ((segments table body).map (Segment.result interval expanded)) :=
    mapM_expandSegment fun cut member => by
      rcases mem_joinStretches member List.not_mem_nil cleanPlain with
        ⟨other, same, here⟩ | ⟨run, same, -⟩
      · cases same
        exact finished cut here
      · cases same
  refine ⟨_, expand_of_cuts cuts finished cleanPlain, cleanText, ?_, _,
    expandRound_cuts cuts finished, expandRounds_stable (firstDraft_settled cuts),
    finish_firstDraft cleanPlain⟩
  rw [expandOnce, parts]
  rfl

/-- A body with a reference inside and outside of a block, next to a header that never closes. The
note inside the block is moved twice, and the header stands as it was but for its notes. -/
theorem expand_nested_eq_expandOnce :
    let table : Variables := [("a".toList, "e4 f".toList)]
    let body := "c \\transpose c d \x7b \\a g, \x7d \\a \\transpose c e \x7b b".toList
    let text := "d  gis4 a b,  fis4 g \\transpose d fis \x7b cis\x27".toList
    expand table 3 2 body = .ok text ∧ markerEdge ∉ text ∧ expandOnce table 2 2 body = .ok text ∧
      ∃ draft, expandRound table 2 2 ⟨body, []⟩ = .ok draft ∧
        (∀ rounds, expandRounds table rounds 2 draft = .ok draft) ∧ draft.finish 2 = .ok text := by
  intro table body text
  obtain ⟨expanded, found, result⟩ := expand_eq_expandOnce
    (Variables.clean_of_entries (by decide) : table.Clean) (by decide : markerEdge ∉ body) 2 2
  have same : expand table 3 2 body = .ok text := toOption_eq_some_iff.mp (by decide +kernel)
  obtain rfl := Except.ok.inj (found.symm.trans same)
  exact ⟨found, result⟩

end Clavier
