import Clavier.Proofs.Cuts
import Clavier.Proofs.Markers
import Clavier.Proofs.Words

/-!
# Parking what is cut

A draft of a body differs from it by parked parts: some closed parts of the body, each
of them balanced and beginning with a backslash, have given way to markers (`Parked`).
A marker is balanced too and holds no character of a header or a reference, so the
draft has no block and no reference where the body had none
(`Parked.transposedBlockAt_none`, `Parked.referenceAt_none`).

The first round parks the transposed blocks of the cut and then its references. What is
left is the cut with every part replaced by its marker (`writeLayout`), and no later
round finds anything in it (`pieces_transposedBlockAt_writeLayout`,
`pieces_referenceAt_writeLayout`).
-/

set_option autoImplicit false

namespace Clavier

/-! ## Markers are inert -/

theorem mem_marker {number : Nat} {c : Char} (member : c ∈ marker number) :
    c = markerEdge ∨ Text.isDigit c = true := by
  simp only [marker, List.mem_cons, List.mem_append, List.not_mem_nil, or_false] at member
  rcases member with edge | digit | edge
  · exact .inl edge
  · exact .inr (Text.isDigit_of_mem_ofNat digit)
  · exact .inl edge

theorem not_mem_marker {number : Nat} {c : Char} (noEdge : c ≠ markerEdge)
    (noDigit : Text.isDigit c = false) : c ∉ marker number := by
  intro member
  rcases mem_marker member with edge | digit
  · exact noEdge edge
  · rw [digit] at noDigit
    cases noDigit

theorem balanced_marker (number : Nat) : Balanced (marker number) :=
  balanced_of_no_brace (not_mem_marker (by decide) rfl) (not_mem_marker (by decide) rfl)

/-- Scanning past a marker, for items that begin with a backslash. -/
theorem pieces_marker {α : Type} {recognise : Text.Recogniser α}
    (ahead : Text.LooksAhead recognise)
    (backslash : ∀ c more, c ≠ '\\' → recognise none (c :: more) = none) (number : Nat)
    (rest : Text) :
    Text.pieces recognise (marker number ++ rest) =
      (marker number).map .plain ++ Text.pieces recognise rest := by
  refine ahead.pieces_stretch (fun c member more => backslash c more ?_) rest
  rintro rfl
  exact not_mem_marker (by decide) rfl member

/-! ## Drafts of a body -/

/-- The second text is the first with some balanced parts, each beginning with a backslash,
replaced by markers. -/
inductive Parked : Text → Text → Prop where
  | nil : Parked [] []
  | keep (c : Char) {body draft : Text} (later : Parked body draft) :
      Parked (c :: body) (c :: draft)
  | park {part : Text} (number : Nat) (balanced : Balanced ('\\' :: part)) {body draft : Text}
      (later : Parked body draft) :
      Parked ('\\' :: (part ++ body)) (marker number ++ draft)

namespace Parked

variable {body draft : Text}

theorem append (front : Text) (parked : Parked body draft) :
    Parked (front ++ body) (front ++ draft) := by
  induction front with
  | nil => exact parked
  | cons c more ih => exact .keep c ih

/-- What a draft begins with, up to a marker, begins the body as well. -/
theorem front {front rest : Text} (parked : Parked body (front ++ rest))
    (clean : markerEdge ∉ front) : ∃ body', body = front ++ body' ∧ Parked body' rest := by
  induction front generalizing body with
  | nil => exact ⟨body, rfl, parked⟩
  | cons c more ih =>
      simp only [List.mem_cons, not_or] at clean
      generalize whole : c :: more ++ rest = draft at parked
      cases parked with
      | nil => cases whole
      | keep d later =>
          obtain ⟨rfl, rfl⟩ := List.cons.inj whole
          obtain ⟨body', rfl, parked'⟩ := ih later clean.2
          exact ⟨body', rfl, parked'⟩
      | park number balanced later =>
          exact absurd (List.cons.inj whole).1.symm clean.1

/-- A backslash and a marker edge end every run of word characters. -/
theorem stops_isWord (parked : Parked body draft) :
    Text.Stops Text.isWord body ↔ Text.Stops Text.isWord draft := by
  cases parked with
  | nil => exact Iff.rfl
  | keep c later => rw [Text.stops_cons, Text.stops_cons]
  | park number balanced later =>
      have backslash : Text.isWord '\\' = false := by decide +kernel
      have edge : Text.isWord markerEdge = false := by decide +kernel
      simp [marker, backslash, edge]

/-- Parked parts are balanced, so the braces around them close as they did. -/
theorem isSome_splitBlocks? (parked : Parked body draft) (inside : Nat) :
    (splitBlocks? inside draft).isSome = (splitBlocks? inside body).isSome := by
  induction parked generalizing inside with
  | nil => rfl
  | keep c later ih =>
      rw [splitBlocks?_cons, splitBlocks?_cons]
      cases depthStep? inside c with
      | none => rfl
      | some depth => simpa using ih depth
  | park number balanced later ih =>
      rw [← List.cons_append, splitBlocks?_append (balanced.depthAfter? inside),
        splitBlocks?_append ((balanced_marker number).depthAfter? inside)]
      simpa using ih inside

/-- **No new blocks.** Where a body has no transposed block, its draft has none. -/
theorem transposedBlockAt_none (parked : Parked body draft)
    (missing : transposedBlockAt none body = none) : transposedBlockAt none draft = none := by
  cases found : transposedBlockAt none draft with
  | none => rfl
  | some item =>
      obtain ⟨_, rest⟩ := item
      obtain ⟨header, rfl, -, -, balanced⟩ := transposedBlockAt_eq_some_iff.mp found
      obtain ⟨inside, rfl, parked'⟩ := parked.front header.markerEdge_not_mem
      have closes : (splitBlock? inside).isSome = true := by
        have closed := splitBlock?_of_balanced balanced rest
        rw [splitBlock?, ← parked'.isSome_splitBlocks? 0, ← splitBlock?, closed]
        rfl
      obtain ⟨⟨body', rest'⟩, split⟩ := Option.isSome_iff_exists.mp closes
      obtain ⟨rfl, balanced'⟩ := splitBlock?_eq_some_iff.mp split
      rw [transposedBlockAt_written none header balanced'] at missing
      cases missing

/-- **No new references.** Where a body has no reference, its draft has none. -/
theorem referenceAt_none {table : Variables} (parked : Parked body draft)
    (missing : referenceAt table none body = none) : referenceAt table none draft = none := by
  cases found : referenceAt table none draft with
  | none => rfl
  | some item =>
      obtain ⟨text, rest⟩ := item
      obtain ⟨name, rfl, nonempty, word, stops, known⟩ := referenceAt_eq_some_iff.mp found
      have clean : markerEdge ∉ '\\' :: name := by
        intro member
        rcases List.mem_cons.mp member with edge | inside
        · exact absurd edge (by decide)
        · exact absurd (word _ inside) (by decide +kernel)
      rw [← List.cons_append] at parked
      obtain ⟨body', rfl, parked'⟩ := parked.front clean
      have reference : referenceAt table none ('\\' :: (name ++ body')) = some (text, body') :=
        referenceAt_eq_some_iff.mpr
          ⟨name, rfl, nonempty, word, parked'.stops_isWord.mpr stops, known⟩
      rw [List.cons_append, reference] at missing
      cases missing

end Parked

/-! ## The first round -/

/-- The block of a cut. -/
def Cut.block? : Cut → Option TransposedBlock
  | .block found => some found
  | .reference _ => none

/-- The body of the variable that a cut refers to. -/
def Cut.reference? : Cut → Option Text
  | .block _ => none
  | .reference body => some body

/-- The transposed blocks of a cut body. -/
def blocksOf (pieces : List (Text.Piece Cut)) : List TransposedBlock :=
  (pieces.filterMap Text.Piece.item?).filterMap Cut.block?

/-- The bodies of the variables that a cut body refers to. -/
def referencesOf (pieces : List (Text.Piece Cut)) : List Text :=
  (pieces.filterMap Text.Piece.item?).filterMap Cut.reference?

/-- What a scan for references yields once the blocks are parked: their markers are plain text. -/
def referencePieces : Nat → List (Text.Piece Cut) → List (Text.Piece Text)
  | _, [] => []
  | number, .plain c :: rest => .plain c :: referencePieces number rest
  | number, .item (.block _) :: rest =>
      (marker number).map .plain ++ referencePieces (number + 1) rest
  | number, .item (.reference body) :: rest => .item body :: referencePieces number rest

/-- A cut body with its parts numbered; blocks and references are counted apart. -/
def layout : Nat → Nat → List (Text.Piece Cut) → List (Text.Piece Nat)
  | _, _, [] => []
  | blocks, references, .plain c :: rest => .plain c :: layout blocks references rest
  | blocks, references, .item (.block _) :: rest =>
      .item blocks :: layout (blocks + 1) references rest
  | blocks, references, .item (.reference _) :: rest =>
      .item references :: layout blocks (references + 1) rest

/-- The draft of a cut body: the markers of its parts stand in their places. -/
def writeLayout (blocks references : Nat) (pieces : List (Text.Piece Cut)) : Text :=
  Text.writePieces marker (layout blocks references pieces)

/-- The draft in which only the transposed blocks are parked, numbered from a start. -/
def parkBlocks (number : Nat) (body : Text) : Text :=
  Text.writePieces marker (numbered number (Text.pieces transposedBlockAt body))

theorem numbered_stretch {α : Type} (number : Nat) (run : Text) (rest : List (Text.Piece α)) :
    numbered number (run.map .plain ++ rest) = run.map .plain ++ numbered number rest := by
  induction run with
  | nil => rfl
  | cons c more ih => exact congrArg (.plain c :: ·) ih

/-- A word has no backslash. -/
theorem ne_backslash_of_isWord {c : Char} (word : Text.isWord c = true) : c ≠ '\\' := by
  rintro rfl
  exact absurd word (by decide +kernel)

/-- Parking the references after the blocks leaves the markers of the blocks in place. -/
theorem writePieces_numbered_referencePieces (blocks references : Nat)
    (pieces : List (Text.Piece Cut)) :
    Text.writePieces marker (numbered references (referencePieces blocks pieces)) =
      writeLayout blocks references pieces := by
  induction pieces generalizing blocks references with
  | nil => rfl
  | cons piece rest ih =>
      cases piece with
      | plain c => exact congrArg (c :: ·) (ih blocks references)
      | item cut =>
          cases cut with
          | block _ =>
              rw [referencePieces, numbered_stretch, Text.writePieces_append,
                Text.writePieces_map_plain, ih]
              rfl
          | reference _ => exact congrArg (marker references ++ ·) (ih blocks (references + 1))

/-- The markers of the blocks are no references. -/
theorem filterMap_item?_referencePieces (number : Nat) (pieces : List (Text.Piece Cut)) :
    (referencePieces number pieces).filterMap Text.Piece.item? = referencesOf pieces := by
  induction pieces generalizing number with
  | nil => rfl
  | cons piece rest ih =>
      cases piece with
      | plain c => exact ih number
      | item cut =>
          cases cut with
          | block _ =>
              rw [referencePieces, List.filterMap_append, Text.filterMap_item?_stretch,
                List.nil_append, ih]
              rfl
          | reference body => exact congrArg (body :: ·) (ih number)

namespace Cuts

variable {table : Variables} {body : Text} {pieces : List (Text.Piece Cut)}

theorem pieces_block (header : TransposeHeader) {inside : Text} (balanced : Balanced inside)
    (rest : Text) :
    Text.pieces transposedBlockAt (header.text ++ (inside ++ '}' :: rest)) =
      .item ⟨header.source.text, header.target.text, inside⟩ ::
        Text.pieces transposedBlockAt rest := by
  have found := transposedBlockAt_written none header balanced rest
  rw [header.block_append] at found ⊢
  exact transposedBlockAt_ahead.pieces_of_item (by simp) found

theorem pieces_name {name rest : Text}
    (noBlock : transposedBlockAt none ('\\' :: (name ++ rest)) = none)
    (word : ∀ c ∈ name, Text.isWord c = true) :
    Text.pieces transposedBlockAt ('\\' :: (name ++ rest)) =
      ('\\' :: name).map .plain ++ Text.pieces transposedBlockAt rest := by
  rw [transposedBlockAt_ahead.pieces_of_none noBlock, transposedBlockAt_ahead.pieces_stretch]
  · rfl
  · exact fun c member => transposedBlockAt_of_ne (ne_backslash_of_isWord (word c member))

/-- A scan for blocks yields the blocks of the cut and passes over its references. -/
theorem blocks (cuts : Cuts table body pieces) :
    (Text.pieces transposedBlockAt body).filterMap Text.Piece.item? = blocksOf pieces := by
  induction cuts with
  | nil => rfl
  | plain noBlock _ _ ih =>
      rw [transposedBlockAt_ahead.pieces_of_none noBlock]
      exact ih
  | block header balanced _ ih =>
      rw [pieces_block header balanced]
      exact congrArg (_ :: ·) ih
  | reference noBlock _ word _ _ _ ih =>
      rw [pieces_name noBlock word, List.filterMap_append, Text.filterMap_item?_stretch]
      exact ih

theorem parkBlocks_plain {c : Char} {rest : Text}
    (noBlock : transposedBlockAt none (c :: rest) = none) (number : Nat) :
    parkBlocks number (c :: rest) = c :: parkBlocks number rest := by
  rw [parkBlocks, transposedBlockAt_ahead.pieces_of_none noBlock]
  rfl

theorem parkBlocks_block (header : TransposeHeader) {inside : Text} (balanced : Balanced inside)
    (number : Nat) (rest : Text) :
    parkBlocks number (header.text ++ (inside ++ '}' :: rest)) =
      marker number ++ parkBlocks (number + 1) rest := by
  rw [parkBlocks, pieces_block header balanced]
  rfl

theorem parkBlocks_name {name rest : Text}
    (noBlock : transposedBlockAt none ('\\' :: (name ++ rest)) = none)
    (word : ∀ c ∈ name, Text.isWord c = true) (number : Nat) :
    parkBlocks number ('\\' :: (name ++ rest)) = '\\' :: (name ++ parkBlocks number rest) := by
  rw [parkBlocks, pieces_name noBlock word, numbered_stretch, Text.writePieces_append,
    Text.writePieces_map_plain]
  rfl

theorem parked_block (header : TransposeHeader) {inside : Text} (balanced : Balanced inside)
    (number : Nat) {rest draft : Text} (later : Parked rest draft) :
    Parked (header.text ++ (inside ++ '}' :: rest)) (marker number ++ draft) := by
  obtain ⟨part, front⟩ := header.head_text (inside ++ ['}'])
  have closed := header.balanced_block balanced
  rw [header.block_append, front]
  rw [front] at closed
  exact .park number closed later

theorem parked_parkBlocks (cuts : Cuts table body pieces) (number : Nat) :
    Parked body (parkBlocks number body) := by
  induction cuts generalizing number with
  | nil => exact .nil
  | plain noBlock _ _ ih =>
      rw [parkBlocks_plain noBlock]
      exact .keep _ (ih number)
  | block header balanced _ ih =>
      rw [parkBlocks_block header balanced]
      exact parked_block header balanced number (ih (number + 1))
  | reference noBlock _ word _ _ _ ih =>
      rw [parkBlocks_name noBlock word]
      exact .keep _ (.append _ (ih number))

/-- **References outside of blocks.** Once the blocks are parked, a scan for references finds those
of the cut and takes the markers of the blocks for plain text. -/
theorem references (cuts : Cuts table body pieces) (number : Nat) :
    Text.pieces (referenceAt table) (parkBlocks number body) = referencePieces number pieces := by
  induction cuts generalizing number with
  | nil => rfl
  | @plain c _ _ noBlock noReference later ih =>
      have parked := Parked.keep c (later.parked_parkBlocks number)
      rw [parkBlocks_plain noBlock,
        (referenceAt_ahead table).pieces_of_none (parked.referenceAt_none noReference), ih]
      rfl
  | block header balanced _ ih =>
      rw [parkBlocks_block header balanced, pieces_marker (referenceAt_ahead table)
        (fun _ more other => referenceAt_of_ne other table more), ih]
      rfl
  | @reference name text rest _ noBlock nonempty word stops known later ih =>
      have stops' := (later.parked_parkBlocks number).stops_isWord.mp stops
      have found : referenceAt table none ('\\' :: (name ++ parkBlocks number rest)) =
          some (text, parkBlocks number rest) :=
        referenceAt_eq_some_iff.mpr ⟨name, rfl, nonempty, word, stops', known⟩
      rw [parkBlocks_name noBlock word, ← List.cons_append,
        (referenceAt_ahead table).pieces_of_item (List.cons_ne_nil _ _) found, ih]
      rfl

/-! ## Later rounds -/

/-- What the first round leaves is a draft of the body. -/
theorem parked_writeLayout (cuts : Cuts table body pieces) (blocks references : Nat) :
    Parked body (writeLayout blocks references pieces) := by
  induction cuts generalizing blocks references with
  | nil => exact .nil
  | plain _ _ _ ih => exact .keep _ (ih blocks references)
  | block header balanced _ ih =>
      exact parked_block header balanced blocks (ih (blocks + 1) references)
  | @reference name _ _ _ _ _ word _ _ _ ih =>
      have balanced : Balanced ('\\' :: name) :=
        (balanced_of_isWord word).cons (by decide) (by decide)
      exact .park references balanced (ih blocks (references + 1))

section Later

variable {α : Type} {recognise : Text.Recogniser α}

/-- **Later rounds find nothing** of a kind that begins with a backslash and that no draft gains:
every place of the draft is a character where the body had no part, or inside a marker. -/
theorem pieces_writeLayout (ahead : Text.LooksAhead recognise)
    (backslash : ∀ c more, c ≠ '\\' → recognise none (c :: more) = none)
    (inert : ∀ {body draft : Text}, Parked body draft → transposedBlockAt none body = none →
      referenceAt table none body = none → recognise none draft = none)
    (cuts : Cuts table body pieces) (blocks references : Nat) :
    Text.pieces recognise (writeLayout blocks references pieces) =
      (writeLayout blocks references pieces).map .plain := by
  induction cuts generalizing blocks references with
  | nil => rfl
  | @plain c _ _ noBlock noReference later ih =>
      have parked := Parked.keep c (later.parked_writeLayout blocks references)
      change Text.pieces recognise (_ :: writeLayout blocks references _) = _
      rw [ahead.pieces_of_none (inert parked noBlock noReference), ih]
      rfl
  | block _ _ _ ih =>
      change Text.pieces recognise (marker blocks ++ writeLayout (blocks + 1) references _) = _
      rw [pieces_marker ahead backslash, ih, ← List.map_append]
      rfl
  | reference _ _ _ _ _ _ ih =>
      change Text.pieces recognise (marker references ++ writeLayout blocks (references + 1) _) = _
      rw [pieces_marker ahead backslash, ih, ← List.map_append]
      rfl

end Later

/-- No later round finds a transposed block. -/
theorem pieces_transposedBlockAt_writeLayout (cuts : Cuts table body pieces)
    (blocks references : Nat) :
    Text.pieces transposedBlockAt (writeLayout blocks references pieces) =
      (writeLayout blocks references pieces).map .plain := by
  apply cuts.pieces_writeLayout transposedBlockAt_ahead
  · intro c more other
    exact transposedBlockAt_of_ne other more
  · intro body draft parked noBlock _
    exact parked.transposedBlockAt_none noBlock

/-- No later round finds a reference. -/
theorem pieces_referenceAt_writeLayout (cuts : Cuts table body pieces) (blocks references : Nat) :
    Text.pieces (referenceAt table) (writeLayout blocks references pieces) =
      (writeLayout blocks references pieces).map .plain := by
  apply cuts.pieces_writeLayout (referenceAt_ahead table)
  · intro c more other
    exact referenceAt_of_ne other table more
  · intro body draft parked _ noReference
    exact parked.referenceAt_none noReference

end Cuts

end Clavier
