import Clavier.Proofs.Headers

/-!
# Cutting a body

A voice body is cut from left to right at its outermost closed transposed blocks and at
the references to variables of the table that stand outside of them. A reference is a
backslash and a maximal run of word characters that is a name of the table
(`referenceAt_eq_some_iff`). `Cuts` derives the cut of a body place by place, and every
body has one (`cuts_pieces`).
-/

set_option autoImplicit false

namespace Clavier

/-! ## The cut of a body -/

/-- What is cut out of a body: a transposed block, or a reference with the body it stands for. -/
inductive Cut where
  | block (block : TransposedBlock)
  | reference (body : Text)

/-- A part to cut out at one place: a transposed block that closes, or else a reference to a
variable of the table. -/
def cutAt (table : Variables) : Text.Recogniser Cut := fun before text =>
  match transposedBlockAt before text with
  | some (block, rest) => some (.block block, rest)
  | none => (referenceAt table before text).map fun found => (.reference found.1, found.2)

theorem transposedBlockAt_ahead : Text.LooksAhead transposedBlockAt := fun _ _ => rfl

theorem referenceAt_ahead (table : Variables) : Text.LooksAhead (referenceAt table) :=
  fun _ _ => rfl

theorem cutAt_ahead (table : Variables) : Text.LooksAhead (cutAt table) := fun _ _ => rfl

theorem transposedBlockAt_of_ne {c : Char} (other : c ≠ '\\') (more : Text) :
    transposedBlockAt none (c :: more) = none := by
  cases found : transposedBlockAt none (c :: more) with
  | none => rfl
  | some item =>
      obtain ⟨header, same, -⟩ := transposedBlockAt_eq_some_iff.mp found
      obtain ⟨tail, front⟩ := header.head_text (item.1.body ++ '}' :: item.2)
      rw [front] at same
      exact absurd (List.cons.inj same).1 other

theorem referenceAt_of_ne {c : Char} (other : c ≠ '\\') (table : Variables) (more : Text) :
    referenceAt table none (c :: more) = none := by
  unfold referenceAt
  split
  · rename_i same
    exact absurd (List.cons.inj same).1 other
  · rfl

/-- **References.** A reference is a backslash and a maximal run of word characters that is a name
of the table. -/
theorem referenceAt_eq_some_iff {table : Variables} {before : Option Char} {text body rest : Text} :
    referenceAt table before text = some (body, rest) ↔
      ∃ name, text = '\\' :: (name ++ rest) ∧ name ≠ [] ∧ (∀ c ∈ name, Text.isWord c = true) ∧
        Text.Stops Text.isWord rest ∧ table.body? name = some body := by
  constructor
  · intro found
    unfold referenceAt at found
    split at found
    · simp only [bind, Option.bind_eq_some_iff, pure, Option.some.injEq, Prod.mk.injEq] at found
      obtain ⟨⟨name, rest'⟩, run, body', known, rfl, rfl⟩ := found
      obtain ⟨nonempty, rfl, word, stops⟩ := takeRun?_eq_some_iff.mp run
      exact ⟨name, rfl, nonempty, word, stops, known⟩
    · cases found
  · rintro ⟨name, rfl, nonempty, word, stops, known⟩
    have run := takeRun?_eq_some_iff.mpr ⟨nonempty, rfl, word, stops⟩
    simp only [referenceAt, bind, run, Option.bind_some, known, pure]

/-- The cut of a body, place by place. -/
inductive Cuts (table : Variables) : Text → List (Text.Piece Cut) → Prop where
  | nil : Cuts table [] []
  | plain {c : Char} {rest : Text} {pieces : List (Text.Piece Cut)}
      (noBlock : transposedBlockAt none (c :: rest) = none)
      (noReference : referenceAt table none (c :: rest) = none) (later : Cuts table rest pieces) :
      Cuts table (c :: rest) (.plain c :: pieces)
  | block {rest : Text} {pieces : List (Text.Piece Cut)} (header : TransposeHeader) {body : Text}
      (balanced : Balanced body) (later : Cuts table rest pieces) :
      Cuts table (header.text ++ (body ++ '}' :: rest))
        (.item (.block ⟨header.source.text, header.target.text, body⟩) :: pieces)
  | reference {name body rest : Text} {pieces : List (Text.Piece Cut)}
      (noBlock : transposedBlockAt none ('\\' :: (name ++ rest)) = none) (nonempty : name ≠ [])
      (word : ∀ c ∈ name, Text.isWord c = true) (stops : Text.Stops Text.isWord rest)
      (known : table.body? name = some body) (later : Cuts table rest pieces) :
      Cuts table ('\\' :: (name ++ rest)) (.item (.reference body) :: pieces)

/-- A scan for parts to cut out takes the block that begins a text. -/
theorem pieces_cutAt_block (table : Variables) (header : TransposeHeader) {body : Text}
    (balanced : Balanced body) (rest : Text) :
    Text.pieces (cutAt table) (header.text ++ (body ++ '}' :: rest)) =
      .item (.block ⟨header.source.text, header.target.text, body⟩) ::
        Text.pieces (cutAt table) rest := by
  have cut : cutAt table none (header.text ++ (body ++ '}' :: rest)) =
      some (.block ⟨header.source.text, header.target.text, body⟩, rest) := by
    rw [cutAt, transposedBlockAt_written none header balanced]
  rw [header.block_append] at cut ⊢
  exact (cutAt_ahead table).pieces_of_item (by simp) cut

/-- A scan for parts to cut out takes the reference that begins a text, if no block does. -/
theorem pieces_cutAt_reference {table : Variables} {name body rest : Text}
    (noBlock : transposedBlockAt none ('\\' :: (name ++ rest)) = none)
    (reference : referenceAt table none ('\\' :: (name ++ rest)) = some (body, rest)) :
    Text.pieces (cutAt table) ('\\' :: (name ++ rest)) =
      .item (.reference body) :: Text.pieces (cutAt table) rest := by
  have cut : cutAt table none ('\\' :: (name ++ rest)) = some (.reference body, rest) := by
    rw [cutAt, noBlock, reference]
    rfl
  rw [← List.cons_append] at cut ⊢
  exact (cutAt_ahead table).pieces_of_item (List.cons_ne_nil _ _) cut

/-- Every body has a cut: the one that the scan for parts to cut out finds. The induction is on the
length, because a part can be as long as the whole body. -/
theorem cuts_pieces (table : Variables) (text : Text) :
    Cuts table text (Text.pieces (cutAt table) text) := by
  induction length : text.length using Nat.strongRecOn generalizing text with
  | ind n ih =>
      cases text with
      | nil => exact .nil
      | cons c rest =>
          cases block : transposedBlockAt none (c :: rest) with
          | some found =>
              obtain ⟨⟨source, target, body⟩, after⟩ := found
              obtain ⟨header, same, rfl, rfl, balanced⟩ := transposedBlockAt_eq_some_iff.mp block
              have shorter : after.length < n := by
                have widths := congrArg List.length same
                simp only [List.length_append, List.length_cons] at widths length
                omega
              rw [same, pieces_cutAt_block table header balanced]
              exact .block header balanced (ih _ shorter after rfl)
          | none =>
              cases reference : referenceAt table none (c :: rest) with
              | some found =>
                  obtain ⟨body, after⟩ := found
                  obtain ⟨name, same, named, word, stops, known⟩ :=
                    referenceAt_eq_some_iff.mp reference
                  have shorter : after.length < n := by
                    have widths := congrArg List.length same
                    simp only [List.length_append, List.length_cons] at widths length
                    omega
                  rw [same] at block reference ⊢
                  rw [pieces_cutAt_reference block reference]
                  exact .reference block named word stops known (ih _ shorter after rfl)
              | none =>
                  have missing : cutAt table none (c :: rest) = none := by
                    rw [cutAt, block, reference]
                    rfl
                  have shorter : rest.length < n := by
                    rw [← length]
                    exact Nat.lt_succ_self _
                  rw [(cutAt_ahead table).pieces_of_none missing]
                  exact .plain block reference (ih _ shorter rest rfl)

end Clavier
