import Clavier.Text.Blank

/-!
# Blocks in braces

A block runs from an opening brace to the closing brace that balances it. The
text after an opening brace is split at that closing brace; a block whose braces
never balance has none.
-/

set_option autoImplicit false

namespace Clavier

/-- The text before the brace that closes `inside + 1` blocks, and the text after it. -/
def splitBlocks? : Nat → Text → Option (Text × Text)
  | _, [] => none
  | inside, '{' :: rest =>
      (splitBlocks? (inside + 1) rest).map fun found => ('{' :: found.1, found.2)
  | 0, '}' :: rest => some ([], rest)
  | inside + 1, '}' :: rest =>
      (splitBlocks? inside rest).map fun found => ('}' :: found.1, found.2)
  | inside, c :: rest =>
      (splitBlocks? inside rest).map fun found => (c :: found.1, found.2)

/-- The body of the block whose opening brace ends just before a text, and the text after
its closing brace. -/
def splitBlock? (text : Text) : Option (Text × Text) := splitBlocks? 0 text

/-- The place of the brace that closes the block opened just before a place. -/
def closingBrace? (text : Text) (start : Nat) : Option Nat :=
  (splitBlock? (text.drop start)).map fun found => start + found.1.length

/-- The text after an opening brace that may have blanks in front. -/
def dropOpening? (text : Text) : Option Text :=
  match Text.trimStart text with
  | '{' :: rest => some rest
  | _ => none

/-- **Splitting a block.** The body, the closing brace and the rest make up the text. -/
theorem eq_append_of_splitBlocks? {inside : Nat} {text body rest : Text}
    (found : splitBlocks? inside text = some (body, rest)) : text = body ++ '}' :: rest := by
  fun_induction splitBlocks? inside text generalizing body rest with
  | case1 => simp at found
  | case2 inside rest' ih | case4 inside rest' ih | case5 inside c rest' _ _ _ ih =>
      obtain ⟨⟨body', rest''⟩, split, same⟩ := Option.map_eq_some_iff.mp found
      simp only [Prod.mk.injEq] at same
      rw [ih split, ← same.1, ← same.2]
      rfl
  | case3 rest' =>
      simp only [Option.some.injEq, Prod.mk.injEq] at found
      rw [← found.1, ← found.2]
      rfl

end Clavier
