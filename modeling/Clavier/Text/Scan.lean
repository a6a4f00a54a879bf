import Clavier.Text.Basic

/-!
# Scanning a text from left to right

A recogniser looks at one place of a text: it sees the character before the
place and everything from the place on. Where it recognises an item it returns
the item and the text that follows.

Scanning tries a recogniser at every place from left to right. A place where it
succeeds yields an item and the scan goes on after the item (`piecesFrom_of_item`), so
that items never overlap. Every other place yields its character
(`piecesFrom_of_none`).
-/

set_option autoImplicit false

namespace Clavier.Text

/-- Recognition of an item at one place, given the character before it. -/
abbrev Recogniser (α : Type) := Option Char → Text → Option (α × Text)

/-- What a scan yields at a place. -/
inductive Piece (α : Type) where
  | plain (c : Char)
  | item (value : α)

variable {α : Type}

/-! ## The scan -/

/-- The pieces of a text, after a number of characters that belong to the item before. -/
def piecesFrom (recognise : Recogniser α) : Option Char → Nat → Text → List (Piece α)
  | _, _, [] => []
  | _, skip + 1, c :: rest => piecesFrom recognise (some c) skip rest
  | before, 0, c :: rest =>
      match recognise before (c :: rest) with
      | some (value, after) =>
          .item value :: piecesFrom recognise (some c) (rest.length - after.length) rest
      | none => .plain c :: piecesFrom recognise (some c) 0 rest

/-- The pieces of a whole text. -/
def pieces (recognise : Recogniser α) (text : Text) : List (Piece α) :=
  piecesFrom recognise none 0 text

/-- The item of a piece. -/
def Piece.item? : Piece α → Option α
  | .plain _ => none
  | .item value => some value

/-- The character of a piece. -/
def Piece.plain? : Piece α → Option Char
  | .plain c => some c
  | .item _ => none

/-- The items of a text, from left to right. -/
def items (recognise : Recogniser α) (text : Text) : List α :=
  (pieces recognise text).filterMap Piece.item?

/-- A text without its items. -/
def without (recognise : Recogniser α) (text : Text) : Text :=
  (pieces recognise text).filterMap Piece.plain?

/-- A text with every item written anew. -/
def replacing (recognise : Recogniser α) (write : α → Text) (text : Text) : Text :=
  (pieces recognise text).flatMap fun
    | .plain c => [c]
    | .item value => write value

/-! ## Going on after an item -/

/-- Skipping characters moves a scan to the place after them. -/
theorem piecesFrom_skip (recognise : Recogniser α) (before : Char) (taken rest : Text) :
    piecesFrom recognise (some before) taken.length (taken ++ rest) =
      piecesFrom recognise (some ((before :: taken).getLast (by simp))) 0 rest := by
  induction taken generalizing before with
  | nil => rfl
  | cons c more ih =>
      simp only [List.length_cons, List.cons_append, piecesFrom]
      rw [ih c, List.getLast_cons_cons]

/-- **Scanning past an item.** After an item the scan goes on with the text that follows it. -/
theorem piecesFrom_of_item {recognise : Recogniser α} {before : Option Char} {c : Char}
    {taken after : Text} {value : α}
    (found : recognise before (c :: taken ++ after) = some (value, after)) :
    piecesFrom recognise before 0 (c :: taken ++ after) =
      .item value :: piecesFrom recognise (some ((c :: taken).getLast (by simp))) 0 after := by
  rw [List.cons_append] at found
  simp only [List.cons_append, piecesFrom, found]
  have width : (taken ++ after).length - after.length = taken.length := by simp
  rw [width, piecesFrom_skip]

/-- A place without an item yields its character. -/
theorem piecesFrom_of_none {recognise : Recogniser α} {before : Option Char} {c : Char}
    {rest : Text} (missing : recognise before (c :: rest) = none) :
    piecesFrom recognise before 0 (c :: rest) =
      .plain c :: piecesFrom recognise (some c) 0 rest := by
  simp only [piecesFrom, missing]

/-! ## The first item -/

/-- The first item at or after a place, and the text that follows it. -/
def firstItemFrom? (recognise : Recogniser α) : Option Char → Text → Option (α × Text)
  | _, [] => none
  | before, c :: rest =>
      match recognise before (c :: rest) with
      | some found => some found
      | none => firstItemFrom? recognise (some c) rest

/-- The first item of a text, and the text that follows it. -/
def firstItem? (recognise : Recogniser α) (text : Text) : Option (α × Text) :=
  firstItemFrom? recognise none text

end Clavier.Text
