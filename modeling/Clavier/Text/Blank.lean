import Clavier.Text.Basic

/-!
# Blank characters

Blank characters separate the words of a document and of a command. Trimming
removes them at both ends of a text.
-/

set_option autoImplicit false

namespace Clavier.Text

/-- Blank characters above the ASCII range. -/
def blankRanges : List (Nat × Nat) :=
  [ (0x85, 0x85), (0xa0, 0xa0), (0x1680, 0x1680), (0x2000, 0x200a), (0x2028, 0x2029),
    (0x202f, 0x202f), (0x205f, 0x205f), (0x3000, 0x3000) ]

/-- A character that only separates words. -/
def isBlank (c : Char) : Bool :=
  c = ' ' || (9 ≤ c.toNat && c.toNat ≤ 13) || (28 ≤ c.toNat && c.toNat ≤ 31) ||
    (128 ≤ c.toNat && inRanges blankRanges c.toNat)

/-- A text without the blanks at its start. -/
def trimStart (text : Text) : Text := text.dropWhile isBlank

/-- A text without the blanks at its end. -/
def trimEnd (text : Text) : Text := (text.reverse.dropWhile isBlank).reverse

/-- A text without the blanks at both ends. -/
def trim (text : Text) : Text := trimEnd (trimStart text)

/-- One or more blanks, and the text after all of them. -/
def dropBlanks? : Text → Option Text
  | c :: rest => if isBlank c then some (trimStart rest) else none
  | [] => none

/-- The first word of a trimmed text and the text after the blanks that end it. -/
def cutFirstWord (text : Text) : Text × Text :=
  let (word, rest) := splitWhile (fun c => !isBlank c) (trimStart text)
  (word, trimStart rest)

end Clavier.Text
