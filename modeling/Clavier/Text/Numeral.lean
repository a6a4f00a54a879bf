import Clavier.Text.Blank
import Clavier.Text.Digit

/-!
# Decimal numerals

Numbers are written in ASCII digits without leading zeros. They are read more
freely: with blanks around them, with a sign, with the digits of any script, and
with single underscores between digits.

Bytes and code points are shown in hexadecimal digits.

A numeral of more than `maxDigits` digits is never read. Writing departs from this
limit: `ofNat` and `ofInt` write numbers of any size, though a numeral longer than it
could not be read back.
-/

set_option autoImplicit false

namespace Clavier.Text

/-! ## Writing -/

/-- The numeral of a natural number. -/
def ofNat (n : Nat) : Text := Nat.toDigits 10 n

/-- The numeral of an integer; a negative one has a minus sign in front. -/
def ofInt : Int → Text
  | .ofNat n => ofNat n
  | .negSucc n => '-' :: ofNat (n + 1)

/-- A number in lower case hexadecimal digits, filled with zeros to a width. -/
def hexadecimal (width n : Nat) : Text :=
  let digits := Nat.toDigits 16 n
  List.replicate (width - digits.length) '0' ++ digits

/-! ## Reading -/

/-- The largest number of digits a numeral may have, leading zeros included. -/
def maxDigits : Nat := 4300

/-- The number that a list of digits stands for, highest digit first. -/
def digitsValue (digits : List Nat) : Nat :=
  digits.foldl (fun value digit => 10 * value + digit) 0

/-- The values of a run of digits in which single underscores may stand between two digits. -/
def groupedDigits? : Text → Option (List Nat)
  | [] => none
  | [c] => (digitValue? c).map ([·])
  | c :: '_' :: rest => do
      let digit ← digitValue? c
      let more ← groupedDigits? rest
      return digit :: more
  | c :: rest => do
      let digit ← digitValue? c
      let more ← groupedDigits? rest
      return digit :: more

/-- The natural number that a digit run stands for, if it has no more digits than a limit. -/
def readNatUpTo? (limit : Nat) (text : Text) : Option Nat := do
  let digits ← groupedDigits? text
  if digits.length ≤ limit then some (digitsValue digits) else none

/-- The natural number that a digit run stands for. -/
def readNat? (text : Text) : Option Nat := readNatUpTo? maxDigits text

/-- Blanks that may stand around a numeral. Those that separate files, groups, records and units
may not. -/
def isNumeralBlank (c : Char) : Bool := isBlank c && !(28 ≤ c.toNat && c.toNat ≤ 31)

/-- The integer that a numeral with an optional sign stands for, blanks around it aside. -/
def readInt? (text : Text) : Option Int :=
  match ((text.dropWhile isNumeralBlank).reverse.dropWhile isNumeralBlank).reverse with
  | '-' :: rest => (readNat? rest).map fun n => -(n : Int)
  | '+' :: rest => (readNat? rest).map fun n => (n : Int)
  | rest => (readNat? rest).map fun n => (n : Int)

end Clavier.Text
