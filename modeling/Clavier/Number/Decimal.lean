import Clavier.Number.Binary64
import Clavier.Text.Numeral

/-!
# Decimals of binary64 numbers

A number is written with the fewest digits that read back as the number; of several
such decimals the nearest one is written. At each place only the two neighbours of
the number can read back, so that going from the first digit down, place by place,
finds the shortest decimal.

A decimal whose first digit stands at 10 ^ -4 to 10 ^ 15 is written with a point, any
other one with an exponent.
-/

set_option autoImplicit false

namespace Clavier

/-- Digits times a power of ten. -/
structure Decimal where
  digits : Nat
  exponent : Int
  deriving DecidableEq

/-! ## Finding the digits -/

namespace Decimal

/-- The number nearest to a decimal. -/
def toBinary64 (decimal : Decimal) : Binary64 :=
  .ofDecimal false decimal.digits decimal.exponent

/-- The neighbours of a count of units among the decimals with an exponent. The nearer one
comes first, of two equally near ones the even one. -/
def neighbours (units : Nat) (exponent : Int) : List Decimal :=
  let numerator := units * Nat.pow 10 (-exponent).toNat
  let denominator := Binary64.unitsOfOne * Nat.pow 10 exponent.toNat
  let nearer := roundQuotient numerator denominator
  [⟨nearer, exponent⟩, ⟨2 * (numerator / denominator) + 1 - nearer, exponent⟩]

/-- The exponent of the first digit of a count of units. -/
def leadingExponent (units : Nat) : Int :=
  if units < Binary64.unitsOfOne then
    -((Text.ofNat ((Binary64.unitsOfOne - 1) / units)).length : Int)
  else ((Text.ofNat (units / Binary64.unitsOfOne)).length : Int) - 1

/-- The shortest decimal of a count of units among those that reach down to an exponent, or a
number of exponents further. -/
def shortestFrom (units : Nat) : Nat → Int → Decimal
  | 0, exponent =>
      ⟨roundQuotient (units * Nat.pow 10 (-exponent).toNat)
        (Binary64.unitsOfOne * Nat.pow 10 exponent.toNat), exponent⟩
  | more + 1, exponent =>
      match (neighbours units exponent).find? (·.toBinary64 = .finite false units) with
      | some decimal => decimal
      | none => shortestFrom units more (exponent - 1)

/-- The shortest decimal of a count of units. Seventeen digits always read back. -/
def shortest (units : Nat) : Decimal := shortestFrom units 16 (leadingExponent units)

/-! ## Writing the digits -/

/-- Digits without the zeros at their end. -/
def withoutTrailingZeros (digits : Text) : Text :=
  (digits.reverse.dropWhile (· = '0')).reverse

/-- Digits with a point, for an exponent of the first digit. -/
def positional (exponent : Int) (digits : Text) : Text :=
  let padded := List.replicate (-exponent).toNat '0' ++ digits
  let whole := exponent.toNat + 1
  let fraction := padded.drop whole
  padded.take whole ++ List.replicate (whole - padded.length) '0' ++
    '.' :: (if fraction.isEmpty then ['0'] else fraction)

/-- Digits with an exponent of at least two digits, for the exponent of the first digit. -/
def scientific (exponent : Int) (digits : Text) : Text :=
  let fraction := digits.drop 1
  let power := Text.ofNat exponent.natAbs
  digits.take 1 ++ (if fraction.isEmpty then [] else '.' :: fraction) ++
    'e' :: (if exponent < 0 then '-' else '+') ::
      (List.replicate (2 - power.length) '0' ++ power)

/-- The text of a decimal. -/
def text (decimal : Decimal) : Text :=
  let numeral := Text.ofNat decimal.digits
  let exponent := decimal.exponent + numeral.length - 1
  let digits := withoutTrailingZeros numeral
  if -4 ≤ exponent ∧ exponent < 16 then positional exponent digits
  else scientific exponent digits

end Decimal

/-- The text of a number. -/
def Binary64.text : Binary64 → Text
  | .finite negative units =>
      (if negative then ['-'] else []) ++
        (if units = 0 then "0.0".toList else (Decimal.shortest units).text)
  | .infinite negative => (if negative then ['-'] else []) ++ "inf".toList
  | .undefined => "nan".toList

end Clavier
