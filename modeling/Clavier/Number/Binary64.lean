/-!
# Binary64 numbers

Times in a song are binary64 numbers, and every operation on them rounds its exact
result to the nearest number, a tie to the even one.

A finite number is a sign and a count of units of 2 ^ -1074, the smallest positive
number. Numbers have at most 53 significant bits, so that a count of units has
zeros below its highest 53 bits. Rounding a quotient of natural numbers to such a
count is all that multiplication, division and addition need.
-/

set_option autoImplicit false

namespace Clavier

/-! ## Rounding -/

/-- The whole number nearest to a quotient, a tie to the even one. -/
def roundQuotient (numerator denominator : Nat) : Nat :=
  let quotient := numerator / denominator
  let remainder := 2 * (numerator % denominator)
  if remainder < denominator then quotient
  else if denominator < remainder then quotient + 1
  else quotient + quotient % 2

/-- A power of two. -/
def powerOfTwo (exponent : Nat) : Nat := Nat.pow 2 exponent

/-- The quotient rounded to 53 significant bits, or to a whole number if that is finer. -/
def roundSignificant (numerator denominator : Nat) : Nat :=
  let dropped := (numerator / denominator).log2 + 1 - 53
  roundQuotient numerator (denominator * powerOfTwo dropped) * powerOfTwo dropped

/-! ## Numbers -/

/-- A binary64 number; a finite one counts units of 2 ^ -1074. -/
inductive Binary64 where
  | finite (negative : Bool) (units : Nat)
  | infinite (negative : Bool)
  | undefined
  deriving DecidableEq

namespace Binary64

/-- The units of the number one. -/
def unitsOfOne : Nat := powerOfTwo 1074

/-- The least count of units that is too large for a finite number. -/
def unitsLimit : Nat := powerOfTwo 2098

/-- The number nearest to a quotient of units. -/
def ofUnits (negative : Bool) (numerator denominator : Nat) : Binary64 :=
  let units := roundSignificant numerator denominator
  if units < unitsLimit then .finite negative units else .infinite negative

/-- The number nearest to a fraction. -/
def ofFraction (numerator : Int) (denominator : Nat) : Binary64 :=
  ofUnits (numerator < 0) (numerator.natAbs * unitsOfOne) denominator

/-- The number nearest to an integer. -/
def ofInt (n : Int) : Binary64 := ofFraction n 1

/-- The number nearest to a decimal: digits times a power of ten, with a sign. -/
def ofDecimal (negative : Bool) (digits : Nat) (exponent : Int) : Binary64 :=
  ofUnits negative (digits * Nat.pow 10 exponent.toNat * unitsOfOne)
    (Nat.pow 10 (-exponent).toNat)

/-- The number zero. -/
def zero : Binary64 := .finite false 0

/-- Whether a number is zero, of either sign. -/
def isZero : Binary64 → Bool
  | .finite _ units => units = 0
  | _ => false

/-- The units of a finite number, with its sign. -/
def signedUnits (negative : Bool) (units : Nat) : Int := if negative then -(units : Int) else units

/-! ## Arithmetic -/

/-- The product of two numbers. -/
def mul : Binary64 → Binary64 → Binary64
  | .finite s a, .finite t b => ofUnits (s != t) (a * b) unitsOfOne
  | .finite s a, .infinite t => if a = 0 then .undefined else .infinite (s != t)
  | .infinite s, .finite t b => if b = 0 then .undefined else .infinite (s != t)
  | .infinite s, .infinite t => .infinite (s != t)
  | _, _ => .undefined

/-- The quotient of two numbers; there is none over zero. -/
def div? : Binary64 → Binary64 → Option Binary64
  | .finite s a, .finite t b =>
      if b = 0 then none else some (ofUnits (s != t) (a * unitsOfOne) b)
  | .infinite s, .finite t b => if b = 0 then none else some (.infinite (s != t))
  | .undefined, .finite _ b => if b = 0 then none else some .undefined
  | .finite s _, .infinite t => some (.finite (s != t) 0)
  | _, _ => some .undefined

/-- The sum of two numbers. A sum of zero is negative only if both numbers are negative zeros. -/
def add : Binary64 → Binary64 → Binary64
  | .finite s a, .finite t b =>
      let sum := signedUnits s a + signedUnits t b
      if sum = 0 then .finite (s && t) 0 else ofUnits (sum < 0) sum.natAbs 1
  | .infinite s, .infinite t => if s = t then .infinite s else .undefined
  | .infinite s, .finite _ _ => .infinite s
  | .finite _ _, .infinite t => .infinite t
  | _, _ => .undefined

/-- Whether a number is below another one. -/
def isBelow : Binary64 → Binary64 → Bool
  | .finite s a, .finite t b => signedUnits s a < signedUnits t b
  | .infinite s, .finite _ _ => s
  | .finite _ _, .infinite t => !t
  | .infinite s, .infinite t => s && !t
  | _, _ => false

instance : LT Binary64 := ⟨fun a b => isBelow a b = true⟩

instance : DecidableLT Binary64 := fun a b => inferInstanceAs (Decidable (isBelow a b = true))

/-! ## Bits -/

/-- The magnitude bits of a count of units. The formula is the same for all sizes: with fewer
than 53 significant bits the bits are the units themselves. -/
def magnitudeBits (units : Nat) : Nat :=
  let shift := units.log2 - 52
  shift * powerOfTwo 52 + units / powerOfTwo shift

/-- The 64 bits that stand for a number. -/
def bits : Binary64 → Nat
  | .finite negative units => (if negative then powerOfTwo 63 else 0) + magnitudeBits units
  | .infinite negative => (if negative then powerOfTwo 63 else 0) + 2047 * powerOfTwo 52
  | .undefined => powerOfTwo 63 + 4095 * powerOfTwo 51

end Binary64

end Clavier
