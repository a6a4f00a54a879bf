import Clavier.Fault
import Clavier.Number.Binary64

/-!
# Amounts

A tempo or a length is given as a whole number or as a binary64 number. Products
with whole numbers are exact before they become binary64 numbers.

A tempo counts beats per minute, and times are counted in seconds.
-/

set_option autoImplicit false

namespace Clavier

/-- A number that is whole or binary64. -/
inductive Amount where
  | whole (n : Int)
  | real (x : Binary64)
  deriving DecidableEq

namespace Binary64

/-- The quotient of two numbers. -/
def div (x y : Binary64) : Except Fault Binary64 :=
  match div? x y with
  | some quotient => .ok quotient
  | none => .error .divisionByZero

/-- A number unless it is infinite. -/
def bounded : Binary64 → Except Fault Binary64
  | .infinite _ => .error .overflow
  | x => .ok x

theorem bounded_eq_ok_iff {x y : Binary64} :
    x.bounded = .ok y ↔ x = y ∧ ∀ negative, x ≠ .infinite negative := by
  cases x <;> simp [bounded]

/-- The integer a number becomes when each magnitude in units is made whole. -/
def toIntBy (whole : Nat → Nat) : Binary64 → Except Fault Int
  | .finite negative units => .ok (signedUnits negative (whole units))
  | .infinite _ => .error .overflow
  | .undefined => .error .undefinedNumber

/-- The integer between zero and a number that is nearest to the number. -/
def truncate : Binary64 → Except Fault Int := toIntBy (· / unitsOfOne)

/-- The integer nearest to a number, a tie to the even one. -/
def round : Binary64 → Except Fault Int := toIntBy (roundQuotient · unitsOfOne)

end Binary64

namespace Amount

/-- The binary64 number nearest to an amount. -/
def toBinary64 : Amount → Except Fault Binary64
  | .whole n => (Binary64.ofInt n).bounded
  | .real x => .ok x

theorem toBinary64_whole (n : Int) : (whole n).toBinary64 = (Binary64.ofInt n).bounded := rfl

/-- An amount times a whole number. -/
def times : Amount → Int → Amount
  | .whole n, factor => .whole (n * factor)
  | .real x, factor => .real (x.mul (.ofInt factor))

end Amount

/-- The seconds of a minute. -/
def secondsPerMinute : Binary64 := .ofInt 60

end Clavier
