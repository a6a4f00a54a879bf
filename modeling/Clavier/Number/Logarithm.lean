import Clavier.Number.Binary64

/-!
# Logarithms of powers of two

The natural logarithm of a power of two is a multiple of the logarithm of two,
rounded to a binary64 number. The binary logarithm is the quotient of two natural
ones. It is rounded twice, so that it does not always give the exponent back.
-/

set_option autoImplicit false

namespace Clavier.Binary64

/-- The natural logarithm of two in parts of 2 ^ -200. -/
def lnTwoParts : Nat := 1113844574712631719546256151097547306333272293549090750737802

/-- The natural logarithm of a power of two. -/
def lnPowerOfTwo (exponent : Nat) : Binary64 :=
  ofFraction (exponent * lnTwoParts : Nat) (powerOfTwo 200)

/-- Whether the quotient of logarithms gives the exponent of a power of two back. -/
def isExactLogarithm (exponent : Nat) : Bool :=
  (lnPowerOfTwo exponent).div? (lnPowerOfTwo 1) = some (ofInt exponent)

end Clavier.Binary64
