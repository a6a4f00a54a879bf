import Clavier.Text.Utf8

/-!
# Quantities of a MIDI file

Times and lengths are written in groups of seven bits, highest group first. All
bytes but the last have their highest bit set. Sizes and counts in headers are
big-endian numbers of a fixed width.
-/

set_option autoImplicit false

namespace Clavier.Midi

/-! ## Variable width -/

/-- The groups of a number in front of other groups. -/
def quantityBefore (n : Nat) (lower : Bytes) : Bytes :=
  if n = 0 then lower else quantityBefore (n / 128) (.ofNat (128 + n % 128) :: lower)
termination_by n

/-- The bytes of a quantity. -/
def quantity (n : Nat) : Bytes := quantityBefore (n / 128) [.ofNat (n % 128)]

/-- The quantity at the front of some bytes, after groups with a value, and what follows it. -/
def readQuantityAfter? : Nat → Bytes → Option (Nat × Bytes)
  | _, [] => none
  | higher, b :: rest =>
      let value := 128 * higher + b.toNat % 128
      if b < 128 then some (value, rest) else readQuantityAfter? value rest

/-- The quantity at the front of some bytes, and what follows it. -/
def readQuantity? (bytes : Bytes) : Option (Nat × Bytes) := readQuantityAfter? 0 bytes

/-! ## Fixed width -/

/-- The bytes of a number, highest byte first, in a width. -/
def bigEndian : Nat → Nat → Bytes
  | 0, _ => []
  | width + 1, n => .ofNat (n / Nat.pow 256 width) :: bigEndian width n

/-- The number that some bytes stand for, highest byte first. -/
def fromBigEndian (bytes : Bytes) : Nat :=
  bytes.foldl (fun value b => 256 * value + b.toNat) 0

/-- The signed number that some bytes stand for, highest byte first. -/
def fromSignedBigEndian (bytes : Bytes) : Int :=
  let value := fromBigEndian bytes
  let range := Nat.pow 256 bytes.length
  if 2 * value < range then value else (value : Int) - range

end Clavier.Midi
