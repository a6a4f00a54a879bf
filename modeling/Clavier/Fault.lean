/-!
# Faults

A fault stops an operation without an answer. It is not a refusal: no reply
explains it to the player. Documents cause one only with text that looks like the
expansion's own place markers. The other faults come from damaged MIDI files and
from parameters that no MIDI file can hold.
-/

set_option autoImplicit false

namespace Clavier

/-- Why an operation stops without an answer. -/
inductive Fault where
  /-- A place marker points past the parked texts. -/
  | markerOutOfRange
  /-- A place marker has too many digits to be read. -/
  | markerTooLong
  /-- A path holds a NUL character. -/
  | nulInPath
  /-- A number is divided by zero. -/
  | divisionByZero
  /-- A number is too large for a binary64 number or a tick, or an infinite one is made whole. -/
  | overflow
  /-- A number that is undefined is made whole. -/
  | undefinedNumber
  /-- A note ends before it starts. -/
  | endsBeforeStart
  /-- A number, a text or a whole track does not fit its field in a MIDI file. -/
  | outsideField
  /-- A MIDI file holds too little data for an event. -/
  | dataTooShort
  /-- A MIDI file holds a time code with an unknown frame rate. -/
  | unknownFrameRate
  /-- A MIDI file holds an unknown key signature. -/
  | unknownKeySignature
  deriving DecidableEq

/-- Two steps in a row succeed exactly when the first does and the second does with what the first
has returned. -/
theorem bind_eq_ok_iff {ε α β : Type} {first : Except ε α} {next : α → Except ε β} {result : β} :
    (first >>= next) = .ok result ↔ ∃ value, first = .ok value ∧ next value = .ok result := by
  cases first <;> simp [bind, Except.bind]

/-- Two steps in a row fail exactly when the first does or the second does with what the first has
returned. -/
theorem bind_eq_error_iff {ε α β : Type} {first : Except ε α} {next : α → Except ε β}
    {problem : ε} : (first >>= next) = .error problem ↔
      first = .error problem ∨ ∃ value, first = .ok value ∧ next value = .error problem := by
  cases first <;> simp [bind, Except.bind]

/-- A result that can be taken out is a success. -/
theorem toOption_eq_some_iff {ε α : Type} {result : Except ε α} {value : α} :
    result.toOption = some value ↔ result = .ok value := by
  cases result <;> simp [Except.toOption]

end Clavier
