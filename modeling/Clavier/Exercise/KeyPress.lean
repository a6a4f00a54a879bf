import Clavier.Exercise.Session

/-!
# Key presses of a keyboard

A keyboard sends messages. A message that switches a note on is a press, unless
its velocity is zero: then it is a release. All other messages are no presses.
-/

set_option autoImplicit false

namespace Clavier

/-- A message of a keyboard, as far as exercises tell messages apart. -/
inductive KeyMessage where
  | noteOn (key : Int) (velocity : Int)
  | other
  deriving DecidableEq

/-- The key that a message presses. -/
def KeyMessage.pressed? : KeyMessage → Option Int
  | .noteOn key velocity => if 0 < velocity then some key else none
  | .other => none

/-- The keys that messages press, in order. -/
def pressedKeys (messages : List KeyMessage) : List Int :=
  messages.filterMap KeyMessage.pressed?

/-- Whether each press among some messages is right, and the exercise after all of them. -/
def Exercise.receive (exercise : Exercise) (messages : List KeyMessage) :
    List Bool × Exercise :=
  exercise.pressAll (pressedKeys messages)

end Clavier
