import Clavier.Text.Basic

/-!
# Drill of single notes

A drill asks for single white keys from the C of the middle octave up to the G of
the next one. Every press draws a new note, right or wrong; so does a reset. The
draws come from outside as an endless sequence of numbers.
-/

set_option autoImplicit false

namespace Clavier

/-- A note of the drill: the staff line or space it is drawn on, its name, its key, and how
far below the reference line it is drawn, in tenths. -/
structure DrillNote where
  step : Int
  name : Text
  key : Int
  tenthsBelow : Int
  deriving DecidableEq

/-- The notes a drill asks for, in ascending order. -/
def drillNotes : List DrillNote :=
  [ ⟨-2, "do".toList, 60, 12⟩, ⟨-1, "ré".toList, 62, 8⟩, ⟨0, "mi".toList, 64, 4⟩,
    ⟨1, "fa".toList, 65, 0⟩, ⟨2, "sol".toList, 67, -4⟩, ⟨3, "la".toList, 69, -8⟩,
    ⟨4, "si".toList, 71, -12⟩, ⟨5, "do".toList, 72, -16⟩, ⟨6, "ré".toList, 74, -20⟩,
    ⟨7, "mi".toList, 76, -24⟩, ⟨8, "fa".toList, 77, -27⟩, ⟨9, "sol".toList, 79, -30⟩ ]

namespace DrillNote

/-- The drill note of a key. -/
def ofKey? (key : Int) : Option DrillNote := drillNotes.find? (·.key = key)

/-- The drill note at a place of the table. -/
def atIndex? (index : Int) : Option DrillNote :=
  if 0 ≤ index then drillNotes[index.toNat]? else none

end DrillNote

/-- The state of a drill: the score, the place of the note asked for, and the draws to come. -/
structure Drill where
  score : Nat
  index : Nat
  draws : Nat → Nat

namespace Drill

/-- The drill after a draw. -/
def draw (drill : Drill) : Drill where
  score := drill.score
  index := drill.draws 0 % drillNotes.length
  draws := fun turn => drill.draws (turn + 1)

/-- A new drill over a sequence of draws. -/
def start (draws : Nat → Nat) : Drill := draw ⟨0, 0, draws⟩

/-- The note asked for. -/
def target? (drill : Drill) : Option DrillNote := drillNotes[drill.index]?

/-- Whether a press hits the note asked for, and the drill after it. -/
def press (drill : Drill) (key : Int) : Bool × Drill :=
  let hit := drill.target?.any fun note => note.key = key
  (hit, draw { drill with score := if hit then drill.score + 1 else drill.score })

/-- The drill with its score back at zero and a new note. -/
def reset (drill : Drill) : Drill := draw { drill with score := 0 }

end Drill

end Clavier
