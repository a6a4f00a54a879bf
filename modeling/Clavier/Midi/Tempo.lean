import Clavier.Midi.Defect
import Clavier.Midi.Event

/-!
# The tempo of a file

The division of a file and the tempo events of its first track tell how many seconds
a tick lasts. Up to the first tempo event a quarter note lasts half a second. With
a negative division time runs backwards, and all times but the start are negative.
-/

set_option autoImplicit false

namespace Clavier.Midi

/-- A span of ticks of one length. It lasts up to the start of the next span. -/
structure TempoSpan where
  start : Nat
  tickSeconds : Binary64

/-- The microseconds of a quarter note at the start of a file. -/
def startTempo : Nat := 500000

/-- The seconds that a tick lasts, for a division and the microseconds of a quarter note. -/
def tickSeconds (division : Int) (tempo : Nat) : Except Defect Binary64 :=
  let seconds := do
    let beatsPerMinute ← (Binary64.ofInt 60000000).div? (.ofInt tempo)
    (Binary64.ofInt 60).div? (beatsPerMinute.mul (.ofInt division))
  match seconds with
  | some seconds => .ok seconds
  | none => .error .zeroTempo

/-- The spans that the events of a track start, after a span with ticks of a length. A tempo
that changes nothing starts none. -/
def tempoSpansFrom (division : Int) :
    Binary64 → List (Nat × Event) → Except Defect (List TempoSpan)
  | _, [] => .ok []
  | current, (tick, .tempo tempo) :: rest => do
      let seconds ← tickSeconds division tempo
      let spans ← tempoSpansFrom division seconds rest
      return if seconds = current then spans else ⟨tick, seconds⟩ :: spans
  | current, _ :: rest => tempoSpansFrom division current rest

/-- The spans of a file with a division, for the events of its first track. -/
def tempoSpans (division : Int) (events : List (Nat × Event)) :
    Except Defect (List TempoSpan) := do
  let seconds ← tickSeconds division startTempo
  let spans ← tempoSpansFrom division seconds events
  return ⟨0, seconds⟩ :: spans

/-- The time of a tick after the start of a span at a time. -/
def TempoSpan.secondsAt (span : TempoSpan) (origin : Binary64) (tick : Nat) : Binary64 :=
  origin.add (span.tickSeconds.mul (.ofInt (tick - span.start : Nat)))

/-- The time of a tick, for spans the first of which starts at a time. -/
def secondsFrom (origin : Binary64) : List TempoSpan → Nat → Binary64
  | [], _ => origin
  | [span], tick => span.secondsAt origin tick
  | span :: next :: rest, tick =>
      if tick < next.start then span.secondsAt origin tick
      else secondsFrom (span.secondsAt origin next.start) (next :: rest) tick

/-- The seconds from the start of a file to a tick. -/
def secondsOfTick (spans : List TempoSpan) (tick : Nat) : Binary64 :=
  secondsFrom .zero spans tick

end Clavier.Midi
