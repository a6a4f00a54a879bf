import Clavier.Text.Basic

/-!
# Songs

A song is what a MIDI file holds, as plain data: parts with timed notes, and texts
in the order of their times. Times are of any type: seconds in a song to be
written, ticks in a song that was read.
-/

set_option autoImplicit false

namespace Clavier

/-- A note with the times at which it starts and ends. -/
structure TimedNote (Time : Type) where
  key : Int
  velocity : Int
  start : Time
  finish : Time
  deriving DecidableEq

/-- The notes that one instrument plays. -/
structure Part (Time : Type) where
  name : Text
  program : Int
  drum : Bool
  notes : List (TimedNote Time)
  deriving DecidableEq

/-- The parts and the texts of a song. Texts are rows of characters that stand for bytes. -/
structure Song (Time : Type) where
  parts : List (Part Time)
  texts : List Text
  deriving DecidableEq

/-- What marks a text as the title of the song. -/
def titleTag : Text := "title:".toList

/-- What marks a text as the composer of the song. -/
def composerTag : Text := "composer:".toList

end Clavier
