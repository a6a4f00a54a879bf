import Clavier.Text.Basic

/-!
# Note words

A note word is one note as a document spells it: a letter, an accidental, a run
of octave marks and a fingering. Durations are not part of it.

The parts are texts, so that a word can also hold a spelling that no document
would contain; resolving such a word either ignores or refuses the odd parts.
-/

set_option autoImplicit false

namespace Clavier

/-- The mark that raises a note by an octave. -/
def raiseMark : Char := '\x27'

/-- The mark that lowers a note by an octave. -/
def lowerMark : Char := ','

/-- A character that is an octave mark. -/
def isOctaveMark (c : Char) : Bool := c = raiseMark || c = lowerMark

/-- The number of octaves that the marks of a text raise a note by. -/
def octaveShift (text : Text) : Int :=
  (text.count raiseMark : Int) - (text.count lowerMark : Int)

/-- One note as it is spelled. -/
structure NoteWord where
  letter : Text
  accidental : Text
  octaves : Text
  fingering : Text
  deriving DecidableEq

namespace NoteWord

/-- The spelling of a note word. -/
def text (word : NoteWord) : Text :=
  word.letter ++ word.accidental ++ word.octaves ++ word.fingering

/-- The octaves that the octave marks of a note word raise it by. -/
def shift (word : NoteWord) : Int := octaveShift word.octaves

end NoteWord

end Clavier
