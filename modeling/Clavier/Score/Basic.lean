import Clavier.Pitch.Key
import Clavier.Text.Numeral

/-!
# Scores

A score holds one row of notes for each hand, and the title and composer of the
piece. A note knows its key, the name it is shown with and, when it comes from a
document, its spelling there.
-/

set_option autoImplicit false

namespace Clavier

/-- A note of a score. -/
structure Note where
  key : Int
  name : Text
  spelling : Option Text
  deriving DecidableEq

/-- The title and the composer of a piece, where they are known. -/
structure Metadata where
  title : Option Text
  composer : Option Text
  deriving DecidableEq

/-- One of the two hands. The upper hand comes first wherever hands have an order. -/
inductive Hand where
  | upper
  | lower
  deriving DecidableEq

namespace Hand

/-- Both hands in order. -/
def all : List Hand := [.upper, .lower]

/-- The name of the voice that a hand plays. -/
def voiceName : Hand → Text
  | .upper => "upper".toList
  | .lower => "lower".toList

/-- The hand that plays the voice of a name. -/
def ofVoiceName? (name : Text) : Option Hand := all.find? (·.voiceName = name)

end Hand

/-- The notes of both hands and what is known of the piece. -/
structure Score where
  upper : List Note
  lower : List Note
  metadata : Metadata
  deriving DecidableEq

/-- The notes of a hand. -/
def Score.voice (score : Score) : Hand → List Note
  | .upper => score.upper
  | .lower => score.lower

end Clavier
