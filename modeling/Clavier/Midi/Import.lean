import Clavier.Midi.Song
import Clavier.Midi.Text
import Clavier.Score.Basic
import Clavier.Text.Blank
import Clavier.Text.LowerCase

/-!
# Scores of songs

Parts that bear the name of a voice fill that voice; of several parts with one name
the last one does. If no part bears such a name, the first two parts are the voices.
Drum parts are left out.

The notes of a part are ordered by their start and then by their key. Title and
composer are the first texts with the tags.
-/

set_option autoImplicit false

namespace Clavier

variable {Time : Type} [LT Time] [DecidableLT Time]

/-- Whether a note comes before another one, or at the same place. -/
def TimedNote.precedes (first second : TimedNote Time) : Bool :=
  decide (first.start < second.start) ||
    (!decide (second.start < first.start) && decide (first.key ≤ second.key))

/-- The notes of a voice that a part fills. -/
def Part.voiceNotes (part : Part Time) : List Note :=
  (part.notes.mergeSort TimedNote.precedes).map fun note => ⟨note.key, keyName note.key, none⟩

/-- Whether a part bears the name of a hand's voice, blanks around it and capitals aside. -/
def Part.isNamedFor (part : Part Time) (hand : Hand) : Bool :=
  Text.lower (Text.trim part.name) = hand.voiceName

/-- The part that fills the voice of a hand. -/
def partFor? (parts : List (Part Time)) (hand : Hand) : Option (Part Time) :=
  if Hand.all.any fun named => parts.any (·.isNamedFor named) then
    parts.findRev? (·.isNamedFor hand)
  else
    match hand with
    | .upper => parts[0]?
    | .lower => parts[1]?

/-- The text after a tag, in the first text that has the tag. -/
def firstTagged? (tag : Text) (texts : List Text) : Option Text :=
  texts.findSome? fun text => Text.dropStart? tag (fromMidiText text)

/-- The score of a song. -/
def Score.ofSong (song : Song Time) : Score :=
  let parts := song.parts.filter fun part => !part.drum
  let notes := fun hand => ((partFor? parts hand).map Part.voiceNotes).getD []
  ⟨notes .upper, notes .lower,
    ⟨firstTagged? titleTag song.texts, firstTagged? composerTag song.texts⟩⟩

end Clavier
