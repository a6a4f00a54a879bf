import Clavier.Exercise.KeyPress
import Clavier.Midi.Defect
import Clavier.Midi.Song
import Clavier.Number.Amount
import Clavier.Text.Utf8

/-!
# MIDI libraries

What is inside a MIDI file is the matter of a library. A library lets a song begin with
a tempo and lets notes be made, or refuses to; from a song it makes the bytes of a file,
and of a file it says which song it holds and which messages.

Songs, notes, parts and texts are plain data: a library keeps them as they were given.
Everything that works with files works with any library. Results about exports say
what they need of the library.
-/

set_option autoImplicit false

namespace Clavier

/-- A library that writes songs to MIDI files and reads them. -/
class MidiLibrary where
  /-- Begins a song with a tempo. -/
  beginSong (tempo : Amount) : Except Fault Unit
  /-- Makes a note. -/
  makeNote (note : TimedNote Binary64) : Except Fault Unit
  /-- The bytes of the file of a song that was begun with a tempo. -/
  writeSong (tempo : Amount) (song : Song Binary64) : Except Fault Bytes
  /-- The song that the bytes of a file hold, its times counted in ticks. -/
  readSong (bytes : Bytes) : Except Midi.Defect (Song Nat)
  /-- The messages that the bytes of a file hold, those of all tracks in the order of time. -/
  readMessages (bytes : Bytes) : Except Midi.Defect (List KeyMessage)

end Clavier
