import Clavier.Midi.Library
import Clavier.Midi.Performance
import Clavier.Midi.Writer

/-!
# The bundled MIDI library

The library that a studio is given unless it is given another one. It begins a song if
it can tell how long a tick lasts, and it makes the notes that do not end before they
start.
-/

set_option autoImplicit false

namespace Clavier

/-- The bundled library. -/
instance bundledLibrary : MidiLibrary where
  beginSong tempo := do
    let _ ← Midi.secondsPerTick tempo
    return ()
  makeNote note := if note.finish < note.start then .error .endsBeforeStart else .ok ()
  writeSong := Midi.fileBytes
  readSong bytes := do
    let file ← Midi.File.ofBytes bytes
    file.song
  readMessages bytes := do
    let file ← Midi.File.ofBytes bytes
    return file.messages

end Clavier
