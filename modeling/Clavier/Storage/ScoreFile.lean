import Clavier.Midi.Export
import Clavier.Midi.Import
import Clavier.Score.Document
import Clavier.Storage.Directory
import Clavier.Text.LineEnd

/-!
# Scores in files

Scores are read from documents and from MIDI files, and written to MIDI files. A
recorded performance is read from a MIDI file as the keys it presses. The bytes of
MIDI files are made and understood by the MIDI library.

A file that cannot be read or written is refused with the path as it was given.
Some defects of MIDI files are no refusals but faults: which ones depends on whether
the file is read as a score or as a recording.
-/

set_option autoImplicit false

namespace Clavier

/-- A path without NUL characters, as every operation on files needs it. -/
def checkedPath (path : Text) : Except Failure Text :=
  if '\x00' ∈ path then .error (.faulted .nulInPath) else .ok path

/-! ## Documents -/

/-- The score of the document at a path. -/
def loadDocument (directory : Directory) (path : Text) : Except Failure Score := do
  let path ← checkedPath path
  match directory.read (Path.normal path) with
  | .error problem =>
      .error (.rejected (.unreadableDocument path (problem.message (Path.normal path))))
  | .ok bytes =>
      match Utf8.decode bytes with
      | .error defect => .error (.rejected (.unreadableDocument path defect.message))
      | .ok text => orFault (Score.ofSource (Text.unifyLineEnds text))

/-! ## MIDI files -/

/-- The bytes of the MIDI file of a score. -/
def midiBytes [MidiLibrary] (settings : ExportSettings) (score : Score) : Except Failure Bytes := do
  let (tempo, song) ← settings.song score
  orFault (MidiLibrary.writeSong tempo song)

/-- The directory after a score is written to the MIDI file at a path. -/
def exportScore [MidiLibrary] (directory : Directory) (settings : ExportSettings)
    (score : Score) (path : Text) : Except Failure Directory := do
  let bytes ← midiBytes settings score
  let path ← checkedPath path
  match directory.write path bytes with
  | .ok written => .ok written
  | .error problem => .error (.rejected (.unwritableMidi path (problem.message path)))

/-- The content of the MIDI file at a path. -/
def readMidi (directory : Directory) (path : Text) : Except Failure Bytes := do
  let path ← checkedPath path
  match directory.read path with
  | .ok bytes => .ok bytes
  | .error problem => .error (.rejected (.unreadableMidi path (problem.message path)))

/-- What a defect means for a file that is read as a score. -/
def importFailure (path : Text) : Midi.Defect → Failure
  | .unknownKeySignature => .faulted .unknownKeySignature
  | .zeroTempo => .faulted .divisionByZero
  | defect => .rejected (.unreadableMidi path defect.message)

/-- The score of the MIDI file at a path. -/
def importScore [MidiLibrary] (directory : Directory) (path : Text) : Except Failure Score := do
  let bytes ← readMidi directory path
  match MidiLibrary.readSong bytes with
  | .ok song => .ok (Score.ofSong song)
  | .error defect => .error (importFailure path defect)

/-- What a defect means for a file that is read as a recording. -/
def recordingFailure (path : Text) : Midi.Defect → Failure
  | .unknownKeySignature => .faulted .unknownKeySignature
  | .dataTooShort => .faulted .dataTooShort
  | .unknownFrameRate _ => .faulted .unknownFrameRate
  | defect => .rejected (.unreadableMidi path defect.message)

/-- The keys that the recording at a path presses. -/
def recordedKeys [MidiLibrary] (directory : Directory) (path : Text) :
    Except Failure (List Int) := do
  let bytes ← readMidi directory path
  match MidiLibrary.readMessages bytes with
  | .error defect => .error (recordingFailure path defect)
  | .ok messages => .ok (pressedKeys messages)

end Clavier
