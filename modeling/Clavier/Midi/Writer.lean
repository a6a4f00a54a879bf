import Clavier.Fault
import Clavier.Midi.Event
import Clavier.Midi.Quantity
import Clavier.Midi.Song
import Clavier.Midi.Text
import Clavier.Number.Amount

/-!
# Writing MIDI files

A song is written as one track with the tempo, the time signature and the texts, and
one track for each part, on a channel of its own: a score has a part for each hand at
most, so that channels do not run out. Times become ticks by rounding.

A message that has the status of the message before is written without it; a meta
event in between makes the status be written again.

Fields that do not fit are no part of any file: numbers and texts that are too large
for theirs, and chunks whose size four bytes cannot say, make the writing fail.
-/

set_option autoImplicit false

namespace Clavier.Midi

/-! ## Bytes of a track -/

/-- The bytes of a message after a status, and the status for the message after it. -/
def messageBytes (running : Option UInt8) : Message → Bytes × Option UInt8
  | .metaEvent kind data => (0xff :: kind :: (quantity data.length ++ data), none)
  | .exclusive data => (0xf0 :: (quantity (data.length + 1) ++ data ++ [0xf7]), none)
  | .short status data => (if running = some status then data else status :: data, some status)

/-- The bytes of messages at ticks, from a tick on and after a status. -/
def eventsBytes : Nat → Option UInt8 → List (Nat × Message) → Bytes
  | _, _, [] => []
  | now, running, (tick, message) :: rest =>
      let (bytes, running) := messageBytes running message
      quantity (tick - now) ++ bytes ++ eventsBytes tick running rest

/-- The least size of a chunk that four bytes cannot say. -/
def chunkLimit : Nat := powerOfTwo 32

/-- A chunk with its name and size. -/
def chunk (name : Bytes) (content : Bytes) : Except Fault Bytes :=
  if content.length < chunkLimit then .ok (name ++ bigEndian 4 content.length ++ content)
  else .error .outsideField

/-- The messages of a track with its end, one tick after the last message. -/
def ended (messages : List (Nat × Message)) : List (Nat × Message) :=
  let last := (messages.getLast?.map Prod.fst).getD 0
  messages ++ [(last + 1, .metaEvent 0x2f [])]

/-- The track of messages at ticks. -/
def trackBytes (messages : List (Nat × Message)) : Except Fault Bytes :=
  chunk [0x4d, 0x54, 0x72, 0x6b] (eventsBytes 0 none (ended messages))

/-! ## Messages of a song -/

/-- The bytes of a text whose characters stand for bytes. -/
def textBytes (text : Text) : Except Fault Bytes :=
  match bytesOfChars? text with
  | some bytes => .ok bytes
  | none => .error .outsideField

/-- A number that fits a field with a largest value. -/
def fitting (largest : Nat) (n : Int) : Except Fault Nat :=
  if 0 ≤ n ∧ n ≤ largest then .ok n.toNat else .error .outsideField

/-- The ticks of a file per quarter note. -/
def ticksPerQuarter : Nat := 220

/-- The seconds that a tick lasts at a tempo. -/
def secondsPerTick (tempo : Amount) : Except Fault Binary64 := do
  let ticksPerMinute ← (tempo.times ticksPerQuarter).toBinary64
  secondsPerMinute.div ticksPerMinute

/-- The microseconds of a quarter note, for ticks that last a number of seconds. -/
def tempoValue (tickSeconds : Binary64) : Except Fault Nat := do
  let quarterSeconds := tickSeconds.mul (.ofInt ticksPerQuarter)
  let beatsPerMinute ← secondsPerMinute.div quarterSeconds
  let microseconds ← (Binary64.ofInt 60000000).div beatsPerMinute
  let whole ← microseconds.truncate
  fitting 0xffffff whole

/-- The tick of a time: the start for times up to zero, and the nearest tick for others. -/
def tickOf (tickSeconds time : Binary64) : Except Fault Nat := do
  if time.isBelow .zero || time.isZero then return 0
  let ticks ← time.div tickSeconds
  let nearest ← ticks.round
  if nearest < 0 then throw .outsideField
  return nearest.toNat

/-- A key pressed, or released with velocity zero, at a tick. -/
structure KeyChange where
  tick : Nat
  key : Nat
  velocity : Nat

/-- The order in which key changes are written. -/
def KeyChange.precedes (first second : KeyChange) : Bool :=
  decide (first.tick < second.tick) ||
    (first.tick = second.tick &&
      (decide (first.key < second.key) ||
        (first.key = second.key && decide (first.velocity ≤ second.velocity))))

/-- The two key changes of a note. -/
def keyChanges (tickSeconds : Binary64) (note : TimedNote Binary64) :
    Except Fault (List KeyChange) := do
  let key ← fitting 127 note.key
  let start ← tickOf tickSeconds note.start
  let velocity ← fitting 127 note.velocity
  let finish ← tickOf tickSeconds note.finish
  return [⟨start, key, velocity⟩, ⟨finish, key, 0⟩]

/-- The least tick that is too large to be written: ticks are counted in 63 bits. -/
def tickLimit : Nat := powerOfTwo 63

/-- The messages of a part on a channel: its name, its program and its key changes. -/
def partMessages (channel program : Nat) (name : Bytes) (changes : List KeyChange) :
    List (Nat × Message) :=
  (0, .metaEvent 0x03 name) :: (0, .short (.ofNat (0xc0 + channel)) [.ofNat program]) ::
    changes.map fun change =>
      (change.tick, .short (.ofNat (0x90 + channel)) [.ofNat change.key, .ofNat change.velocity])

/-- The track of a part on a channel. -/
def partTrack (tickSeconds : Binary64) (channel : Nat) (part : Part Binary64) :
    Except Fault Bytes := do
  let program ← fitting 127 part.program
  let changes ← part.notes.mapM (keyChanges tickSeconds)
  let ordered := changes.flatten.mergeSort KeyChange.precedes
  if ordered.any fun change => tickLimit ≤ change.tick then throw .overflow
  let name ← textBytes part.name
  trackBytes (partMessages channel program name ordered)

/-- The tracks of parts, on channels from a channel on. -/
def partTracks (tickSeconds : Binary64) : Nat → List (Part Binary64) → Except Fault (List Bytes)
  | _, [] => .ok []
  | channel, part :: rest => do
      let track ← partTrack tickSeconds channel part
      let others ← partTracks tickSeconds (channel + 1) rest
      return track :: others

/-- The messages of the first track: the tempo, the time signature of four quarters, and the
texts. -/
def leadMessages (tempo : Nat) (contents : List Bytes) : List (Nat × Message) :=
  (0, .metaEvent 0x51 (bigEndian 3 tempo)) :: (0, .metaEvent 0x58 [4, 2, 24, 8]) ::
    contents.map fun content => (0, .metaEvent 0x01 content)

/-- The first track, with a tempo and texts. -/
def leadTrack (tempo : Nat) (texts : List Text) : Except Fault Bytes := do
  let contents ← texts.mapM textBytes
  trackBytes (leadMessages tempo contents)

/-- The file of a song at a tempo. -/
def fileBytes (tempo : Amount) (song : Song Binary64) : Except Fault Bytes := do
  let tickSeconds ← secondsPerTick tempo
  let tempo ← tempoValue tickSeconds
  let lead ← leadTrack tempo song.texts
  let tracks ← partTracks tickSeconds 0 song.parts
  let count ← fitting 0x7fff (1 + tracks.length)
  let fields := bigEndian 2 1 ++ bigEndian 2 count ++ bigEndian 2 ticksPerQuarter
  let header ← chunk [0x4d, 0x54, 0x68, 0x64] fields
  return header ++ lead ++ tracks.flatten

end Clavier.Midi
