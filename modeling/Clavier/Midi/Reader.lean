import Clavier.Midi.Event
import Clavier.Midi.Quantity

/-!
# Reading MIDI files

A file is a header and tracks. A track has a size, and its events are read until
exactly that many bytes are used; an end-of-track event does not end it. An event is
a delta time and a message. A message without a status byte of its own has the
status of the last message that had one, meta events aside.
-/

set_option autoImplicit false

namespace Clavier.Midi

/-- An event with the ticks since the event before. -/
structure TrackEvent where
  delta : Nat
  event : Event
  deriving DecidableEq

/-- A file: the ticks of a quarter note as its header gives them, and its tracks. -/
structure File where
  division : Int
  tracks : List (List TrackEvent)

/-! ## Bytes -/

/-- A byte and what follows it. -/
def readByte : Bytes → Except Defect (UInt8 × Bytes)
  | [] => .error .unexpectedEnd
  | b :: rest => .ok (b, rest)

/-- A number of bytes and what follows them. -/
def readBytes (count : Nat) (bytes : Bytes) : Except Defect (Bytes × Bytes) :=
  if bytes.length < count then .error .unexpectedEnd
  else .ok (bytes.take count, bytes.drop count)

/-- A quantity and what follows it. -/
def readQuantity (bytes : Bytes) : Except Defect (Nat × Bytes) :=
  match readQuantity? bytes with
  | some found => .ok found
  | none => .error .unexpectedEnd

/-- The largest length of a meta event or exclusive message. -/
def maxMessageLength : Nat := 1000000

/-- Data with its length in front, and what follows it. -/
def readData (bytes : Bytes) : Except Defect (Bytes × Bytes) := do
  let (length, rest) ← readQuantity bytes
  if maxMessageLength < length then throw (.messageTooLong length)
  readBytes length rest

/-! ## Messages -/

/-- The number of data bytes after a status byte. -/
def shortLength? (status : UInt8) : Option Nat :=
  match status.toNat / 16 with
  | 0x8 | 0x9 | 0xa | 0xb | 0xe => some 2
  | 0xc | 0xd => some 1
  | 0xf =>
      match status.toNat with
      | 0xf1 | 0xf3 => some 1
      | 0xf2 => some 2
      | 0xf6 | 0xf8 | 0xfa | 0xfb | 0xfc | 0xfe => some 0
      | _ => none
  | _ => none

/-- The names of the messages without data. -/
def emptyMessageName (status : UInt8) : Text :=
  match status.toNat with
  | 0xf6 => "tune_request".toList
  | 0xf8 => "clock".toList
  | 0xfa => "start".toList
  | 0xfb => "continue".toList
  | 0xfc => "stop".toList
  | 0xfe => "active_sensing".toList
  | _ => []

/-- The message of a status byte whose first data byte may have been read already. -/
def readShort (status : UInt8) (begun : Bytes) (bytes : Bytes) :
    Except Defect (Message × Bytes) := do
  match shortLength? status with
  | none => throw (.undefinedStatus status)
  | some length =>
      let (more, rest) ← readBytes (length - begun.length) bytes
      let data := begun ++ more
      if data.any (128 ≤ ·) then throw .dataOutOfRange
      if length < data.length then throw (.wrongLength (emptyMessageName status))
      return (.short status data, rest)

/-- Exclusive data without the bytes that frame it. -/
def unframed (data : Bytes) : Bytes :=
  let data := if data.head? = some 0xf0 then data.drop 1 else data
  if data.getLast? = some 0xf7 then data.dropLast else data

/-- The message of a status byte. -/
def readMessage (status : UInt8) (begun : Bytes) (bytes : Bytes) :
    Except Defect (Message × Bytes) := do
  if status = 0xff then
    let (kind, rest) ← readByte bytes
    let (data, rest) ← readData rest
    return (.metaEvent kind data, rest)
  else if status = 0xf0 ∨ status = 0xf7 then
    let (data, rest) ← readData bytes
    return (.exclusive (unframed data), rest)
  else readShort status begun bytes

/-! ## Tracks -/

/-- The next event of a track after a status, the status for the event after it, and what
follows it. -/
def readEvent (running : Option UInt8) (bytes : Bytes) :
    Except Defect (TrackEvent × Option UInt8 × Bytes) := do
  let (delta, rest) ← readQuantity bytes
  let (first, rest) ← readByte rest
  let (status, begun, running) ←
    if first < 128 then
      match running with
      | some status => .ok (status, [first], running)
      | none => .error .noRunningStatus
    else .ok (first, [], if first = 0xff then running else some first)
  let (message, rest) ← readMessage status begun rest
  let event ← Event.ofMessage message
  return (⟨if event = .unknown then 0 else delta, event⟩, running, rest)

/-- The events of a track with a number of bytes left, and what follows them. An event takes
at least one byte, so that a track has no more events than the file has bytes; the first
argument counts them. -/
def readEvents : Nat → Option UInt8 → Int → Bytes → Except Defect (List TrackEvent × Bytes)
  | 0, _, left, bytes => if left = 0 then .ok ([], bytes) else .error .unexpectedEnd
  | limit + 1, running, left, bytes =>
      if left = 0 then .ok ([], bytes)
      else do
        let (event, running, rest) ← readEvent running bytes
        let used := bytes.length - rest.length
        let (events, rest) ← readEvents limit running (left - used) rest
        return (event :: events, rest)

/-- The name of a chunk, its size, and what follows its header. -/
def readChunkHeader (bytes : Bytes) : Except Defect (Bytes × Nat × Bytes) := do
  let (header, rest) ← readBytes 8 bytes
  return (header.take 4, fromBigEndian (header.drop 4), rest)

/-- The name of a track chunk. -/
def trackName : Bytes := [0x4d, 0x54, 0x72, 0x6b]

/-- The name of a file's first chunk. -/
def headerName : Bytes := [0x4d, 0x54, 0x68, 0x64]

/-- A number of tracks. -/
def readTracks : Nat → Bytes → Except Defect (List (List TrackEvent))
  | 0, _ => .ok []
  | count + 1, bytes => do
      let (name, size, rest) ← readChunkHeader bytes
      if name ≠ trackName then throw .noTrackHeader
      let (events, rest) ← readEvents rest.length none size rest
      let others ← readTracks count rest
      return events :: others

/-! ## Files -/

/-- The file that some bytes hold. What follows its tracks is not looked at. -/
def File.ofBytes (bytes : Bytes) : Except Defect File := do
  let (name, size, rest) ← readChunkHeader bytes
  if name ≠ headerName then throw .noFileHeader
  let header := rest.take size
  if header.length < 6 then throw .unexpectedEnd
  let count := fromSignedBigEndian ((header.drop 2).take 2)
  let division := fromSignedBigEndian ((header.drop 4).take 2)
  let tracks ← readTracks count.toNat (rest.drop size)
  return ⟨division, tracks⟩

end Clavier.Midi
