import Clavier.Midi.Defect
import Clavier.Midi.Text
import Clavier.Number.Logarithm

/-!
# Events of a track

A message is a status with its data bytes, the way it stands in a track. An event is
what the message means, as far as songs and recordings need it: notes, programs,
names, texts, tempo and signatures. All other messages of a known form are
`other`.
-/

set_option autoImplicit false

namespace Clavier.Midi

/-- A message of a track. Exclusive data is kept without the bytes that frame it. -/
inductive Message where
  | metaEvent (kind : UInt8) (data : Bytes)
  | exclusive (data : Bytes)
  | short (status : UInt8) (data : Bytes)
  deriving DecidableEq

/-- What a message means. -/
inductive Event where
  | noteOn (channel key velocity : Nat)
  | noteOff (channel key : Nat)
  | program (channel number : Nat)
  | trackName (name : Text)
  | text (content : Text)
  | tempo (microseconds : Nat)
  | timeSignature (numerator : Nat)
  | keySignature
  /-- A meta event of no known kind. Its delta time is lost. -/
  | unknown
  | other
  deriving DecidableEq

/-! ## Meta events -/

/-- The signed number of a byte. -/
def signedByte (b : UInt8) : Int := if b < 128 then b.toNat else (b.toNat : Int) - 256

/-- Whether two data bytes name a key: up to seven sharps or flats, and one of two modes. -/
def isKeySignature (accidentals mode : UInt8) : Bool :=
  (signedByte accidentals).natAbs ≤ 7 && mode ≤ 1

/-- The data of an event that needs at least a number of bytes of it. -/
def withData (least : Nat) (data : Bytes) (event : Event) : Except Defect Event :=
  if data.length < least then .error .dataTooShort else .ok event

/-- The fields of a time code after the hours, with their largest values: minutes, seconds,
frames and hundredths of a frame. -/
def timeCodeFields : List Nat := [59, 59, 255, 99]

/-- Whether fields with largest values are all there and in range. The first defect counts. -/
def checkFields : List Nat → Bytes → Except Defect Unit
  | [], _ => .ok ()
  | _ :: _, [] => .error .dataTooShort
  | largest :: more, field :: rest =>
      if largest < field.toNat then .error (.fieldTooLarge largest) else checkFields more rest

/-- The event of a time code. The three highest bits of the hours are the code of one of four
frame rates. -/
def eventOfTimeCode : Bytes → Except Defect Event
  | [] => .error .dataTooShort
  | hours :: fields => do
      let frameRate := hours.toNat / 32
      if 4 ≤ frameRate then throw (.unknownFrameRate frameRate)
      checkFields timeCodeFields fields
      return .other

/-- The event of a time signature. Its denominator is given by the exponent of a power of two;
the clocks of a click and the notes of a quarter follow. -/
def eventOfTimeSignature : Bytes → Except Defect Event
  | numerator :: exponent :: rest =>
      if !Binary64.isExactLogarithm exponent.toNat then .error .inexactDenominator
      else withData 2 rest (.timeSignature numerator.toNat)
  | _ => .error .dataTooShort

/-- The event of a meta event. -/
def eventOfMeta (kind : UInt8) (data : Bytes) : Except Defect Event :=
  match kind.toNat, data with
  | 0x00, [] => .ok .other
  | 0x00, data => withData 2 data .other
  | 0x01, data => .ok (.text (charsOfBytes data))
  | 0x03, data => .ok (.trackName (charsOfBytes data))
  | 0x02, _ | 0x04, _ | 0x05, _ | 0x06, _ | 0x07, _ | 0x09, _ => .ok .other
  | 0x20, data => withData 1 data .other
  | 0x21, _ | 0x2f, _ | 0x7f, _ => .ok .other
  | 0x51, high :: middle :: low :: _ =>
      .ok (.tempo (65536 * high.toNat + 256 * middle.toNat + low.toNat))
  | 0x51, _ => .error .dataTooShort
  | 0x54, data => eventOfTimeCode data
  | 0x58, data => eventOfTimeSignature data
  | 0x59, accidentals :: mode :: _ =>
      if isKeySignature accidentals mode then .ok .keySignature
      else .error .unknownKeySignature
  | 0x59, _ => .error .dataTooShort
  | _, _ => .ok .unknown

/-! ## Events of messages -/

/-- The event of a message with a status byte of its own. -/
def eventOfShort (status : UInt8) (data : Bytes) : Event :=
  let channel := status.toNat % 16
  match status.toNat / 16, data with
  | 0x8, key :: _ => .noteOff channel key.toNat
  | 0x9, key :: velocity :: _ => .noteOn channel key.toNat velocity.toNat
  | 0xc, number :: _ => .program channel number.toNat
  | _, _ => .other

/-- The event of a message. -/
def Event.ofMessage : Message → Except Defect Event
  | .metaEvent kind data => eventOfMeta kind data
  | .exclusive data =>
      if data.any (128 ≤ ·) then .error .dataOutOfRange else .ok .other
  | .short status data => .ok (eventOfShort status data)

end Clavier.Midi
