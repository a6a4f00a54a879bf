import Clavier.Number.Decimal

/-!
# Defects of MIDI files

A defect is what makes a file unreadable as a MIDI file, or what makes a file that
can be read unusable as a score.
-/

set_option autoImplicit false

namespace Clavier.Midi

/-- What is wrong with a file. -/
inductive Defect where
  /-- The file ends inside a header or an event. -/
  | unexpectedEnd
  | noFileHeader
  | noTrackHeader
  | noRunningStatus
  | undefinedStatus (status : UInt8)
  /-- A message has more or less data than its status asks for. -/
  | wrongLength (message : Text)
  | dataOutOfRange
  | messageTooLong (length : Nat)
  | dataTooShort
  | unknownFrameRate (code : Nat)
  /-- A field of a time code is larger than it may be. -/
  | fieldTooLarge (largest : Nat)
  /-- A time signature has a denominator whose logarithm is not exact. -/
  | inexactDenominator
  | unknownKeySignature
  /-- There is no track, or a track without events. -/
  | noEvents
  | tooLong (ticks : Nat)
  /-- The division of the header or a tempo is zero. -/
  | zeroTempo
  | zeroNumerator
  /-- A signature stands at a negative time. -/
  | signatureBeforeStart (seconds : Binary64)
  | endsBeforeStart
  deriving DecidableEq

/-- The text that explains a defect. -/
def Defect.message : Defect → Text
  | .unexpectedEnd => []
  | .noFileHeader => "MThd not found. Probably not a MIDI file".toList
  | .noTrackHeader => "no MTrk header at start of track".toList
  | .noRunningStatus => "running status without last_status".toList
  | .undefinedStatus status => "undefined status byte 0x".toList ++ Text.hexadecimal 2 status.toNat
  | .wrongLength message => "wrong number of bytes for ".toList ++ message ++ " message".toList
  | .dataOutOfRange => "data byte must be in range 0..127".toList
  | .messageTooLong length =>
      "Message length ".toList ++ Text.ofNat length ++ " exceeds maximum length 1000000".toList
  | .dataTooShort => "list index out of range".toList
  | .unknownFrameRate code => Text.ofNat code
  | .fieldTooLarge largest => "attribute must be in range 0..".toList ++ Text.ofNat largest
  | .inexactDenominator => "denominator must be a power of 2".toList
  | .unknownKeySignature => "unknown key signature".toList
  | .noEvents => "max() arg is an empty sequence".toList
  | .tooLong ticks =>
      "MIDI file has a largest tick of ".toList ++ Text.ofNat ticks ++
        ", it is likely corrupt".toList
  | .zeroTempo => "division by zero".toList
  | .zeroNumerator => "0 is not a valid \x60numerator\x60 type or value".toList
  | .signatureBeforeStart seconds =>
      seconds.text ++ " is not a valid \x60time\x60 type or value".toList
  | .endsBeforeStart => "Note end time must be greater than start time".toList

end Clavier.Midi
