import Clavier.Text.Numeral

/-!
# UTF-8

Documents are UTF-8 files, and the texts inside MIDI files are the bytes of a
UTF-8 encoding. Decoding is strict: overlong forms, surrogates and code points
above U+10FFFF are refused, and the refusal says which bytes are at fault and why.
-/

set_option autoImplicit false

namespace Clavier

/-- A sequence of bytes. -/
abbrev Bytes := List UInt8

namespace Utf8

/-! ## Encoding -/

/-- The bytes of a character. -/
def encodeChar (c : Char) : Bytes :=
  let code := c.toNat
  if code < 0x80 then [.ofNat code]
  else if code < 0x800 then [.ofNat (0xc0 + code / 64), .ofNat (0x80 + code % 64)]
  else if code < 0x10000 then
    [.ofNat (0xe0 + code / 4096), .ofNat (0x80 + code / 64 % 64), .ofNat (0x80 + code % 64)]
  else
    [.ofNat (0xf0 + code / 262144), .ofNat (0x80 + code / 4096 % 64),
      .ofNat (0x80 + code / 64 % 64), .ofNat (0x80 + code % 64)]

/-- The bytes of a text. -/
def encode (text : Text) : Bytes := text.flatMap encodeChar

/-! ## Decoding -/

/-- Why a byte sequence is refused. -/
inductive Reason where
  | invalidStart
  | unexpectedEnd
  | invalidContinuation
  deriving DecidableEq

/-- A refused byte sequence, with the offset of its first byte. -/
structure Defect where
  offset : Nat
  bytes : Bytes
  reason : Reason
  deriving DecidableEq

/-- A character that has begun: the bytes seen, their value, how many more are needed
after the next, and the bounds of the next. -/
structure Pending where
  seen : Bytes
  value : Nat
  further : Nat
  low : UInt8
  high : UInt8

/-- What a first byte announces. -/
inductive Lead where
  | whole (c : Char)
  | begun (pending : Pending)
  | invalid

/-- The announcement of a first byte. -/
def lead (b : UInt8) : Lead :=
  let n := b.toNat
  if n < 0x80 then .whole (.ofNat n)
  else if n < 0xc2 then .invalid
  else if n < 0xe0 then .begun ⟨[b], n - 0xc0, 0, 0x80, 0xbf⟩
  else if n = 0xe0 then .begun ⟨[b], 0, 1, 0xa0, 0xbf⟩
  else if n = 0xed then .begun ⟨[b], 13, 1, 0x80, 0x9f⟩
  else if n < 0xf0 then .begun ⟨[b], n - 0xe0, 1, 0x80, 0xbf⟩
  else if n = 0xf0 then .begun ⟨[b], 0, 2, 0x90, 0xbf⟩
  else if n < 0xf4 then .begun ⟨[b], n - 0xf0, 2, 0x80, 0xbf⟩
  else if n = 0xf4 then .begun ⟨[b], 4, 2, 0x80, 0x8f⟩
  else .invalid

/-- The text of a byte sequence, from the given offset on and after a character that has
begun there. -/
def decodeFrom : Nat → Option Pending → Bytes → Except Defect Text
  | _, none, [] => .ok []
  | offset, some pending, [] => .error ⟨offset, pending.seen, .unexpectedEnd⟩
  | offset, none, b :: rest =>
      match lead b with
      | .whole c => (decodeFrom (offset + 1) none rest).map (c :: ·)
      | .begun pending => decodeFrom offset (some pending) rest
      | .invalid => .error ⟨offset, [b], .invalidStart⟩
  | offset, some pending, b :: rest =>
      if pending.low ≤ b ∧ b ≤ pending.high then
        let value := 64 * pending.value + (b.toNat - 0x80)
        match pending.further with
        | 0 =>
            (decodeFrom (offset + pending.seen.length + 1) none rest).map (.ofNat value :: ·)
        | further + 1 =>
            decodeFrom offset (some ⟨pending.seen ++ [b], value, further, 0x80, 0xbf⟩) rest
      else .error ⟨offset, pending.seen, .invalidContinuation⟩

/-- The text that a byte sequence encodes. -/
def decode (bytes : Bytes) : Except Defect Text := decodeFrom 0 none bytes

/-! ## Messages -/

/-- The name of a reason. -/
def Reason.message : Reason → Text
  | .invalidStart => "invalid start byte".toList
  | .unexpectedEnd => "unexpected end of data".toList
  | .invalidContinuation => "invalid continuation byte".toList

/-- The place of a defect: the byte and its offset, or the first and last offset of several. -/
def Defect.place (defect : Defect) : Text :=
  match defect.bytes with
  | [b] =>
      "byte 0x".toList ++ Text.hexadecimal 2 b.toNat ++ " in position ".toList ++
        Text.ofNat defect.offset
  | bytes =>
      "bytes in position ".toList ++ Text.ofNat defect.offset ++
        '-' :: Text.ofNat (defect.offset + bytes.length - 1)

/-- The sentence that names a defect. -/
def Defect.message (defect : Defect) : Text :=
  "\x27utf-8\x27 codec can\x27t decode ".toList ++ defect.place ++ ": ".toList ++
    defect.reason.message

end Utf8

end Clavier
