import Clavier.Text.Utf8

/-!
# Texts inside MIDI files

A MIDI file holds texts as bytes and does not say how they are encoded. A text is
carried as a row of characters that stand for the bytes of its UTF-8 encoding.
Such a row is turned back where its characters are the bytes of a UTF-8 encoding;
any other text is taken as it is.
-/

set_option autoImplicit false

namespace Clavier

/-- The characters that stand for bytes. -/
def charsOfBytes (bytes : Bytes) : Text := bytes.map fun b => Char.ofNat b.toNat

/-- The bytes that characters stand for, if each of them stands for one. -/
def bytesOfChars? (text : Text) : Option Bytes :=
  text.mapM fun c => if c.toNat < 256 then some (UInt8.ofNat c.toNat) else none

/-- The row of characters that carries a text. -/
def toMidiText (text : Text) : Text := charsOfBytes (Utf8.encode text)

/-- The text that a row of characters carries. -/
def fromMidiText (text : Text) : Text :=
  match bytesOfChars? text with
  | some bytes =>
      match Utf8.decode bytes with
      | .ok decoded => decoded
      | .error _ => text
  | none => text

end Clavier
