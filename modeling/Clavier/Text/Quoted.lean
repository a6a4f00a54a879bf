import Clavier.Text.Numeral
import Clavier.Text.Printable

/-!
# Texts shown in quotes

Messages about files show the path in quotes, with every character that cannot
be printed written as an escape. The quotes are single ones, unless the path
holds a single quote and no double quote.
-/

set_option autoImplicit false

namespace Clavier.Text

/-- One character inside the given quotes. -/
def quotedChar (quote c : Char) : Text :=
  if c = '\\' || c = quote then ['\\', c]
  else if c = '\n' then ['\\', 'n']
  else if c = '\r' then ['\\', 'r']
  else if c = '\t' then ['\\', 't']
  else if isPrintable c then [c]
  else if c.toNat < 0x100 then '\\' :: 'x' :: hexadecimal 2 c.toNat
  else if c.toNat < 0x10000 then '\\' :: 'u' :: hexadecimal 4 c.toNat
  else '\\' :: 'U' :: hexadecimal 8 c.toNat

/-- A text in quotes. -/
def quoted (text : Text) : Text :=
  let quote := if '\x27' ∈ text ∧ '"' ∉ text then '"' else '\x27'
  quote :: (text.flatMap (quotedChar quote) ++ [quote])

end Clavier.Text
