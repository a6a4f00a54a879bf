import Clavier.Score.Basic

/-!
# Scores as JSON

A score is written as one line of JSON. Parts that are not known are left out, so
that an unknown title and an empty one are written differently.
-/

set_option autoImplicit false

namespace Clavier.Json

/-! ## Values -/

/-- A character inside a JSON string. Quotes, backslashes and control characters are
escaped. -/
def escapedChar (c : Char) : Text :=
  if c = '"' then ['\\', '"']
  else if c = '\\' then ['\\', '\\']
  else if c = '\n' then ['\\', 'n']
  else if c = '\r' then ['\\', 'r']
  else if c = '\t' then ['\\', 't']
  else if c = '\x08' then ['\\', 'b']
  else if c = '\x0c' then ['\\', 'f']
  else if c.toNat < 0x20 then '\\' :: 'u' :: Text.hexadecimal 4 c.toNat
  else [c]

/-- A JSON string. -/
def string (text : Text) : Text := '"' :: (text.flatMap escapedChar ++ ['"'])

/-- A JSON list of written items. -/
def list (items : List Text) : Text := '[' :: (Text.joinWith [',', ' '] items ++ [']'])

/-- A field of a JSON object: its name and its written value. -/
def field (name : Text) (value : Text) : Text := string name ++ ':' :: ' ' :: value

/-- A JSON object of written fields. -/
def object (fields : List Text) : Text := '{' :: (Text.joinWith [',', ' '] fields ++ ['}'])

/-- A field that is left out if there is no text for it. -/
def optionalField (name : Text) (value : Option Text) : List Text :=
  (value.map fun text => field name (string text)).toList

/-! ## Scores -/

/-- A note. -/
def ofNote (note : Note) : Text :=
  object <|
    field "midiNumber".toList (Text.ofInt note.key) ::
      field "noteName".toList (string note.name) ::
        optionalField "originalNotation".toList note.spelling

/-- The title and composer of a piece. -/
def ofMetadata (metadata : Metadata) : Text :=
  object <|
    optionalField "title".toList metadata.title ++
      optionalField "composer".toList metadata.composer

/-- A score. -/
def ofScore (score : Score) : Text :=
  object
    [ field "upper".toList (list (score.upper.map ofNote)),
      field "lower".toList (list (score.lower.map ofNote)),
      field "metadata".toList (ofMetadata score.metadata) ]

end Clavier.Json
