import Clavier.Pitch.Key
import Clavier.Pitch.NoteWord
import Clavier.Text.Blank
import Clavier.Text.Scan
import Clavier.Text.Word

/-!
# Spellings of notes

A spelling is a letter from a to g, at most one accidental (`is` sharpens, `es` and
`as` flatten), octave marks and at most one fingering, a hyphen with digits.

`semitones` gives the height of a spelling above an unmarked C. It is defined for
every text: what is not a letter of a note counts as C, and only an accidental
right after the letter counts.
-/

set_option autoImplicit false

namespace Clavier

/-! ## Parts of a spelling -/

/-- The suffix of a sharp. -/
def sharpSuffix : Text := ['i', 's']

/-- The suffixes of a flat. -/
def flatSuffixes : List Text := [['e', 's'], ['a', 's']]

/-- An accidental at the front of a text, or the empty one, and what follows it. -/
def takeAccidental : Text → Text × Text
  | 'i' :: 's' :: rest => (['i', 's'], rest)
  | 'e' :: 's' :: rest => (['e', 's'], rest)
  | 'a' :: 's' :: rest => (['a', 's'], rest)
  | rest => ([], rest)

/-- The octave marks at the front of a text, and what follows them. -/
def takeOctaves (text : Text) : Text × Text := Text.splitWhile isOctaveMark text

/-- A fingering at the front of a text, and what follows it. -/
def takeFingering? : Text → Option (Text × Text)
  | '-' :: rest =>
      match Text.splitWhile Text.isDigit rest with
      | ([], _) => none
      | (digits, after) => some ('-' :: digits, after)
  | _ => none

/-- A letter, an accidental and octave marks at the front of a text, and what follows them. -/
def takePitch? : Text → Option (NoteWord × Text)
  | letter :: rest =>
      if isNoteLetter letter then
        let (accidental, rest) := takeAccidental rest
        let (octaves, rest) := takeOctaves rest
        some (⟨[letter], accidental, octaves, []⟩, rest)
      else none
  | [] => none

/-- The note word that a whole text spells. -/
def NoteWord.ofSpelling? (text : Text) : Option NoteWord :=
  match takePitch? text with
  | some (word, []) => some word
  | some (word, rest) =>
      match takeFingering? rest with
      | some (fingering, []) => some { word with fingering }
      | _ => none
  | none => none

/-! ## Height of a spelling -/

/-- A text without fingerings and without the blanks around it. -/
def withoutFingerings (text : Text) : Text :=
  Text.trim (Text.without (fun _ => takeFingering?) text)

/-- The semitones of an accidental suffix. -/
def accidentalSemitones (suffix : Text) : Int :=
  if Text.startsWith suffix sharpSuffix then 1
  else if flatSuffixes.any (Text.startsWith suffix) then -1
  else 0

/-- The semitones from an unmarked C up to a spelling. -/
def semitones (spelling : Text) : Int :=
  let bare := withoutFingerings spelling
  let natural := (bare.head?.bind naturalSemitones?).getD 0
  natural + accidentalSemitones (bare.drop 1) + 12 * octaveShift bare

end Clavier
