import Clavier.Pitch.Spelling

/-!
# Note words of a voice

A voice is read in two stages. `cleanVoice` removes comments, layout commands and
articulation markers, in this order: comments, clef commands, commands with a
number as argument, all other commands, markers. `scanVoice` then finds the note
words of what is left.

A note word is never part of a larger word: neither the character before it nor
the one after it is a word character. A duration may follow the octave marks; it
is read and forgotten. Where a run of octave marks touches a larger word, the
note word ends before the last mark.
-/

set_option autoImplicit false

namespace Clavier

/-! ## Note words -/

/-- A note word at a place, with the duration that follows it. -/
def noteAt : Text.Recogniser (NoteWord × Text) := fun before text =>
  if before.any Text.isWord then none
  else
    match takePitch? text with
    | none => none
    | some (word, rest) =>
        match (takeFingering? rest).filter (fun found => !Text.startsWord found.2) with
        | some (fingering, after) => some (({ word with fingering }, []), after)
        | none =>
            let (duration, after) := Text.splitWhile Text.isDigit rest
            if !Text.startsWord after then some ((word, duration), after)
            else
              match word.octaves.getLast? with
              | some mark =>
                  some (({ word with octaves := word.octaves.dropLast }, []), mark :: rest)
              | none => none

/-! ## What is not a note -/

/-- A comment, up to the end of its line. -/
def commentAt : Text.Recogniser Unit := fun _ text =>
  match text with
  | '%' :: rest => some ((), rest.dropWhile (· ≠ '\n'))
  | _ => none

/-- A nonempty run of characters that pass a test, and what follows it. -/
def takeRun? (test : Char → Bool) (text : Text) : Option (Text × Text) :=
  match Text.splitWhile test text with
  | ([], _) => none
  | found => some found

/-- A letter of a command name. -/
def isCommandLetter (c : Char) : Bool := 'a' ≤ c && c ≤ 'z'

/-- A character of a command's numeric argument. -/
def isArgumentChar (c : Char) : Bool := Text.isDigit c || c = '/'

/-- A clef command with its word. -/
def clefAt : Text.Recogniser Unit := fun _ text => do
  let rest ← Text.dropStart? "\\clef".toList text
  let rest ← Text.dropBlanks? rest
  let (_, rest) ← takeRun? Text.isWord rest
  return ((), rest)

/-- A command without an argument. -/
def commandAt : Text.Recogniser Unit := fun _ text =>
  match text with
  | '\\' :: rest => (takeRun? isCommandLetter rest).map fun found => ((), found.2)
  | _ => none

/-- A command with a numeric argument, such as a time signature. -/
def numericCommandAt : Text.Recogniser Unit := fun before text => do
  let (_, rest) ← commandAt before text
  let rest ← Text.dropBlanks? rest
  let (_, rest) ← takeRun? isArgumentChar rest
  return ((), rest)

/-- A character that groups or accents notes. -/
def isMarker (c : Char) : Bool := c = '<' || c = '>' || c = '!'

/-! ## The two stages -/

/-- A voice without comments, commands and markers. -/
def cleanVoice (body : Text) : Text :=
  let body := Text.without commentAt body
  let body := Text.without clefAt body
  let body := Text.without numericCommandAt body
  let body := Text.without commandAt body
  body.filter fun c => !isMarker c

/-- The note words of a voice, in order. -/
def scanVoice (body : Text) : List NoteWord :=
  (Text.items noteAt (cleanVoice body)).map Prod.fst

end Clavier
