import Clavier.Exercise.Session
import Clavier.Text.Basic

/-!
# Summaries

How notes, voices, pieces and exercises are shown to the player.
-/

set_option autoImplicit false

namespace Clavier

/-- A note: its name and its key. -/
def Note.summary (note : Note) : Text :=
  note.name ++ '(' :: (Text.ofInt note.key ++ [')'])

/-- A note, or a dash where there is none. -/
def summaryOrDash (note : Option Note) : Text := note.elim ['-'] Note.summary

/-- The numbered lines of some notes, from a number on, with their spellings. -/
def noteLines : Nat → List Note → List Text
  | _, [] => []
  | number, note :: rest =>
      let spelling :=
        match note.spelling with
        | some (c :: more) => ' ' :: c :: more
        | _ => []
      ("  ".toList ++ Text.ofNat number ++ ". ".toList ++ note.summary ++ spelling) ::
        noteLines (number + 1) rest

/-- A voice: its name, the number of its notes, and a line for each of them. -/
def voiceSummary (name : Text) (notes : List Note) : Text :=
  match notes with
  | [] => name ++ ": no notes.".toList
  | notes =>
      Text.joinWith ['\n'] <|
        (name ++ " (".toList ++ Text.ofNat notes.length ++ " notes):".toList) ::
          noteLines 1 notes

/-- A piece: its title and, if it is known, its composer. An empty text counts as unknown. -/
def Metadata.summary (metadata : Metadata) : Text :=
  let title :=
    match metadata.title with
    | some (c :: rest) => c :: rest
    | _ => "(untitled)".toList
  match metadata.composer with
  | some (c :: rest) => title ++ " by ".toList ++ c :: rest
  | _ => title

/-- The notes that an exercise expects. -/
def Exercise.expectation (exercise : Exercise) : Text :=
  "upper:".toList ++ summaryOrDash (exercise.current? .upper) ++ " lower:".toList ++
    summaryOrDash (exercise.current? .lower)

/-- The state of an exercise on one line. -/
def Exercise.status (exercise : Exercise) : Text :=
  let place :=
    if exercise.complete then "complete".toList
    else
      "note ".toList ++ Text.ofNat (exercise.index + 1) ++ '/' ::
        (Text.ofNat exercise.total ++ ' ' :: exercise.expectation)
  '[' :: (place ++ " | score:".toList ++ Text.ofNat exercise.score ++ " errors:".toList ++
    Text.ofNat exercise.errors ++ " progress:".toList ++ Text.ofNat exercise.progress ++
    "%]".toList)

end Clavier
