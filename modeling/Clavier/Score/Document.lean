import Clavier.Pitch.Resolution
import Clavier.Voice.Expansion

/-!
# Scores of documents

A document declares a voice for each hand, as `upper = \relative c' { … }`, and
holds the title and composer as quoted fields. Everything is found wherever it
stands; a voice that is missing or whose block never closes has no notes.

The notes of a voice are resolved one after the other, each relative to the note
before. The first one is relative to the anchor, the spelling after `\relative`,
which is itself resolved in the middle octave.
-/

set_option autoImplicit false

namespace Clavier

/-! ## Voices -/

/-- The notes of some note words, each resolved relative to the note before. A word that
is no note is left out. -/
def resolveWords (octave : Int) : Option Int → List NoteWord → List Note
  | _, [] => []
  | previous, word :: rest =>
      match word.resolve octave previous with
      | some note =>
          { note with spelling := some word.text } :: resolveWords octave (some note.key) rest
      | none => resolveWords octave previous rest

/-- The note of an anchor. -/
def anchorNote? (anchor : Option Text) : Option Note :=
  anchor.bind fun spelling => resolveSpelling spelling middleOctave none

/-- The notes of a voice body after an optional anchor. -/
def resolveVoice (table : Variables) (budget : Nat) (anchor : Option Text) (body : Text) :
    Except Fault (List Note) := do
  let start := (anchorNote? anchor).map Note.key
  let expanded ← expand table budget 0 body
  return resolveWords (start.elim middleOctave octaveOfKey) start (scanVoice expanded)

/-- A voice header: the spelling of its anchor, and the text after its opening brace. -/
def relativeAt : Text.Recogniser (Text × Text) := fun _ text => do
  let rest ← Text.dropStart? "\\relative".toList text
  let rest ← Text.dropBlanks? rest
  let (anchor, rest) ← takePitch? rest
  let inside ← dropOpening? rest
  return ((anchor.text, inside), inside)

/-- The declaration of a hand's voice: the spelling of its anchor, and the text after its
opening brace. -/
def declarationAt (hand : Hand) : Text.Recogniser (Text × Text) := fun before text =>
  if before.any Text.isWord then none
  else do
    let rest ← Text.dropStart? hand.voiceName text
    match Text.trimStart rest with
    | '=' :: rest => relativeAt none (Text.trimStart rest)
    | _ => none

/-- The notes of the voice that a document declares for a hand. -/
def declaredVoice (source : Text) (table : Variables) (hand : Hand) :
    Except Fault (List Note) :=
  match Text.firstItem? (declarationAt hand) source with
  | none => .ok []
  | some ((anchor, inside), _) =>
      match splitBlock? inside with
      | none => .ok []
      | some (body, _) => resolveVoice table defaultBudget (some anchor) body

/-- The notes of a single voice. Without a header the whole text is the body; a header whose
block never closes takes all that follows it. -/
def Score.parseVoice (table : Variables) (text : Text) : Except Fault (List Note) :=
  match Text.firstItem? relativeAt text with
  | none => resolveVoice table defaultBudget none text
  | some ((anchor, inside), _) =>
      let body := ((splitBlock? inside).map Prod.fst).getD inside
      resolveVoice table defaultBudget (some anchor) body

/-! ## Title and composer -/

/-- A field with a nonempty quoted value. -/
def fieldAt (name : Text) : Text.Recogniser Text := fun _ text => do
  let rest ← Text.dropStart? name text
  match Text.trimStart rest with
  | '=' :: rest =>
      match Text.trimStart rest with
      | '"' :: rest =>
          match takeRun? (· ≠ '"') rest with
          | some (value, '"' :: after) => some (value, after)
          | _ => none
      | _ => none
  | _ => none

/-- The value of the first field of a name. -/
def firstField? (name source : Text) : Option Text :=
  (Text.firstItem? (fieldAt name) source).map Prod.fst

/-- The title and composer that a document names. -/
def Metadata.ofSource (source : Text) : Metadata where
  title := firstField? "title".toList source
  composer := firstField? "composer".toList source

/-! ## Documents -/

/-- The score of a document. -/
def Score.ofSource (source : Text) : Except Fault Score := do
  let table := Variables.ofSource source
  let upper ← declaredVoice source table .upper
  let lower ← declaredVoice source table .lower
  return ⟨upper, lower, .ofSource source⟩

end Clavier
