import Clavier.Fault
import Clavier.Pitch.Transposition
import Clavier.Text.Numeral
import Clavier.Voice.Scan
import Clavier.Voice.Variables

/-!
# Expansion of variables and transposed blocks

Expanding a voice body replaces every reference to a variable by the variable's
expanded body, and every transposed block by its expanded inside, and moves every
note by the semitones of the transpositions around it.

The texts that come out of nested expansions are finished: the transposition
around them has already been applied to them. They are parked, and a place
marker stands for each of them until the notes of the body itself have been
moved. Then every marker gives way to its text.

A budget bounds the depth. A body without budget is left as it is, a nested
expansion has one less than the expansion around it, and every further round over
the same body takes one as well.
-/

set_option autoImplicit false

namespace Clavier

/-- The budget of an expansion that is given none. -/
def defaultBudget : Nat := 50

/-! ## What is expanded -/

/-- A transposed block: the two spellings of its interval and its inside. -/
structure TransposedBlock where
  source : Text
  target : Text
  body : Text

/-- The semitones that a transposed block adds. -/
def TransposedBlock.interval (block : TransposedBlock) : Int :=
  transpositionInterval block.source block.target

/-- A transposed block whose brace closes. -/
def transposedBlockAt : Text.Recogniser TransposedBlock := fun _ text => do
  let rest ← Text.dropStart? "\\transpose".toList text
  let rest ← Text.dropBlanks? rest
  let (source, rest) ← takePitch? rest
  let rest ← Text.dropBlanks? rest
  let (target, rest) ← takePitch? rest
  let rest ← dropOpening? rest
  let (body, rest) ← splitBlock? rest
  return (⟨source.text, target.text, body⟩, rest)

/-- A reference to a variable of the table: its body. -/
def referenceAt (table : Variables) : Text.Recogniser Text := fun _ text =>
  match text with
  | '\\' :: rest => do
      let (name, rest) ← takeRun? Text.isWord rest
      let body ← table.body? name
      return (body, rest)
  | _ => none

/-! ## Parked texts -/

/-- The character that begins and ends a place marker. -/
def markerEdge : Char := '\x00'

/-- The marker of the parked text with a number. -/
def marker (number : Nat) : Text := markerEdge :: (Text.ofNat number ++ [markerEdge])

/-- A place marker: the digits of its number. -/
def markerAt : Text.Recogniser Text := fun _ text =>
  match text with
  | c :: rest =>
      if c = markerEdge then
        match takeRun? Text.isDigit rest with
        | some (digits, edge :: rest) => if edge = markerEdge then some (digits, rest) else none
        | _ => none
      else none
  | [] => none

/-- The most digits a marker is read with: the limit of all numerals, or the digits of the
numbers in use, should there ever be so many parked texts that those are longer. This departs from
the one limit that reading has elsewhere, so that no result on expansions needs a bound on the
parked texts; with fewer of them than any memory holds it is that limit (`markerDigits_eq`). -/
def markerDigits (parked : List Text) : Nat :=
  max Text.maxDigits (Text.ofNat parked.length).length

/-- The parked text that the digits of a marker stand for. -/
def parkedText (parked : List Text) (digits : Text) : Except Fault Text :=
  match Text.readNatUpTo? (markerDigits parked) digits with
  | none => .error .markerTooLong
  | some number =>
      match parked[number]? with
      | some text => .ok text
      | none => .error .markerOutOfRange

/-- The text of some pieces, with every item turned into a text. -/
def fillPieces {α : Type} (fill : α → Except Fault Text) :
    List (Text.Piece α) → Except Fault Text
  | [] => .ok []
  | .plain c :: rest => do
      let after ← fillPieces fill rest
      return c :: after
  | .item value :: rest => do
      let text ← fill value
      let after ← fillPieces fill rest
      return text ++ after

/-- A text whose markers have given way to the parked texts. -/
def fillMarkers (parked : List Text) (text : Text) : Except Fault Text :=
  fillPieces (parkedText parked) (Text.pieces markerAt text)

/-- A text under expansion: it holds markers for the parked texts. -/
structure Draft where
  text : Text
  parked : List Text

/-- The text of some pieces with a marker for every item, and the texts parked for them after
those already there. -/
def parkPieces {α : Type} (finish : α → Except Fault Text) (parked : List Text) :
    List (Text.Piece α) → Except Fault Draft
  | [] => .ok ⟨[], parked⟩
  | .plain c :: rest => do
      let draft ← parkPieces finish parked rest
      return { draft with text := c :: draft.text }
  | .item value :: rest => do
      let text ← finish value
      let draft ← parkPieces finish (parked ++ [text]) rest
      return { draft with text := marker parked.length ++ draft.text }

/-! ## Expansion -/

/-- A text with every note word moved by an interval; durations stay. -/
def moveNotes (interval : Int) (text : Text) : Text :=
  if interval = 0 then text
  else
    Text.replacing noteAt
      (fun (word, duration) => transposeSpelling word.text interval ++ duration) text

/-- The finished text of a draft. -/
def Draft.finish (interval : Int) (draft : Draft) : Except Fault Text :=
  fillMarkers draft.parked (moveNotes interval draft.text)

/-- The draft after all rounds that change it and that the budget allows. Each round parks the
transposed blocks first and the references of what is left after them. -/
def expandRounds (table : Variables) : Nat → Int → Draft → Except Fault Draft
  | 0, _, draft => .ok draft
  | budget + 1, interval, draft => do
      let nested (interval : Int) (body : Text) : Except Fault Text :=
        if budget = 0 then .ok body
        else do
          let inner ← expandRounds table budget interval ⟨body, []⟩
          inner.finish interval
      let blocks ← parkPieces (fun block => nested (interval + block.interval) block.body)
        draft.parked (Text.pieces transposedBlockAt draft.text)
      let round ← parkPieces (nested interval) blocks.parked
        (Text.pieces (referenceAt table) blocks.text)
      if round.text = draft.text then return round
      else expandRounds table budget interval round

/-- The expansion of a voice body. -/
def expand (table : Variables) (budget : Nat) (interval : Int) (body : Text) :
    Except Fault Text :=
  if budget = 0 then .ok body
  else do
    let draft ← expandRounds table budget interval ⟨body, []⟩
    draft.finish interval

/-- As long as the numbers in use have no more digits than a numeral may have, markers are read
like all numerals. -/
theorem markerDigits_eq {parked : List Text} (short : parked.length < Nat.pow 10 Text.maxDigits) :
    markerDigits parked = Text.maxDigits := by
  have fits : ∀ limit, 0 < limit → parked.length < Nat.pow 10 limit →
      (Text.ofNat parked.length).length ≤ limit := fun _ positive =>
    (Nat.length_toDigits_le_iff (by decide) positive).mpr
  exact Nat.max_eq_left (fits Text.maxDigits (by decide) short)

end Clavier
