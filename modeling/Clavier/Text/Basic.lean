/-!
# Texts

A text is a list of characters. Recognisers read a text from the front and
return what is left, so the laws about them are laws about list append.
-/

set_option autoImplicit false

namespace Clavier

/-- A text, front first. -/
abbrev Text := List Char

namespace Text

/-- Membership of a code point in a table of inclusive ranges. -/
def inRanges (ranges : List (Nat × Nat)) (code : Nat) : Bool :=
  ranges.any fun range => range.1 ≤ code && code ≤ range.2

/-- The rest of a text that begins with the given words, if it does. -/
def dropStart? : Text → Text → Option Text
  | [], text => some text
  | _ :: _, [] => none
  | expected :: more, c :: rest => if c = expected then dropStart? more rest else none

/-- Whether a text begins with the given one. -/
def startsWith (text start : Text) : Bool := (dropStart? start text).isSome

/-- Whether the given text occurs anywhere in another. -/
def occursIn (part : Text) : Text → Bool
  | [] => part.isEmpty
  | c :: rest => startsWith (c :: rest) part || occursIn part rest

/-- The texts with a separator between each two. -/
def joinWith (separator : Text) : List Text → Text
  | [] => []
  | [last] => last
  | first :: rest => first ++ separator ++ joinWith separator rest

/-- The parts of a text between the occurrences of a character. -/
def splitOn (separator : Char) : Text → List Text
  | [] => [[]]
  | c :: rest =>
      if c = separator then [] :: splitOn separator rest
      else
        match splitOn separator rest with
        | [] => [[c]]
        | first :: others => (c :: first) :: others

/-- The longest start of a text whose characters all pass a test, and what follows it. -/
def splitWhile (test : Char → Bool) (text : Text) : Text × Text :=
  (text.takeWhile test, text.dropWhile test)

/-- **Starting with a word.** The rest that `dropStart?` returns is what follows the word. -/
theorem dropStart?_eq_some_iff {start text rest : Text} :
    dropStart? start text = some rest ↔ text = start ++ rest := by
  induction start generalizing text with
  | nil => simp [dropStart?, eq_comm]
  | cons expected more ih =>
      cases text with
      | nil => simp [dropStart?]
      | cons c tail =>
          by_cases same : c = expected
          · simp [dropStart?, same, ih]
          · simp [dropStart?, same]

/-- A text starts with another one if and only if it is that text with something after it. -/
theorem startsWith_iff {text start : Text} :
    startsWith text start = true ↔ ∃ rest, text = start ++ rest := by
  simp only [startsWith, Option.isSome_iff_exists, dropStart?_eq_some_iff]

/-- Splitting at the end of a run loses nothing. -/
theorem splitWhile_append (test : Char → Bool) (text : Text) :
    (splitWhile test text).1 ++ (splitWhile test text).2 = text :=
  List.takeWhile_append_dropWhile

end Text

end Clavier
