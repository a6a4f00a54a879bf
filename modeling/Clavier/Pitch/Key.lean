import Clavier.Text.Basic

/-!
# Keys

A key is numbered in semitones, and key 60 is middle C, the first key of octave
four. Key numbers are unbounded here; only a MIDI file limits them.
-/

set_option autoImplicit false

namespace Clavier

/-- The semitones from C up to the natural note of a letter. -/
def naturalSemitones? : Char → Option Int
  | 'c' => some 0
  | 'd' => some 2
  | 'e' => some 4
  | 'f' => some 5
  | 'g' => some 7
  | 'a' => some 9
  | 'b' => some 11
  | _ => none

/-- A character that names a natural note. -/
def isNoteLetter (c : Char) : Bool := 'a' ≤ c && c ≤ 'g'

/-- The octave whose notes a document leaves unmarked. -/
def middleOctave : Int := 4

/-- The first key of an octave. -/
def octaveStart (octave : Int) : Int := 12 * (octave + 1)

/-- The octave that holds a key. -/
def octaveOfKey (key : Int) : Int := key / 12 - 1

/-- The names of the twelve keys of an octave, black keys as sharps. -/
def keyNames : List Text :=
  [['C'], ['C', '#'], ['D'], ['D', '#'], ['E'], ['F'], ['F', '#'], ['G'], ['G', '#'], ['A'],
    ['A', '#'], ['B']]

/-- The name of a key. -/
def keyName (key : Int) : Text := keyNames.getD (key % 12).toNat []

/-- The letters that name natural notes are those with a distance from C. -/
theorem isNoteLetter_iff_isSome (c : Char) :
    isNoteLetter c = true ↔ (naturalSemitones? c).isSome = true := by
  constructor
  · intro letter
    simp only [isNoteLetter, Bool.and_eq_true, decide_eq_true_eq] at letter
    have low : 97 ≤ c.toNat := letter.1
    have high : c.toNat ≤ 103 := letter.2
    have same : c = Char.ofNat c.toNat := (Char.ofNat_toNat c).symm
    rw [same]
    generalize c.toNat = n at low high
    match n, low, high with
    | 97, _, _ => rfl
    | 98, _, _ => rfl
    | 99, _, _ => rfl
    | 100, _, _ => rfl
    | 101, _, _ => rfl
    | 102, _, _ => rfl
    | 103, _, _ => rfl
    | n + 104, _, high => omega
  · unfold naturalSemitones?
    split <;> first | decide | simp

end Clavier
