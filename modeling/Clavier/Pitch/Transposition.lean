import Clavier.Pitch.Spelling

/-!
# Transposition

A transposed note is always spelled with a natural letter or a sharp, with octave
marks that count from the unmarked octave, and with the fingering it had.
-/

set_option autoImplicit false

namespace Clavier

/-- The spellings of the twelve keys of the unmarked octave. -/
def sharpSpellings : List Text :=
  [['c'], ['c', 'i', 's'], ['d'], ['d', 'i', 's'], ['e'], ['f'], ['f', 'i', 's'], ['g'],
    ['g', 'i', 's'], ['a'], ['a', 'i', 's'], ['b']]

/-- The octave marks that raise a note by a number of octaves. -/
def octaveMarks (octaves : Int) : Text :=
  List.replicate octaves.toNat raiseMark ++ List.replicate (-octaves).toNat lowerMark

/-- The spelling of a height in semitones above the unmarked C. -/
def spellSemitones (height : Int) : Text :=
  sharpSpellings.getD (height % 12).toNat [] ++ octaveMarks (height / 12)

/-- The semitones that a transposition from one spelling to another adds. -/
def transpositionInterval (source target : Text) : Int := semitones target - semitones source

/-- A spelling moved by a number of semitones. What does not spell a note stays as it is. -/
def transposeSpelling (spelling : Text) (interval : Int) : Text :=
  if interval = 0 then spelling
  else
    match NoteWord.ofSpelling? spelling with
    | some word =>
        spellSemitones (semitones { word with fingering := [] }.text + interval) ++ word.fingering
    | none => spelling

end Clavier
