import Clavier.Pitch.Spelling
import Clavier.Score.Basic

/-!
# Resolving spellings to keys

A spelling is resolved in an octave, and optionally relative to the key of the
note before. A relative note is moved by whole octaves into the window of six
semitones around that key, and no further than the edge of the window that it
meets first.

Accidentals are looked for in the whole spelling, so that `es` is E flat and `as`
is A flat, and a spelling that holds a sharp and a flat has both.
-/

set_option autoImplicit false

namespace Clavier

/-- The largest distance of a relative note from the note before. -/
def relativeWindow : Int := 6

/-- A key moved by whole octaves until it lies in the window around another key. -/
def foldTowards (previous key : Int) : Int :=
  if relativeWindow < key - previous then
    previous + relativeWindow - (previous + relativeWindow - key) % 12
  else if relativeWindow < previous - key then
    previous - relativeWindow + (key - (previous - relativeWindow)) % 12
  else key

/-- The note of a spelling whose fingering is gone and whose octave marks are counted. -/
def resolveBare (bare : Text) (shift : Int) (octave : Int) (previous : Option Int) :
    Option Note := do
  let letter ← bare.head?
  let natural ← naturalSemitones? letter
  let sharp := Text.occursIn sharpSuffix bare
  let flat := flatSuffixes.any (Text.occursIn · bare)
  let alteration : Int := (if sharp then 1 else 0) - (if flat then 1 else 0)
  let key := natural + alteration + octaveStart octave + 12 * shift
  let name := [letter.toUpper] ++ (if sharp then ['#'] else []) ++ (if flat then ['b'] else [])
  return ⟨previous.elim key (foldTowards · key), name, none⟩

/-- The note of a spelling, if it begins with the letter of a note. -/
def resolveSpelling (spelling : Text) (octave : Int) (previous : Option Int) : Option Note :=
  let bare := withoutFingerings spelling
  resolveBare bare (octaveShift bare) octave previous

/-- The note of a note word, if its text begins with the letter of a note. -/
def NoteWord.resolve (word : NoteWord) (octave : Int) (previous : Option Int) : Option Note :=
  resolveBare (withoutFingerings word.text) word.shift octave previous

/-- **The window.** A folded key lies within the window around the key it is folded towards. -/
theorem foldTowards_near (previous key : Int) :
    previous - relativeWindow ≤ foldTowards previous key ∧
      foldTowards previous key ≤ previous + relativeWindow := by
  unfold foldTowards relativeWindow
  split
  · omega
  · split <;> omega

/-- Folding moves a key by whole octaves. -/
theorem foldTowards_emod (previous key : Int) : foldTowards previous key % 12 = key % 12 := by
  unfold foldTowards relativeWindow
  split
  · omega
  · split <;> omega

end Clavier
