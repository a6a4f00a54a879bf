import Clavier.Proofs.ResolvedNotes

/-!
# Folding towards the key before

A relative note is moved by whole octaves into the window around the key before. Two loops do
this one after the other: the first lowers a key that lies above the window, the second raises a
key that lies below it. Both end, the second does nothing once the first has done something, and
together they are `foldTowards` (`lowersTo_iff`, `raisesTo_iff`).

The window has thirteen keys and an octave has twelve, so every pitch class has one key in the
window, but for the class of its two edges. Away from the edges only the pitch class of the key
counts (`foldTowards_eq_of_emod`); at the edges the side from which the key comes counts as well
(`foldTowards_edge`). Moving both keys moves the folded key along (`foldTowards_add`).
-/

set_option autoImplicit false

namespace Clavier

/-! ## Loops -/

/-- A loop that repeats a step for as long as a test holds takes one key to another. -/
inductive RepeatsWhile (test : Int → Prop) (step : Int → Int) : Int → Int → Prop where
  | stop {key : Int} (fails : ¬ test key) : RepeatsWhile test step key key
  | again {key result : Int} (holds : test key)
      (rest : RepeatsWhile test step (step key) result) : RepeatsWhile test step key result

/-- A loop ends at one key at most. -/
theorem RepeatsWhile.unique {test : Int → Prop} {step : Int → Int} {key first second : Int}
    (one : RepeatsWhile test step key first) (other : RepeatsWhile test step key second) :
    first = second := by
  induction one with
  | stop fails =>
      cases other with
      | stop => rfl
      | again holds => exact absurd holds fails
  | again holds _ ih =>
      cases other with
      | stop fails => exact absurd holds fails
      | again _ rest => exact ih rest

/-- The loop that lowers a key by octaves for as long as it lies above the window. -/
def LowersTo (previous : Int) : Int → Int → Prop :=
  RepeatsWhile (fun key => relativeWindow < key - previous) (· - 12)

/-- The loop that raises a key by octaves for as long as it lies below the window. -/
def RaisesTo (previous : Int) : Int → Int → Prop :=
  RepeatsWhile (fun key => relativeWindow < previous - key) (· + 12)

/-- A key that lies above the window, lowered to the top octave of the window. -/
def lowered (previous key : Int) : Int :=
  if relativeWindow < key - previous then
    previous + relativeWindow - (previous + relativeWindow - key) % 12
  else key

theorem lowersTo_lowered (previous key : Int) : LowersTo previous key (lowered previous key) := by
  by_cases above : relativeWindow < key - previous
  · have rest := lowersTo_lowered previous (key - 12)
    have same : lowered previous (key - 12) = lowered previous key := by
      unfold lowered relativeWindow at *
      split <;> omega
    exact .again above (same ▸ rest)
  · rw [lowered, if_neg above]
    exact .stop above
termination_by (key - previous).toNat
decreasing_by
  unfold relativeWindow at above
  omega

theorem raisesTo_foldTowards {previous key : Int}
    (notAbove : ¬ relativeWindow < key - previous) :
    RaisesTo previous key (foldTowards previous key) := by
  by_cases below : relativeWindow < previous - key
  · have rest : RaisesTo previous (key + 12) (foldTowards previous (key + 12)) :=
      raisesTo_foldTowards (by unfold relativeWindow at *; omega)
    have same : foldTowards previous (key + 12) = foldTowards previous key := by
      unfold foldTowards relativeWindow at *
      split <;> omega
    exact .again below (same ▸ rest)
  · rw [foldTowards, if_neg notAbove, if_neg below]
    exact .stop below
termination_by (previous - key).toNat
decreasing_by
  unfold relativeWindow at below
  omega

section Loops

variable {previous key result : Int}

/-- **The first loop ends** with the lowered key, and with no other. -/
theorem lowersTo_iff : LowersTo previous key result ↔ result = lowered previous key :=
  ⟨fun loop => loop.unique (lowersTo_lowered previous key),
    fun same => same ▸ lowersTo_lowered previous key⟩

/-- **The second loop ends** with the folded key, and with no other. -/
theorem raisesTo_iff :
    RaisesTo previous (lowered previous key) result ↔ result = foldTowards previous key := by
  have notAbove : ¬ relativeWindow < lowered previous key - previous := by
    unfold lowered relativeWindow
    split <;> omega
  have same : foldTowards previous (lowered previous key) = foldTowards previous key := by
    unfold foldTowards lowered relativeWindow
    split <;> omega
  have loop := raisesTo_foldTowards notAbove
  rw [same] at loop
  exact ⟨fun other => other.unique loop, fun equal => equal ▸ loop⟩

/-- **Nothing is undone.** A key that has been lowered is not raised again. -/
theorem foldTowards_of_lowered (moved : lowered previous key ≠ key) :
    foldTowards previous key = lowered previous key := by
  unfold lowered at *
  split at moved
  · rename_i above
    rw [if_pos above, foldTowards, if_pos above]
  · exact absurd rfl moved

end Loops

/-! ## Where a key is folded to -/

section Folding

variable {previous key : Int}

/-- **Inside the window** only the pitch class of a key counts. -/
theorem foldTowards_eq_of_emod {other : Int} (sameClass : other % 12 = key % 12)
    (noEdge : (key - previous) % 12 ≠ 6) :
    foldTowards previous other = foldTowards previous key := by
  unfold foldTowards relativeWindow
  split <;> split <;> omega

/-- **At the edges of the window** the side from which a key comes counts. -/
theorem foldTowards_edge (edge : (key - previous) % 12 = 6) :
    (previous < key → foldTowards previous key = previous + 6) ∧
      (key < previous → foldTowards previous key = previous - 6) := by
  unfold foldTowards relativeWindow
  split <;> omega

/-- Moving both keys moves the folded key along. -/
theorem foldTowards_add (previous key interval : Int) :
    foldTowards (previous + interval) (key + interval) = foldTowards previous key + interval := by
  unfold foldTowards relativeWindow
  split <;> split <;> omega

end Folding

/-! ## What is resolved -/

/-- What a note is resolved from: a note word or a spelling. -/
inductive Resolvable where
  | word (note : NoteWord)
  | spelling (text : Text)

/-- The note of a note word or a spelling, if it begins with the letter of a note. -/
def Resolvable.resolve : Resolvable → Int → Option Int → Option Note
  | .word note => note.resolve
  | .spelling text => resolveSpelling text

/-- A relative note is the folded note of the octave. -/
theorem resolveBare_relative (bare : Text) (shift octave previous : Int) :
    resolveBare bare shift octave (some previous) =
      (resolveBare bare shift octave none).map fun note =>
        { note with key := foldTowards previous note.key } := by
  cases bare with
  | nil => rfl
  | cons letter rest =>
      cases natural : naturalSemitones? letter with
      | none => simp [resolveBare, natural]
      | some semitones => simp [resolveBare, natural]

/-- Another octave moves a note by whole octaves. -/
theorem resolveBare_octave (bare : Text) (shift octave octave' : Int) :
    resolveBare bare shift octave' none =
      (resolveBare bare shift octave none).map fun note =>
        { note with key := note.key + 12 * (octave' - octave) } := by
  cases bare with
  | nil => rfl
  | cons letter rest =>
      cases natural : naturalSemitones? letter with
      | none => simp [resolveBare, natural]
      | some semitones =>
          simp [resolveBare, natural, octaveStart]
          omega

section Resolving

variable {what : Resolvable} {octave : Int} {free : Note}

theorem Resolvable.exists_bare (what : Resolvable) :
    ∃ bare shift, what.resolve = resolveBare bare shift := by
  cases what with
  | word note => exact ⟨_, _, rfl⟩
  | spelling text => exact ⟨_, _, rfl⟩

/-- What has a note has it in every octave and after every key: the note of the octave, folded
towards the key. -/
theorem resolve_some (accepted : what.resolve octave none = some free) (octave' previous : Int) :
    what.resolve octave' (some previous) =
      some { free with key := foldTowards previous (free.key + 12 * (octave' - octave)) } := by
  obtain ⟨bare, shift, same⟩ := what.exists_bare
  rw [same] at accepted ⊢
  rw [resolveBare_relative, resolveBare_octave bare shift octave, accepted]
  rfl

/-- **No octave counts** for a note that does not fold to an edge of the window. -/
theorem resolve_octave (accepted : what.resolve octave none = some free) {previous : Int}
    (noEdge : (free.key - previous) % 12 ≠ 6) (octave' : Int) :
    what.resolve octave' (some previous) =
      some { free with key := foldTowards previous free.key } := by
  have sameClass : (free.key + 12 * (octave' - octave)) % 12 = free.key % 12 := by omega
  rw [resolve_some accepted, foldTowards_eq_of_emod sameClass noEdge]

end Resolving

/-- What a written note can be resolved from: its note word and the spelling of that. -/
def WrittenNote.readings (note : WrittenNote) : List Resolvable :=
  [.word note.word, .spelling note.word.text]

theorem WrittenNote.resolve_of_mem_readings (note : WrittenNote) {what : Resolvable}
    (reading : what ∈ note.readings) (octave : Int) (previous : Option Int) :
    what.resolve octave previous =
      some ⟨previous.elim (octaveStart octave + note.pitch.height)
        (foldTowards · (octaveStart octave + note.pitch.height)), note.pitch.name, none⟩ := by
  simp only [readings, List.mem_cons, List.not_mem_nil, or_false] at reading
  rcases reading with rfl | rfl
  · exact NoteWord.resolve_word note octave previous
  · exact resolveSpelling_word note octave previous

/-- **No octave mark counts** for a note that does not fold to an edge of the window. -/
theorem WrittenNote.resolve_remarked {note other : WrittenNote}
    (sameLetter : other.pitch.letter = note.pitch.letter)
    (sameAccidental : other.pitch.accidental = note.pitch.accidental) {octave previous : Int}
    (noEdge : (octaveStart octave + note.pitch.height - previous) % 12 ≠ 6) {what : Resolvable}
    (reading : what ∈ other.readings) (octave' : Int) :
    what.resolve octave' (some previous) =
      some ⟨foldTowards previous (octaveStart octave + note.pitch.height), note.pitch.name,
        none⟩ := by
  have sameName : other.pitch.name = note.pitch.name := by
    rw [Pitch.name, Pitch.name, sameLetter, sameAccidental]
  have sameClass : (octaveStart octave' + other.pitch.height) % 12 =
      (octaveStart octave + note.pitch.height) % 12 := by
    simp only [Pitch.height, sameLetter, sameAccidental, octaveStart]
    omega
  rw [other.resolve_of_mem_readings reading, sameName, Option.elim_some,
    foldTowards_eq_of_emod sameClass noEdge]

/-- **Relative notes.** What has a note in an octave has one after every key: the key of the same
pitch class within six semitones. Unless both keys are six semitones apart up to octaves, only
the pitch class of the note counts, and neither the octave nor octave marks do; if they are, the
note is six semitones above or below the key before, on the side from which it comes. The loop
that lowers and the loop that raises both end, and the second undoes nothing. -/
theorem resolve_relative {what : Resolvable} {octave : Int} {free : Note}
    (accepted : what.resolve octave none = some free) (previous : Int) :
    ∃ note, what.resolve octave (some previous) = some note ∧
      note.key % 12 = free.key % 12 ∧ (note.key - previous).natAbs ≤ 6 ∧
      ((free.key - previous) % 12 ≠ 6 →
        (∀ (other : Resolvable) (octave' : Int) (free' : Note),
          other.resolve octave' none = some free' → free'.key % 12 = free.key % 12 →
            ∃ note', other.resolve octave' (some previous) = some note' ∧
              note'.key = note.key) ∧
        (∀ octave', what.resolve octave' (some previous) = some note) ∧
        ∀ written other : WrittenNote, what ∈ written.readings →
          other.pitch.letter = written.pitch.letter →
          other.pitch.accidental = written.pitch.accidental →
            ∀ what' ∈ other.readings, ∀ octave', what'.resolve octave' (some previous) = some note) ∧
      ((free.key - previous) % 12 = 6 →
        (previous < free.key → note.key = previous + 6) ∧
          (free.key < previous → note.key = previous - 6)) ∧
      ∃ low, (∀ result, LowersTo previous free.key result ↔ result = low) ∧
        (∀ result, RaisesTo previous low result ↔ result = note.key) ∧
        (low ≠ free.key → note.key = low) := by
  have here : what.resolve octave (some previous) =
      some { free with key := foldTowards previous free.key } := by
    have resolved := resolve_some accepted octave previous
    rwa [Int.sub_self, Int.mul_zero, Int.add_zero] at resolved
  refine ⟨_, here, foldTowards_emod previous free.key, inWindow_foldTowards previous free.key,
    fun noEdge => ⟨?_, resolve_octave accepted noEdge, ?_⟩, foldTowards_edge,
    lowered previous free.key, fun _ => lowersTo_iff, fun _ => raisesTo_iff,
    foldTowards_of_lowered⟩
  · intro other octave' free' accepted' sameClass
    have noEdge' : (free'.key - previous) % 12 ≠ 6 := by omega
    exact ⟨_, resolve_octave accepted' noEdge' octave', foldTowards_eq_of_emod sameClass noEdge⟩
  · intro written other reading sameLetter sameAccidental what' reading' octave'
    rw [written.resolve_of_mem_readings reading] at accepted
    obtain rfl := Option.some.inj accepted
    exact WrittenNote.resolve_remarked sameLetter sameAccidental noEdge reading' octave'

/-- After C, an F sharp far below stays below, at the edge of the window; a high G and a deep one,
read in different octaves, come to one key. -/
theorem resolve_relative_afterC :
    let fSharp := Resolvable.spelling "fis,,".toList
    let high := Resolvable.spelling "g\x27\x27-3".toList
    let deep := Resolvable.word ⟨['g'], [], [','], []⟩
    fSharp.resolve 4 none = some ⟨42, "F#".toList, none⟩ ∧
      high.resolve 4 none = some ⟨91, "G".toList, none⟩ ∧
      deep.resolve 7 none = some ⟨91, "G".toList, none⟩ ∧
      (∃ note, fSharp.resolve 4 (some 60) = some note ∧ note.key = 60 - 6 ∧
        ∃ low, (∀ result, LowersTo 60 42 result ↔ result = low) ∧
          (∀ result, RaisesTo 60 low result ↔ result = note.key) ∧ (low ≠ 42 → note.key = low)) ∧
      ∃ note note', high.resolve 4 (some 60) = some note ∧
        deep.resolve 7 (some 60) = some note' ∧ note'.key = note.key := by
  intro fSharp high deep
  have edge : fSharp.resolve 4 none = some ⟨42, "F#".toList, none⟩ := by decide +kernel
  have inside : high.resolve 4 none = some ⟨91, "G".toList, none⟩ := by decide +kernel
  have other : deep.resolve 7 none = some ⟨91, "G".toList, none⟩ := by decide +kernel
  obtain ⟨low, lowFound, -, -, -, below, loops⟩ := resolve_relative edge 60
  obtain ⟨note, found, -, -, classOnly, -⟩ := resolve_relative inside 60
  obtain ⟨note', found', same⟩ := (classOnly (by decide)).1 deep 7 _ other (by decide)
  exact ⟨edge, inside, other, ⟨low, lowFound, (below (by decide)).2 (by decide), loops⟩,
    note, note', found, found', same⟩

end Clavier
