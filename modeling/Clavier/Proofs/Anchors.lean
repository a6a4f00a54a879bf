import Clavier.Proofs.Folding
import Clavier.Proofs.NotePlaces
import Clavier.Proofs.OnePass

/-!
# The octave of an anchor

An anchor sets where a voice starts twice over: its key is the key before the first note, and its
octave is the one in which all words are resolved. Octave marks after the anchor move both by
whole octaves, so every note of the voice moves along with them, and keeps its name and its
spelling (`resolveVoice_anchor`). The law of one word is that of folding, which does not change
when both keys are moved (`NoteWord.resolve_raised`); the law of a voice follows word by word
(`resolveWords_raised`).
-/

set_option autoImplicit false

namespace Clavier

/-- A note that is some octaves higher. -/
def Note.raised (octaves : Int) (note : Note) : Note := { note with key := note.key + 12 * octaves }

theorem octaveOfKey_add (key octaves : Int) :
    octaveOfKey (key + 12 * octaves) = octaveOfKey key + octaves := by
  unfold octaveOfKey
  omega

/-- **A word** after a key that is some octaves higher, in an octave as much higher. -/
theorem NoteWord.resolve_raised (word : NoteWord) (octave previous octaves : Int) :
    word.resolve (octave + octaves) (some (previous + 12 * octaves)) =
      (word.resolve octave (some previous)).map (Note.raised octaves) := by
  have higher : octave + octaves - octave = octaves := by omega
  unfold NoteWord.resolve
  rw [resolveBare_relative, resolveBare_octave _ _ octave, higher, resolveBare_relative]
  cases resolveBare (withoutFingerings word.text) word.shift octave none with
  | none => rfl
  | some note => simp [Note.raised, foldTowards_add]

/-- **The words of a voice** move along with the key before them. -/
theorem resolveWords_raised (words : List NoteWord) (octave previous octaves : Int) :
    resolveWords (octave + octaves) (some (previous + 12 * octaves)) words =
      (resolveWords octave (some previous) words).map (Note.raised octaves) := by
  induction words generalizing previous with
  | nil => rfl
  | cons word rest ih =>
      rw [resolveWords, resolveWords, word.resolve_raised]
      cases word.resolve octave (some previous) with
      | none => exact ih previous
      | some note =>
          simp only [Option.map_some, List.map_cons]
          exact congrArg (_ :: ·) (ih note.key)

/-- **Octave marks after an anchor** move every note of the voice. -/
theorem resolveVoice_withMarks (table : Variables) (budget : Nat) (pitch : Pitch) {marks : Text}
    (octave : ∀ mark ∈ marks, isOctaveMark mark = true) (body : Text) :
    resolveVoice table budget (some (pitch.text ++ marks)) body =
      (resolveVoice table budget (some pitch.text) body).map
        (List.map (Note.raised (octaveShift marks))) := by
  have higher : 60 + (pitch.height + 12 * octaveShift marks) =
      60 + pitch.height + 12 * octaveShift marks := by omega
  rw [← pitch.text_withMarks octave, resolveVoice_pitch, resolveVoice_pitch,
    pitch.height_withMarks, higher, octaveOfKey_add]
  simp only [resolveWords_raised]
  cases expand table budget 0 body <;> rfl

/-- **The octave of an anchor.** With one more mark up after its anchor, a voice has the same notes
an octave higher, and with one more mark down an octave lower: as many notes, with the same names
and spellings, or the same fault. A clean body over a clean table has no fault. -/
theorem resolveVoice_anchor (table : Variables) (budget : Nat) (pitch : Pitch) (body : Text) :
    resolveVoice table budget (some (pitch.text ++ [raiseMark])) body =
        (resolveVoice table budget (some pitch.text) body).map
          (List.map fun note => { note with key := note.key + 12 }) ∧
      resolveVoice table budget (some (pitch.text ++ [lowerMark])) body =
        (resolveVoice table budget (some pitch.text) body).map
          (List.map fun note => { note with key := note.key - 12 }) ∧
      (table.Clean → markerEdge ∉ body →
        ∃ notes, resolveVoice table budget (some pitch.text) body = .ok notes) := by
  refine ⟨resolveVoice_withMarks table budget pitch (List.forall_mem_singleton.mpr rfl) body,
    resolveVoice_withMarks table budget pitch (List.forall_mem_singleton.mpr rfl) body,
    fun cleanTable clean => ?_⟩
  obtain ⟨text, expanded, -⟩ := exists_expand cleanTable budget 0 clean
  exact ⟨_, by rw [resolveVoice_pitch, expanded]; rfl⟩

/-- Below key zero: the first note lies a tritone below its anchor, in every octave of the anchor. -/
theorem resolveVoice_anchor_deep :
    let table : Variables := [("m".toList, "f, e4".toList)]
    let body := " f \\m ces-2 ".toList
    let notes : List Note := [⟨-7, "F".toList, some "f".toList⟩, ⟨-7, "F".toList, some "f,".toList⟩,
      ⟨-8, "E".toList, some "e".toList⟩, ⟨-13, "Cb".toList, some "ces-2".toList⟩]
    table.Clean ∧ markerEdge ∉ body ∧
      resolveVoice table 5 (some "b,,,,,,".toList) body = .ok notes ∧
      resolveVoice table 5 (some "b,,,,,,\x27".toList) body =
        .ok (notes.map fun note => { note with key := note.key + 12 }) ∧
      resolveVoice table 5 (some "b,,,,,,,".toList) body =
        .ok (notes.map fun note => { note with key := note.key - 12 }) := by
  intro table body notes
  have cleanTable : table.Clean := Variables.clean_of_entries (by decide)
  have clean : markerEdge ∉ body := by decide
  let deep : Pitch :=
    ⟨'b', [], ",,,,,,".toList, rfl, Pitch.natural_known, List.all_eq_true.mp rfl⟩
  obtain ⟨up, down, total⟩ := resolveVoice_anchor table 5 deep body
  obtain ⟨found, resolved⟩ := total cleanTable clean
  have same : resolveVoice table 5 (some deep.text) body = .ok notes :=
    toOption_eq_some_iff.mp (by decide +kernel)
  obtain rfl : notes = found := Except.ok.inj (same.symm.trans resolved)
  rw [resolved] at up down
  exact ⟨cleanTable, clean, resolved, up, down⟩

end Clavier
