import Clavier.Proofs.MovedNotes

/-!
# Transposed spellings

A transposed note word is spelled in normal form: a natural letter or a sharp out of the table of
the unmarked octave, with octave marks of one kind (`Pitch.Normal`). In normal form a height has
one spelling only (`Pitch.Normal.text_eq`), so a note word in normal form is known from its height
and its fingering (`WrittenNote.word_text_of_normal`).

Transposing yields a normal form, adds the interval to the height and keeps the fingering
(`exists_normal_of_transpose`). What a transposition gives is determined by these three alone, and
that is why the result depends on the new height and the fingering only, and why one transposition
after another is the transposition by their sum (`transposeSpelling_normal`).
-/

set_option autoImplicit false

namespace Clavier

/-! ## Normal forms -/

/-- A pitch in normal form: spelled as a key of the unmarked octave, with octave marks of one
kind. -/
structure Pitch.Normal (pitch : Pitch) : Prop where
  spelled : pitch.letter :: pitch.accidental ∈ sharpSpellings
  oneKind : ∃ mark, ∀ other ∈ pitch.octaves, other = mark

/-- The table has a natural spelling or a sharp for each of twelve keys, and nothing else. -/
theorem mem_sharpSpellings_iff {spelled : Text} :
    spelled ∈ sharpSpellings ↔ ∃ key : Fin 12, sharpSpellings.getD key [] = spelled := by
  constructor
  · revert spelled
    decide
  · rintro ⟨key, rfl⟩
    revert key
    decide

/-- Octave marks of one kind are those of the octaves that they count. -/
theorem octaveMarks_octaveShift {marks : Text} (octave : ∀ mark ∈ marks, isOctaveMark mark = true)
    (oneKind : ∃ mark, ∀ other ∈ marks, other = mark) : octaveMarks (octaveShift marks) = marks := by
  obtain ⟨octaves, rfl⟩ : ∃ octaves, marks = octaveMarks octaves := by
    obtain ⟨mark, same⟩ := oneKind
    have row := List.eq_replicate_of_mem same
    by_cases up : mark = raiseMark
    · exact ⟨marks.length, by simp [octaveMarks, ← up, ← row]⟩
    · refine ⟨-marks.length, ?_⟩
      have down : ∀ other ∈ marks, other = lowerMark := by
        intro other member
        have known := octave other member
        rw [same other member] at known ⊢
        simpa [isOctaveMark, up] using known
      simp [octaveMarks, ← List.eq_replicate_of_mem down]
  rw [octaveShift_octaveMarks]

namespace Pitch

variable {pitch : Pitch}

theorem normal_ofHeight (height : Int) : (ofHeight height).Normal where
  spelled := by
    obtain ⟨letter, more, same⟩ := List.exists_cons_of_ne_nil (sharpSpelling_spec height).2.2.1
    refine mem_sharpSpellings_iff.mpr ⟨⟨(height % 12).toNat, by omega⟩, ?_⟩
    simp only [ofHeight, same]
    rfl
  oneKind := by
    by_cases up : 0 ≤ height / 12
    · refine ⟨raiseMark, fun other member => ?_⟩
      have none : (-(height / 12)).toNat = 0 := by omega
      simp only [ofHeight, octaveMarks, none, List.replicate_zero, List.append_nil] at member
      exact List.eq_of_mem_replicate member
    · refine ⟨lowerMark, fun other member => ?_⟩
      have none : (height / 12).toNat = 0 := by omega
      simp only [ofHeight, octaveMarks, none, List.replicate_zero, List.nil_append] at member
      exact List.eq_of_mem_replicate member

/-- The accidental of a pitch in normal form is none or a sharp. -/
theorem Normal.natural_or_sharp (normal : pitch.Normal) : pitch.accidental ∈ [[], sharpSuffix] := by
  have every : ∀ spelled ∈ sharpSpellings, spelled.tail ∈ [[], sharpSuffix] := by decide
  exact every _ normal.spelled

/-- **One spelling for a height.** A pitch in normal form is spelled as its height is. -/
theorem Normal.text_eq (normal : pitch.Normal) : pitch.text = spellSemitones pitch.height := by
  obtain ⟨key, same⟩ := mem_sharpSpellings_iff.mp normal.spelled
  obtain ⟨-, -, -, natural⟩ := sharpSpellings_spec key
  rw [same, List.headD_cons, List.tail_cons] at natural
  have marks := octaveMarks_octaveShift pitch.octaves_marks normal.oneKind
  have inOctave : pitch.height % 12 = key := by
    rw [Pitch.height, natural]
    omega
  have octave : pitch.height / 12 = octaveShift pitch.octaves := by
    rw [Pitch.height, natural]
    omega
  rw [spellSemitones, inOctave, octave, marks, Int.toNat_natCast, same]
  rfl

end Pitch

/-- A note word in normal form is known from its height and its fingering. -/
theorem WrittenNote.word_text_of_normal {note : WrittenNote} (normal : note.pitch.Normal) :
    note.word.text = spellSemitones (semitones note.word.text) ++ note.word.fingering := by
  rw [semitones_word, ← normal.text_eq]
  exact note.word_text

/-! ## Transposing -/

/-- **Transposing** yields a normal form, adds the interval to the height and keeps the
fingering. -/
theorem exists_normal_of_transpose (note : WrittenNote) {interval : Int} (moves : interval ≠ 0) :
    ∃ moved : WrittenNote, transposeSpelling note.word.text interval = moved.word.text ∧
      moved.pitch.Normal ∧ moved.word.fingering = note.word.fingering ∧
      semitones moved.word.text = semitones note.word.text + interval := by
  refine ⟨note.move interval, transposeSpelling_word note interval, ?_, ?_, ?_⟩
  · rw [WrittenNote.move, if_neg moves]
    exact Pitch.normal_ofHeight _
  · exact congrArg NoteEnding.fingeringText (note.ending_move interval)
  · rw [semitones_word, semitones_word, note.height_move]

/-- What a transposition gives is known from the new height and the fingering. -/
theorem transposeSpelling_eq (note : WrittenNote) {interval : Int} (moves : interval ≠ 0) :
    transposeSpelling note.word.text interval =
      spellSemitones (semitones note.word.text + interval) ++ note.word.fingering := by
  obtain ⟨moved, same, normal, fingering, height⟩ := exists_normal_of_transpose note moves
  rw [same, WrittenNote.word_text_of_normal normal, height, fingering]

/-- **Transposed spellings.** Moved by an interval, a note word is a note word again: a natural
letter or a sharp with octave marks of one kind, with the fingering it had, and higher by the
interval. The result depends on the new height and the fingering only, and moving it once more
is moving the first note word by the sum of both intervals. -/
theorem transposeSpelling_normal (note : WrittenNote) {interval : Int} (moves : interval ≠ 0) :
    ∃ moved : WrittenNote, transposeSpelling note.word.text interval = moved.word.text ∧
      moved.pitch.accidental ∈ [[], sharpSuffix] ∧
      (∃ mark, ∀ other ∈ moved.pitch.octaves, other = mark) ∧
      moved.word.fingering = note.word.fingering ∧
      semitones moved.word.text = semitones note.word.text + interval ∧
      (∀ (other : WrittenNote) (interval' : Int), interval' ≠ 0 →
        semitones other.word.text + interval' = semitones note.word.text + interval →
        other.word.fingering = note.word.fingering →
          transposeSpelling other.word.text interval' = moved.word.text) ∧
      ∀ next, next ≠ 0 → interval + next ≠ 0 →
        transposeSpelling moved.word.text next =
          transposeSpelling note.word.text (interval + next) := by
  obtain ⟨moved, same, normal, fingering, height⟩ := exists_normal_of_transpose note moves
  refine ⟨moved, same, normal.natural_or_sharp, normal.oneKind, fingering, height, ?_, ?_⟩
  · intro other interval' moves' sameHeight sameFingering
    rw [← same, transposeSpelling_eq other moves', transposeSpelling_eq note moves, sameHeight,
      sameFingering]
  · intro next nextMoves bothMove
    rw [transposeSpelling_eq moved nextMoves, transposeSpelling_eq note bothMove, height,
      fingering, Int.add_assoc]

/-- A C flat with marks of both kinds is moved below the unmarked octave and back above it. -/
theorem transposeSpelling_normal_cFlat :
    let spelling := "ces,\x27\x27-2".toList
    ∃ moved : WrittenNote, transposeSpelling spelling (-13) = moved.word.text ∧
      moved.word.text = "ais,-2".toList ∧ semitones moved.word.text = semitones spelling + -13 ∧
      transposeSpelling moved.word.text 25 = transposeSpelling spelling (-13 + 25) := by
  intro spelling
  let cFlat : WrittenNote :=
    ⟨⟨'c', ['e', 's'], ",\x27\x27".toList, rfl, by decide, List.all_eq_true.mp rfl⟩,
      .fingering ⟨['2'], List.cons_ne_nil _ _, List.all_eq_true.mp rfl⟩⟩
  obtain ⟨moved, same, -, -, -, height, -, again⟩ :=
    @transposeSpelling_normal cFlat (-13) (by decide)
  have spelled : transposeSpelling spelling (-13) = "ais,-2".toList := by decide +kernel
  exact ⟨moved, same, same.symm.trans spelled, height, again 25 (by decide) (by decide)⟩

end Clavier
