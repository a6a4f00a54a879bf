import Clavier.Proofs.VoiceItems

/-!
# Chords

A chord is a list of notes between angle brackets, with a duration behind the closing one. Cleaning
takes the brackets away and puts nothing in their place (`Chord.cleanVoice_text`), so the duration
of the chord moves up to its last note.

Digits behind a pitch are a duration, which is read and forgotten, but digits behind a fingering are
more of the fingering (`ChordNote.words_text_append`). Therefore the notes of a chord are heard as
they are written exactly if the chord has no duration or its last note no fingering
(`Chord.scanVoice_chord`).
-/

set_option autoImplicit false

namespace Clavier

/-! ## Chords as they are written -/

theorem DigitRun.single_nonempty (c : Char) : [c] ≠ [] := List.cons_ne_nil c []

/-- A run of one digit. -/
def DigitRun.single (c : Char) (digit : Text.isDigit c = true) : DigitRun where
  text := [c]
  nonempty := DigitRun.single_nonempty c
  digits := List.forall_mem_singleton.mpr digit

/-- One run of digits behind another. -/
def DigitRun.append (first second : DigitRun) : DigitRun where
  text := first.text ++ second.text
  nonempty := List.append_ne_nil_of_left_ne_nil first.nonempty _
  digits := fun c member => (List.mem_append.mp member).elim (first.digits c) (second.digits c)

/-- A note of a chord: a pitch with an optional fingering. -/
structure ChordNote where
  pitch : Pitch
  fingering : Option DigitRun

namespace ChordNote

/-- A note of a chord as a note of its own. -/
def written (note : ChordNote) : WrittenNote :=
  ⟨note.pitch, note.fingering.elim .bare .fingering⟩

/-- A note of a chord as it is written. -/
def text (note : ChordNote) : Text := note.written.text

/-- The note word that a note of a chord spells. -/
def word (note : ChordNote) : NoteWord := note.written.word

/-- A note with a duration that has moved up to it: the digits go on its fingering. -/
def lengthen (duration : Option DigitRun) (note : ChordNote) : ChordNote :=
  match duration, note.fingering with
  | some digits, some run => { note with fingering := some (run.append digits) }
  | _, _ => note

end ChordNote

/-- The digits of an optional duration. -/
def durationText (duration : Option DigitRun) : Text := duration.elim [] DigitRun.text

/-- Notes with a duration that has moved up to the last of them. -/
def lengthenLast (duration : Option DigitRun) : List ChordNote → List ChordNote
  | [] => []
  | [last] => [last.lengthen duration]
  | note :: rest => note :: lengthenLast duration rest

/-- Notes that sound together, with an optional duration. -/
structure Chord where
  notes : List ChordNote
  duration : Option DigitRun

namespace Chord

/-- The notes of a chord with a blank between any two of them. -/
def inside (chord : Chord) : Text := Text.joinWith [' '] (chord.notes.map ChordNote.text)

/-- A chord as it is written. -/
def text (chord : Chord) : Text := '<' :: (chord.inside ++ '>' :: durationText chord.duration)

end Chord

/-! ## Cleaning a chord -/

theorem Text.mem_joinWith {words : List Text} {c : Char} (member : c ∈ joinWith [' '] words) :
    c = ' ' ∨ ∃ word ∈ words, c ∈ word := by
  cases words with
  | nil => cases member
  | cons first rest =>
      have inside := List.mem_cons_of_mem ' ' member
      rw [cons_joinWith ' ' (List.cons_ne_nil _ _)] at inside
      obtain ⟨word, known, place⟩ := List.mem_flatMap.mp inside
      exact (List.mem_cons.mp place).imp_right fun here => ⟨word, known, here⟩

theorem isDigit_of_mem_durationText {duration : Option DigitRun} {c : Char}
    (member : c ∈ durationText duration) : Text.isDigit c = true := by
  cases duration with
  | none => cases member
  | some digits => exact digits.digits c member

namespace Chord

variable (chord : Chord)

theorem isLayout_of_mem_inside {c : Char} (member : c ∈ chord.inside) : isLayout c = false := by
  refine isLayout_of_inert ?_
  rcases Text.mem_joinWith member with rfl | ⟨word, known, here⟩
  · exact .inr rfl
  · obtain ⟨note, -, rfl⟩ := List.mem_map.mp known
    exact .inl (note.written.separatesNotes_of_mem_text here)

theorem isLayout_of_mem_duration {c : Char} (member : c ∈ durationText chord.duration) :
    isLayout c = false :=
  isLayout_of_inert (.inl (separatesNotes_of_isDigit (isDigit_of_mem_durationText member)))

/-- Besides its brackets a chord holds no layout. -/
theorem not_mem_text {c : Char} (layout : isLayout c = true) (noBracket : c ≠ '<' ∧ c ≠ '>') :
    c ∉ chord.text := by
  simp only [text, List.mem_cons, List.mem_append, not_or]
  refine ⟨noBracket.1, ?_, noBracket.2, ?_⟩
  · intro member
    rw [chord.isLayout_of_mem_inside member] at layout
    cases layout
  · intro member
    rw [chord.isLayout_of_mem_duration member] at layout
    cases layout

/-- **Cleaning a chord** leaves its notes with the duration right behind the last of them. -/
theorem cleanVoice_text : cleanVoice chord.text = chord.inside ++ durationText chord.duration := by
  have inside := filter_isMarker fun c member =>
    isMarker_of_not_isLayout (chord.isLayout_of_mem_inside member)
  have behind := filter_isMarker fun c member =>
    isMarker_of_not_isLayout (chord.isLayout_of_mem_duration member)
  rw [cleanVoice_of_no_command (chord.not_mem_text rfl (by decide))
    (chord.not_mem_text rfl (by decide)), text, List.filter_cons_of_neg (by decide),
    List.filter_append, List.filter_cons_of_neg (by decide), inside, behind]

end Chord

/-! ## Hearing a chord -/

/-- Digits alone are no note. -/
theorem items_durationText (duration : Option DigitRun) :
    Text.items noteAt (durationText duration) = [] := by
  have scan : Text.pieces noteAt (durationText duration) =
      (durationText duration).map .plain :=
    Text.pieces_eq_map_plain fun before c more suffix => noteAt_of_not_letter
      (isNoteLetter_of_isDigit (isDigit_of_mem_durationText (suffix.mem List.mem_cons_self)))
      before more
  rw [Text.items, scan, Text.filterMap_item?_stretch]

/-- The words of a scan for notes. -/
def noteWords (text : Text) : List NoteWord := (Text.items noteAt text).map Prod.fst

/-- **A note with digits behind it** is one note, and the digits go on its fingering if it has
one. -/
theorem ChordNote.words_text_append (note : ChordNote) (duration : Option DigitRun) :
    noteWords (note.text ++ durationText duration) = [(note.lengthen duration).word] := by
  have lone (whole : WrittenNote) : noteWords whole.text = [whole.word] := by
    rw [noteWords, items_noteAt_written]
    rfl
  obtain ⟨pitch, fingering⟩ := note
  cases duration with
  | none =>
      rw [show durationText none = [] from rfl, List.append_nil]
      cases fingering <;> exact lone _
  | some digits =>
      cases fingering with
      | none =>
          have whole := lone ⟨pitch, .duration digits⟩
          rwa [WrittenNote.text_duration, ← WrittenNote.text_bare] at whole
      | some run =>
          have whole := lone ⟨pitch, .fingering (run.append digits)⟩
          have split : WrittenNote.text ⟨pitch, .fingering (run.append digits)⟩ =
              WrittenNote.text ⟨pitch, .fingering run⟩ ++ digits.text := by
            simp only [WrittenNote.text_fingering, DigitRun.append, List.append_assoc,
              List.cons_append]
          rwa [split] at whole

theorem noteWords_space (text rest : Text) :
    noteWords (text ++ ' ' :: rest) = noteWords text ++ noteWords rest := by
  rw [noteWords, items_noteAt_space, List.map_append]
  rfl

/-- The digits behind a list of notes reach the last one only. -/
theorem words_lengthenLast (duration : Option DigitRun) (notes : List ChordNote) :
    noteWords (Text.joinWith [' '] (notes.map ChordNote.text) ++ durationText duration) =
      (lengthenLast duration notes).map ChordNote.word := by
  fun_induction lengthenLast duration notes with
  | case1 => exact congrArg (List.map Prod.fst) (items_durationText duration)
  | case2 last => exact last.words_text_append duration
  | case3 note rest several ih =>
      -- the blank behind the first note separates it from the digits
      obtain ⟨next, more, rfl⟩ := List.exists_cons_of_ne_nil several
      have alone : noteWords note.text = [note.word] := by
        have whole := note.words_text_append none
        rwa [show durationText none = [] from rfl, List.append_nil] at whole
      rw [List.map_cons, List.map_cons, Text.joinWith, List.append_assoc, List.append_assoc,
        List.singleton_append, noteWords_space, alone, ← List.map_cons, ih]
      · rfl
      · exact List.cons_ne_nil _ _

/-- A note is lengthened if there is a duration for its fingering to take. -/
theorem ChordNote.word_lengthen_iff (note : ChordNote) (duration : Option DigitRun) :
    (note.lengthen duration).word = note.word ↔ duration = none ∨ note.fingering = none := by
  obtain ⟨pitch, fingering⟩ := note
  cases duration with
  | none => exact iff_of_true rfl (.inl rfl)
  | some digits =>
      cases fingering with
      | none => exact iff_of_true rfl (.inr rfl)
      | some run =>
          refine iff_of_false ?_ (by simp)
          intro same
          have longer : '-' :: (run.text ++ digits.text) = '-' :: run.text :=
            congrArg NoteWord.fingering same
          exact digits.nonempty (List.append_right_eq_self.mp (List.cons.inj longer).2)

theorem lengthenLast_iff (duration : Option DigitRun) (notes : List ChordNote) :
    (lengthenLast duration notes).map ChordNote.word = notes.map ChordNote.word ↔
      duration = none ∨ ∀ last ∈ notes.getLast?, last.fingering = none := by
  fun_induction lengthenLast duration notes with
  | case1 => simp
  | case2 last => simpa using last.word_lengthen_iff duration
  | case3 note rest several ih =>
      obtain ⟨next, more, rfl⟩ := List.exists_cons_of_ne_nil several
      rw [List.map_cons, List.map_cons, List.cons.injEq, List.getLast?_cons_cons, ← ih]
      exact and_iff_right rfl

/-- **Chords.** A scan of a chord finds one note for each that is written, in order, with the
letter, the accidental and the octave marks that it is written with. All fingerings are as they are
written, except that the fingering of the last note takes the duration of the chord for its own.
So the notes are exactly those that are written if and only if the chord has no duration or its
last note no fingering. -/
theorem Chord.scanVoice_chord (chord : Chord) :
    scanVoice chord.text = (lengthenLast chord.duration chord.notes).map ChordNote.word ∧
      (scanVoice chord.text = chord.notes.map ChordNote.word ↔
        chord.duration = none ∨ ∀ last ∈ chord.notes.getLast?, last.fingering = none) := by
  have heard : scanVoice chord.text =
      (lengthenLast chord.duration chord.notes).map ChordNote.word := by
    rw [scanVoice, chord.cleanVoice_text]
    exact words_lengthenLast chord.duration chord.notes
  refine ⟨heard, ?_⟩
  rw [heard]
  exact lengthenLast_iff chord.duration chord.notes

/-- A single note with the second finger, as long as a quarter. -/
def Chord.quarter : Chord where
  notes := [⟨noteC.pitch, some (.single '2' rfl)⟩]
  duration := some (.single '4' rfl)

/-- The duration of a chord can become part of a note. -/
theorem not_forall_chord_heard :
    ¬ ∀ chord : Chord, scanVoice chord.text = chord.notes.map ChordNote.word := by
  intro heard
  have fingered : scanVoice "<c-2>4".toList = [⟨['c'], [], [], "-24".toList⟩] := by decide +kernel
  have quarter : scanVoice "<c-2>4".toList = [⟨['c'], [], [], "-2".toList⟩] := heard .quarter
  rw [fingered] at quarter
  exact absurd quarter (by decide)

end Clavier
