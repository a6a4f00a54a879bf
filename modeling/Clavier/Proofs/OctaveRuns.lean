import Clavier.Proofs.MovedScans

/-!
# Runs of octave marks

A note word is not always as long as its spelling. Behind the letter and the accidental stands a
run of octave marks (`OctaveRun`). Where the run touches a larger word, the note gives its last mark
back, so that it ends in front of a character that is no word character.

A scan finds every note at a place of its own (`Text.places`). At each of them there are two
cases: the note has the whole run, and digits at most stand between the run and the end of the word;
or the note has all of the run but the last mark, and the word goes on (`scanVoice_octaves`).
-/

set_option autoImplicit false

namespace Clavier

/-! ## Places of items -/

namespace Text

variable {α : Type} (recognise : Recogniser α)

/-- The items of a text after a number of characters that belong to the item before, each with the
text from its place on. -/
def placesFrom : Option Char → Nat → Text → List (α × Text)
  | _, _, [] => []
  | _, skip + 1, c :: rest => placesFrom (some c) skip rest
  | before, 0, c :: rest =>
      match recognise before (c :: rest) with
      | some (value, after) =>
          (value, c :: rest) :: placesFrom (some c) (rest.length - after.length) rest
      | none => placesFrom (some c) 0 rest

/-- The items of a text from left to right, each with the text from its place on. -/
def places (text : Text) : List (α × Text) := placesFrom recognise none 0 text

theorem map_fst_placesFrom (before : Option Char) (skip : Nat) (text : Text) :
    (placesFrom recognise before skip text).map Prod.fst =
      (piecesFrom recognise before skip text).filterMap Piece.item? := by
  fun_induction piecesFrom recognise before skip text with
  | case1 => rfl
  | case2 _ _ _ _ ih => exact ih
  | case3 before c rest value after found ih =>
      simp only [placesFrom, found, List.map_cons, ih]
      rfl
  | case4 before c rest missing ih =>
      simp only [placesFrom, missing, ih]
      rfl

/-- The places of a text hold its items. -/
theorem map_fst_places (text : Text) :
    (places recognise text).map Prod.fst = items recognise text :=
  map_fst_placesFrom recognise none 0 text

variable {recognise}

/-- An item is recognised at its place, and its place is in the text. -/
theorem exists_of_mem_placesFrom {before : Option Char} {skip : Nat} {text place : Text} {value : α}
    (member : (value, place) ∈ placesFrom recognise before skip text) :
    place <:+ text ∧ ∃ before after, recognise before place = some (value, after) := by
  fun_induction placesFrom recognise before skip text with
  | case1 => cases member
  | case2 _ _ c rest ih =>
      obtain ⟨suffix, found⟩ := ih member
      exact ⟨suffix.trans (List.suffix_cons c rest), found⟩
  | case3 before c rest other after found ih =>
      rcases List.mem_cons.mp member with same | later
      · cases same
        exact ⟨List.suffix_refl _, before, after, found⟩
      · obtain ⟨suffix, found⟩ := ih later
        exact ⟨suffix.trans (List.suffix_cons c rest), found⟩
  | case4 before c rest missing ih =>
      obtain ⟨suffix, found⟩ := ih member
      exact ⟨suffix.trans (List.suffix_cons c rest), found⟩

end Text

/-! ## The run behind a note -/

/-- A text begins with the letter and the accidental of a note word, a whole run of octave marks,
and what follows it. -/
structure OctaveRun (word : NoteWord) (place run rest : Text) : Prop where
  split : place = word.letter ++ (word.accidental ++ (run ++ rest))
  marks : ∀ mark ∈ run, isOctaveMark mark = true
  stops : Text.Stops isOctaveMark rest

/-- The run behind a note is the only one. -/
theorem OctaveRun.unique {word : NoteWord} {place run rest run' rest' : Text}
    (first : OctaveRun word place run rest) (second : OctaveRun word place run' rest') :
    run = run' ∧ rest = rest' := by
  have same : run ++ rest = run' ++ rest' :=
    List.append_cancel_left (List.append_cancel_left (first.split.symm.trans second.split))
  have split := Text.splitWhile_eq_iff.mpr ⟨rfl, first.marks, first.stops⟩
  have split' := Text.splitWhile_eq_iff.mpr ⟨same, second.marks, second.stops⟩
  exact Prod.mk.inj (split.symm.trans split')

/-- No digit is an octave mark. -/
theorem isOctaveMark_of_isDigit {c : Char} (digit : Text.isDigit c = true) :
    isOctaveMark c = false := by
  cases octave : isOctaveMark c with
  | false => rfl
  | true =>
      have noWord := isWord_of_isOctaveMark octave
      rw [Text.isWord_of_isDigit digit] at noWord
      cases noWord

/-- **The run behind a note.** A note has the whole run behind its letter and its accidental, or it
has no fingering and leaves the last mark of the run to a larger word. -/
theorem WrittenNote.exists_octaveRun (note : WrittenNote) {after : Text}
    (ends : EndsBefore note.ending after) :
    ∃ run rest, OctaveRun note.word (note.text ++ after) run rest ∧
      ((note.word.octaves = run ∧ WordEnds rest) ∨
        ¬ WordEnds rest ∧
          ∃ mark, run = note.word.octaves ++ [mark] ∧ note.word.fingering = []) := by
  obtain ⟨pitch, ending⟩ := note
  -- a fingering, a duration or another character behind the marks ends the run
  have whole (stops : Text.Stops isOctaveMark (ending.text ++ after)) :
      ∃ run rest, OctaveRun (WrittenNote.word ⟨pitch, ending⟩)
          (WrittenNote.text ⟨pitch, ending⟩ ++ after) run rest ∧
        ((pitch.octaves = run ∧ WordEnds rest) ∨ ¬ WordEnds rest ∧
          ∃ mark, run = pitch.octaves ++ [mark] ∧ ending.fingeringText = []) := by
    refine ⟨pitch.octaves, ending.text ++ after, ⟨?_, pitch.octaves_marks, stops⟩,
      .inl ⟨rfl, ending.wordEnds ends⟩⟩
    simp [WrittenNote.text, WrittenNote.word, Pitch.text, Pitch.word]
  cases ends with
  | fingering digits stops => exact whole (Text.stops_cons.mpr (by decide))
  | duration digits stops =>
      exact whole (Text.stops_run digits.nonempty
        (fun c member => isOctaveMark_of_isDigit (digits.digits c member)) after)
  | bare stops noMark noFingering => exact whole noMark
  | @mark mark octave after noMark larger =>
      refine ⟨pitch.octaves ++ [mark], after, ⟨?_, ?_, noMark⟩, .inr ⟨larger, mark, rfl, rfl⟩⟩
      · simp [WrittenNote.text_bare, WrittenNote.word, Pitch.text, Pitch.word]
      · exact fun other member => (List.mem_append.mp member).elim (pitch.octaves_marks other)
          fun last => List.mem_singleton.mp last ▸ octave

/-- **Octave marks of a scan.** Every note that a scan of a voice finds stands at a place of the
cleaned voice that begins with its letter and its accidental. It has the whole run of octave marks
behind them if and only if the run does not touch a larger word. Otherwise it has the run without
its last mark, and no fingering. -/
theorem scanVoice_octaves (body : Text) :
    scanVoice body = (Text.places noteAt (cleanVoice body)).map (·.1.1) ∧
      ∀ word duration place, ((word, duration), place) ∈ Text.places noteAt (cleanVoice body) →
        place <:+ cleanVoice body ∧ ∃ run rest, OctaveRun word place run rest ∧
          (word.octaves = run ↔ WordEnds rest) ∧
          (¬ WordEnds rest → ∃ mark, run = word.octaves ++ [mark] ∧ word.fingering = []) := by
  constructor
  · rw [scanVoice, ← Text.map_fst_places, List.map_map]
    rfl
  · intro word duration place member
    obtain ⟨suffix, before, after, found⟩ := Text.exists_of_mem_placesFrom member
    obtain ⟨-, note, rfl, rfl, -, ends⟩ := noteAt_eq_some_iff.mp found
    obtain ⟨run, rest, octaveRun, octaves⟩ := note.exists_octaveRun ends
    refine ⟨suffix, run, rest, octaveRun, ?_, ?_⟩
    · rcases octaves with ⟨same, wordEnds⟩ | ⟨larger, mark, rfl, -⟩
      · exact iff_of_true same wordEnds
      · have longer : note.word.octaves ≠ note.word.octaves ++ [mark] := fun same =>
          List.cons_ne_nil _ _ (List.append_right_eq_self.mp same.symm)
        exact iff_of_false longer larger
    · exact fun larger => (octaves.resolve_left fun whole => larger whole.2).2

/-- The letter `c` with a run of one mark, which touches the word `x`. -/
theorem octaveRun_larger : OctaveRun ⟨['c'], [], [], []⟩ "c'x".toList [raiseMark] ['x'] where
  split := rfl
  marks := List.forall_mem_singleton.mpr rfl
  stops := Text.stops_cons.mpr rfl

theorem mem_places_larger : ((⟨['c'], [], [], []⟩, []), "c'x".toList) ∈
    Text.places noteAt (cleanVoice "c'x".toList) := by
  decide +kernel

/-- A mark that touches a larger word is left to the word. -/
theorem scanVoice_octaves_larger :
    ((⟨['c'], [], [], []⟩, []), "c'x".toList) ∈ Text.places noteAt (cleanVoice "c'x".toList) ∧
      ∃ run rest, OctaveRun ⟨['c'], [], [], []⟩ "c'x".toList run rest ∧ ¬ WordEnds rest ∧
        ∃ mark, run = [mark] := by
  obtain ⟨-, run, rest, octaveRun, whole, cut⟩ :=
    (scanVoice_octaves "c'x".toList).2 _ _ _ mem_places_larger
  have larger : ¬ WordEnds rest := by
    rw [← whole, (octaveRun.unique octaveRun_larger).1]
    exact (List.cons_ne_nil _ _).symm
  obtain ⟨mark, last, -⟩ := cut larger
  exact ⟨mem_places_larger, run, rest, octaveRun, larger, mark, last⟩

/-- A scan can truncate a note. -/
theorem not_forall_octaves_whole :
    ¬ ∀ (body : Text) (word : NoteWord) (duration place run rest : Text),
      ((word, duration), place) ∈ Text.places noteAt (cleanVoice body) →
      OctaveRun word place run rest → word.octaves = run := by
  intro whole
  have same := whole _ _ _ _ _ _ mem_places_larger octaveRun_larger
  exact absurd same (List.cons_ne_nil _ _).symm

end Clavier
