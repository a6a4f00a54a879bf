import Clavier.Proofs.ExportedScores
import Clavier.Proofs.StrictDecoding
import Clavier.Storage.ScoreFile

/-!
# Exports that succeed

A library can be depended on at a tempo (`MidiLibrary.Dependable`) if it begins songs with it, makes
the notes that do not end before they start, and writes the songs whose numbers and texts fit into a
MIDI file and whose tracks are not too long (`Midi.Writable`). With such a library a standard export
of a score of moderate size (`Score.Short`) succeeds, unless it has a key that no MIDI file can hold
(`exists_midiBytes`, `midiBytes_ne_faulted`).

The times of an export are rounded again and again, but rounding at most doubles a result
(`roundSignificant_le`), so numbers of moderate size stay of moderate size
(`Binary64.AtMost.mul`, `Binary64.AtMost.add`, `Binary64.AtMost.exists_div`), and the notes of a short
voice all end before the `latestSecond`.
-/

set_option autoImplicit false

namespace Clavier

/-! ## Bounds of rounded numbers -/

/-- Rounding at most doubles a quotient and adds one. -/
theorem roundSignificant_le (numerator denominator : Nat) :
    roundSignificant numerator denominator ≤ 2 * (numerator / denominator) + 1 := by
  unfold roundSignificant
  dsimp only
  generalize hq : numerator / denominator = quotient
  generalize hd : quotient.log2 + 1 - 53 = dropped
  have rounded := roundQuotient_le numerator (denominator * powerOfTwo dropped)
  rw [← Nat.div_div_eq_div_mul, hq] at rounded
  have kept : roundQuotient numerator (denominator * powerOfTwo dropped) * powerOfTwo dropped ≤
      quotient + powerOfTwo dropped :=
    calc roundQuotient numerator (denominator * powerOfTwo dropped) * powerOfTwo dropped
      _ ≤ (quotient / powerOfTwo dropped + 1) * powerOfTwo dropped :=
          Nat.mul_le_mul_right _ rounded
      _ = quotient / powerOfTwo dropped * powerOfTwo dropped + powerOfTwo dropped :=
          Nat.succ_mul _ _
      _ ≤ quotient + powerOfTwo dropped :=
          Nat.add_le_add_right (Nat.div_mul_le_self _ _) _
  have unit : powerOfTwo dropped ≤ quotient + 1 := by
    cases dropped with
    | zero => exact Nat.succ_pos quotient
    | succ more =>
        have nonzero : quotient ≠ 0 := by
          rintro rfl
          simp at hd
        exact Nat.le_succ_of_le (Nat.le_trans (powerOfTwo_le (by omega))
          (Nat.log2_self_le nonzero))
  omega

namespace Binary64

/-- A number between zero and a whole number. -/
def AtMost (bound : Nat) (x : Binary64) : Prop :=
  ∃ units, x = .finite false units ∧ units ≤ bound * unitsOfOne

/-- The bounds up to which results are finite. -/
def boundLimit : Nat := powerOfTwo 1024

theorem unitsLimit_eq : unitsLimit = boundLimit * unitsOfOne := by
  rw [boundLimit, unitsOfOne, ← powerOfTwo_add, unitsLimit]

/-- A result with a bound is finite. -/
theorem atMost_ofUnits {bound numerator denominator : Nat} (moderate : bound < boundLimit)
    (le : roundSignificant numerator denominator ≤ bound * unitsOfOne) :
    (ofUnits false numerator denominator).AtMost bound := by
  have finite : roundSignificant numerator denominator < unitsLimit := by
    rw [unitsLimit_eq]
    exact Nat.lt_of_le_of_lt le (Nat.mul_lt_mul_of_pos_right moderate unitsOfOne_pos)
  refine ⟨_, ?_, le⟩
  unfold ofUnits
  generalize unitsLimit = limit at finite
  exact if_pos finite

theorem atMost_ofInt {n : Nat} (moderate : 2 * n < boundLimit) : (ofInt n).AtMost (2 * n) := by
  rw [ofInt_natCast]
  refine atMost_ofUnits moderate ?_
  rw [Nat.mul_assoc]
  exact roundSignificant_le_double _

namespace AtMost

variable {x y : Binary64} {a b : Nat}

theorem mono (bounded : x.AtMost a) (le : a ≤ b) : x.AtMost b := by
  obtain ⟨u, rfl, small⟩ := bounded
  exact ⟨u, rfl, Nat.le_trans small (Nat.mul_le_mul_right _ le)⟩

theorem mul (first : x.AtMost a) (second : y.AtMost b) (moderate : 2 * (a * b) + 1 < boundLimit) :
    (x.mul y).AtMost (2 * (a * b) + 1) := by
  obtain ⟨u, rfl, le⟩ := first
  obtain ⟨v, rfl, le'⟩ := second
  rw [mul_finite, bne_self_eq_false]
  refine atMost_ofUnits moderate ?_
  have quotient : u * v / unitsOfOne ≤ a * b * unitsOfOne := by
    apply Nat.div_le_of_le_mul
    calc u * v
      _ ≤ a * unitsOfOne * (b * unitsOfOne) := Nat.mul_le_mul le le'
      _ = unitsOfOne * (a * b * unitsOfOne) := by generalize unitsOfOne = one; ac_rfl
  have rounded := roundSignificant_le (u * v) unitsOfOne
  have one := unitsOfOne_pos
  rw [Nat.add_mul, Nat.one_mul, Nat.mul_assoc 2]
  omega

theorem add (first : x.AtMost a) (second : y.AtMost b) (moderate : 2 * (a + b) < boundLimit) :
    (x.add y).AtMost (2 * (a + b)) := by
  obtain ⟨u, rfl, le⟩ := first
  obtain ⟨v, rfl, le'⟩ := second
  rw [add_finite]
  refine atMost_ofUnits moderate ?_
  have rounded := roundSignificant_le_double (u + v)
  rw [Nat.mul_assoc, Nat.add_mul]
  omega

/-- A quotient over a number of which several make one. -/
theorem exists_div {units c : Nat} (first : x.AtMost a) (nonzero : units ≠ 0)
    (several : unitsOfOne ≤ c * units) (moderate : 2 * (a * c) + 1 < boundLimit) :
    ∃ z, x.div (.finite false units) = .ok z ∧ z.AtMost (2 * (a * c) + 1) := by
  obtain ⟨u, rfl, le⟩ := first
  refine ⟨ofUnits false (u * unitsOfOne) units, ?_, ?_⟩
  · have defined : (finite false u).div? (.finite false units) =
        some (ofUnits false (u * unitsOfOne) units) := if_neg nonzero
    rw [div, defined]
  · refine atMost_ofUnits moderate ?_
    have quotient : u * unitsOfOne / units ≤ a * c * unitsOfOne := by
      apply Nat.div_le_of_le_mul
      calc u * unitsOfOne
        _ ≤ a * unitsOfOne * (c * units) := Nat.mul_le_mul le several
        _ = units * (a * c * unitsOfOne) := by generalize unitsOfOne = one; ac_rfl
    have rounded := roundSignificant_le (u * unitsOfOne) units
    have one := unitsOfOne_pos
    rw [Nat.add_mul, Nat.one_mul, Nat.mul_assoc 2]
    omega

theorem exists_round (bounded : x.AtMost a) : ∃ n : Nat, x.round = .ok (n : Int) ∧ n ≤ a + 1 := by
  obtain ⟨u, rfl, le⟩ := bounded
  refine ⟨roundQuotient u unitsOfOne, rfl, ?_⟩
  have rounded := roundQuotient_le u unitsOfOne
  have quotient : u / unitsOfOne ≤ a := by
    apply Nat.div_le_of_le_mul
    rw [Nat.mul_comm]
    exact le
  omega

end AtMost

end Binary64

/-! ## Songs that can be written -/

namespace Midi

/-- Fewer notes than this are short enough for a track, and so are fewer characters. -/
def shortLength : Nat := powerOfTwo 26

/-- A number of seconds before which every note of a short voice ends. -/
def latestSecond : Nat := powerOfTwo 32

/-- A note whose numbers fit into a MIDI file. -/
structure WritableNote (note : TimedNote Binary64) : Prop where
  key : 0 ≤ note.key ∧ note.key ≤ 127
  velocity : 0 ≤ note.velocity ∧ note.velocity ≤ 127
  start : note.start.AtMost latestSecond
  finish : note.finish.AtMost latestSecond

/-- A short text whose characters stand for bytes. -/
structure WritableText (text : Text) : Prop where
  short : text.length < shortLength
  small : ∀ c ∈ text, c.toNat ≤ 0xff

/-- A part that can be written: a short one with notes that can be written. -/
structure WritablePart (part : Part Binary64) : Prop where
  name : WritableText part.name
  program : 0 ≤ part.program ∧ part.program ≤ 127
  short : part.notes.length < shortLength
  notes : ∀ note ∈ part.notes, WritableNote note

/-- A song that can be written: it has no more parts than there are hands and no more texts than a
title and a composer, and they can be written. -/
structure Writable (song : Song Binary64) : Prop where
  few_parts : song.parts.length ≤ 2
  few_texts : song.texts.length ≤ 2
  parts : ∀ part ∈ song.parts, WritablePart part
  texts : ∀ text ∈ song.texts, WritableText text

end Midi

/-- What a library is depended on for at a tempo. It begins songs with the tempo, makes notes that do
not end before they start, and writes every song that can be written. -/
structure MidiLibrary.Dependable [MidiLibrary] (tempo : Amount) : Prop where
  begins : beginSong tempo = .ok ()
  makes : ∀ note : TimedNote Binary64, ¬note.finish < note.start → makeNote note = .ok ()
  writes : ∀ song, Midi.Writable song → ∃ bytes, writeSong tempo song = .ok bytes

/-! ## Standard exports -/

/-- A score of moderate size: its voices and its tagged texts are short. -/
structure Score.Short (score : Score) : Prop where
  voices : ∀ hand, (score.voice hand).length < Midi.shortLength
  texts : ∀ text ∈ score.metadata.texts, text.length < Midi.shortLength

namespace ExportSettings

theorem writableText_voiceName (hand : Hand) : Midi.WritableText hand.voiceName := by
  have short : hand.voiceName.length < Midi.shortLength := by cases hand <;> decide
  have small : (hand.voiceName.all fun c => decide (c.toNat ≤ 0xff)) = true := by
    cases hand <;> rfl
  exact ⟨short, fun c member => of_decide_eq_true (List.all_eq_true.mp small c member)⟩

theorem touch_standard : (0 ≤ standard.touch.program ∧ standard.touch.program ≤ 127) ∧
    0 ≤ standard.touch.velocity ∧ standard.touch.velocity ≤ 127 := by
  decide

/-- A note of a standard export lasts half a second. -/
theorem noteSeconds_standard : standard.noteSeconds = .ok (.finite false (powerOfTwo 1073)) :=
  toOption_eq_some_iff.mp (by decide +kernel)

theorem atMost_noteSeconds_standard {seconds : Binary64}
    (found : standard.noteSeconds = .ok seconds) : seconds.AtMost 1 := by
  obtain rfl := Except.ok.inj (noteSeconds_standard.symm.trans found)
  refine ⟨powerOfTwo 1073, rfl, ?_⟩
  rw [Nat.one_mul]
  exact powerOfTwo_le (by decide)

section Clock

variable {seconds : Binary64} (brief : seconds.AtMost 1)
include brief

theorem forward_of_atMost (index : Nat) :
    ¬(clockOf seconds).finish index < (clockOf seconds).start index := by
  obtain ⟨units, rfl, -⟩ := brief
  refine not_finish_lt_start (Binary64.nonNegative_finite_iff.mpr ?_) index
  exact Int.natCast_nonneg units

/-- The times of a note grow with its place only. -/
theorem atMost_clockOf {index : Nat} (moderate : 8 * index + 4 < Binary64.boundLimit) :
    ((clockOf seconds).start index).AtMost (8 * index + 4) ∧
      ((clockOf seconds).finish index).AtMost (8 * index + 4) := by
  have place := @Binary64.atMost_ofInt index (by omega)
  have start := place.mul brief (by omega)
  have finish := start.add brief (by omega)
  dsimp only [clockOf]
  exact ⟨start.mono (by omega), finish.mono (by omega)⟩

/-- The notes of a short voice end early. -/
theorem early_clockOf {index : Nat} (short : index < Midi.shortLength) :
    ((clockOf seconds).start index).AtMost Midi.latestSecond ∧
      ((clockOf seconds).finish index).AtMost Midi.latestSecond := by
  have early : 8 * index + 4 ≤ Midi.latestSecond := by
    change index < 67108864 at short
    change 8 * index + 4 ≤ 4294967296
    omega
  have representable : Midi.latestSecond < Binary64.boundLimit := by decide +kernel
  have times := atMost_clockOf brief (Nat.lt_of_le_of_lt early representable)
  exact ⟨times.1.mono early, times.2.mono early⟩

end Clock

section Short

variable {score : Score} (inMidi : ∀ hand, ∀ note ∈ score.voice hand, note.InMidi)
  (short : score.Short)
include inMidi short

theorem writablePart_played {seconds : Binary64} (brief : seconds.AtMost 1) (hand : Hand) :
    ∀ part ∈ (playedPart? (clockOf seconds) standard.touch score hand).toList,
      Midi.WritablePart part := by
  have times := fun index => @early_clockOf seconds brief index
  generalize clockOf seconds = clock at times ⊢
  intro part member
  rw [Option.mem_toList] at member
  unfold playedPart? at member
  split at member
  · cases member
  cases member
  refine ⟨writableText_voiceName hand, touch_standard.1, ?_, ?_⟩
  · simpa only [playedNotes, List.length_mapIdx] using short.voices hand
  · intro played member
    obtain ⟨place, inside, rfl⟩ := List.mem_mapIdx.mp member
    have times := times place (Nat.lt_trans inside (short.voices hand))
    rw [Nat.zero_add]
    exact ⟨inMidi hand _ (List.getElem_mem inside), touch_standard.2, times.1, times.2⟩

/-- The song of a score of moderate size can be written. -/
theorem writable_played {seconds : Binary64} (brief : seconds.AtMost 1) :
    Midi.Writable ⟨(playedPart? (clockOf seconds) standard.touch score .upper).toList ++
      (playedPart? (clockOf seconds) standard.touch score .lower).toList,
      score.metadata.texts⟩ where
  few_parts := by
    have each : ∀ hand,
        (playedPart? (clockOf seconds) standard.touch score hand).toList.length ≤ 1 :=
      fun _ => Option.length_toList_le
    rw [List.length_append]
    exact Nat.add_le_add (each .upper) (each .lower)
  few_texts := by
    rw [Metadata.texts, List.length_append]
    exact Nat.add_le_add Option.length_toList_le Option.length_toList_le
  parts := List.forall_mem_append.mpr
    ⟨writablePart_played inMidi short brief .upper, writablePart_played inMidi short brief .lower⟩
  texts text member := by
    refine ⟨short.texts text member, fun c inside => ?_⟩
    rw [Metadata.texts, List.mem_append, Option.mem_toList, Option.mem_toList] at member
    rcases member with title | composer
    · obtain ⟨title, -, rfl⟩ := Option.map_eq_some_iff.mp title
      exact toNat_le_of_mem_charsOfBytes inside
    · obtain ⟨composer, -, rfl⟩ := Option.map_eq_some_iff.mp composer
      exact toNat_le_of_mem_charsOfBytes inside

end Short

section Dependable

variable [MidiLibrary] (dependable : MidiLibrary.Dependable standard.tempo)
include dependable

/-- A library that can be depended on takes standard exports. -/
theorem taken_of_dependable : standard.Taken where
  begins := dependable.begins
  makes seconds found index key _ := by
    have forward := forward_of_atMost (atMost_noteSeconds_standard found) index
    generalize clockOf seconds = clock at forward ⊢
    exact dependable.makes _ forward

variable {score : Score}

/-- **Standard exports succeed** for scores of moderate size that a MIDI file can hold. -/
theorem exists_midiBytes (inMidi : ∀ hand, ∀ note ∈ score.voice hand, note.InMidi)
    (short : score.Short) : ∃ bytes, midiBytes .standard score = .ok bytes := by
  obtain ⟨seconds, found, makes, songEq⟩ :=
    usable_standard.song_eq (taken_of_dependable dependable)
  have brief := atMost_noteSeconds_standard found
  obtain ⟨bytes, written⟩ := dependable.writes _ (writable_played inMidi short brief)
  have song := songEq score
  rw [toSong_of_inMidi makes inMidi] at song
  refine ⟨bytes, bind_eq_ok_iff.mpr ⟨_, song, ?_⟩⟩
  dsimp only
  rw [written]
  rfl

/-- A standard export of a score that no MIDI file can hold is refused. -/
theorem exists_rejection_midiBytes (outside : ∃ hand, ∃ note ∈ score.voice hand, ¬note.InMidi) :
    ∃ rejection, midiBytes .standard score = .error (.rejected rejection) := by
  obtain ⟨seconds, -, makes, songEq⟩ :=
    usable_standard.song_eq (taken_of_dependable dependable)
  obtain ⟨hand, before, note, first⟩ := Score.exists_firstOutside outside
  refine ⟨.keyOutsideMidi hand (before.length + 1) note.label note.key, ?_⟩
  rw [midiBytes, songEq, toSong_of_firstOutside makes first]
  rfl

/-- Standard exports of scores of moderate size end with bytes or with a refusal. -/
theorem midiBytes_ne_faulted (short : score.Short) (fault : Fault) :
    midiBytes .standard score ≠ .error (.faulted fault) := by
  intro failed
  by_cases outside : ∃ hand, ∃ note ∈ score.voice hand, ¬note.InMidi
  · obtain ⟨rejection, refused⟩ := exists_rejection_midiBytes dependable outside
    cases failed.symm.trans refused
  · have inMidi : ∀ hand, ∀ note ∈ score.voice hand, note.InMidi := by
      simpa only [not_exists, not_and, Classical.not_not] using outside
    obtain ⟨bytes, written⟩ := exists_midiBytes dependable inMidi short
    cases failed.symm.trans written

end Dependable

end ExportSettings

end Clavier
