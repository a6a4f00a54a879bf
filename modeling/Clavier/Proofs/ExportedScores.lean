import Clavier.Midi.Bundled
import Clavier.Midi.Export
import Clavier.Midi.Import
import Clavier.Proofs.MidiTexts
import Clavier.Proofs.Rounding

/-!
# Scores in songs

A score is exported with one part for each voice that has notes. With settings that a note can be
reckoned from (`ExportSettings.Usable`) and a library that takes what the export gives it
(`ExportSettings.Taken`), an export is refused exactly for a key that no MIDI file holds, and the
refusal names the first one. Otherwise the song of the score is read as the same keys in the same
order, hand by hand, with the same title and composer, as long as the notes start one after the
other (`export_of_usable`).

A library that is a plain container takes every export (`MidiLibrary.IsPlain.taken`). The bundled
one takes those whose notes have no negative length and whose ticks can be reckoned
(`taken_bundled`), since rounding never makes such a note end before it starts.
-/

set_option autoImplicit false

namespace Clavier

/-! ## Settings -/

namespace Amount

/-- An amount above zero. -/
def IsPositive : Amount → Prop
  | .whole n => 0 < n
  | .real x => Binary64.zero < x

/-- An amount that is not below zero. -/
def NonNegative : Amount → Prop
  | .whole n => 0 ≤ n
  | .real x => x.NonNegative

/-- An amount with a nearest binary64 number. -/
def InRange (amount : Amount) : Prop := ∃ x, amount.toBinary64 = .ok x

end Amount

/-- Settings that a note can be reckoned from: the tempo is positive, and neither the tempo nor the
length of a note is too large for a binary64 number. -/
structure ExportSettings.Usable (settings : ExportSettings) : Prop where
  tempo_positive : settings.tempo.IsPositive
  tempo_inRange : settings.tempo.InRange
  beats_inRange : settings.beatsPerNote.InRange

/-! ## What a library takes -/

/-- Every note whose key a MIDI file can hold is made at every place of a clock. -/
def MakesAll {Time : Type} (make : TimedNote Time → Except Fault Unit) (clock : Clock Time)
    (velocity : Int) : Prop :=
  ∀ index (key : Int), 0 ≤ key ∧ key ≤ 127 →
    make ⟨key, velocity, clock.start index, clock.finish index⟩ = .ok ()

/-- The library takes an export: it begins a song with its tempo, and it makes the notes of its
clock. -/
structure ExportSettings.Taken [MidiLibrary] (settings : ExportSettings) : Prop where
  begins : MidiLibrary.beginSong settings.tempo = .ok ()
  makes : ∀ seconds, settings.noteSeconds = .ok seconds →
    MakesAll MidiLibrary.makeNote (clockOf seconds) settings.touch.velocity

/-- The library is a plain container: it takes everything. -/
structure MidiLibrary.IsPlain [MidiLibrary] : Prop where
  begins : ∀ tempo, beginSong tempo = .ok ()
  makes : ∀ note, makeNote note = .ok ()

/-- A plain container takes every export. -/
theorem MidiLibrary.IsPlain.taken [MidiLibrary] (plain : MidiLibrary.IsPlain)
    (settings : ExportSettings) : settings.Taken where
  begins := plain.begins settings.tempo
  makes _ _ _ _ _ := plain.makes _

/-! ## The clock of an export -/

namespace Amount

theorem IsPositive.times {amount : Amount} (positive : amount.IsPositive) {factor : Int}
    (whole : 0 < factor) : (amount.times factor).IsPositive := by
  cases amount with
  | whole n => exact Int.mul_pos positive whole
  | real x => exact Binary64.zero_lt_mul_ofInt positive whole

/-- The number of an amount in range is that of its integer, or the amount itself. -/
theorem eq_of_toBinary64 {amount : Amount} {x : Binary64} (found : amount.toBinary64 = .ok x) :
    (∃ n, amount = .whole n ∧ .ofInt n = x) ∨ amount = .real x := by
  cases amount with
  | real y => exact .inr (congrArg Amount.real (Except.ok.inj found))
  | whole n =>
      rw [toBinary64_whole, Binary64.bounded_eq_ok_iff] at found
      exact .inl ⟨n, rfl, found.1⟩

theorem zero_lt_of_toBinary64 {amount : Amount} {x : Binary64} (positive : amount.IsPositive)
    (found : amount.toBinary64 = .ok x) : Binary64.zero < x := by
  rcases eq_of_toBinary64 found with ⟨n, rfl, same⟩ | rfl
  · rw [← same]
    exact Binary64.zero_lt_ofInt positive
  · exact positive

theorem nonNegative_of_toBinary64 {amount : Amount} {x : Binary64} (natural : amount.NonNegative)
    (found : amount.toBinary64 = .ok x) : x.NonNegative := by
  rcases eq_of_toBinary64 found with ⟨n, rfl, same⟩ | rfl
  · rw [← same]
    exact Binary64.nonNegative_ofInt natural
  · exact natural

end Amount

namespace ExportSettings

variable {settings : ExportSettings}

/-- Usable settings say how long a note lasts. -/
theorem Usable.exists_seconds (usable : settings.Usable) :
    ∃ seconds, settings.noteSeconds = .ok seconds := by
  obtain ⟨beats, beatsFound⟩ := usable.beats_inRange
  obtain ⟨tempo, tempoFound⟩ := usable.tempo_inRange
  have tempoPositive := Amount.zero_lt_of_toBinary64 usable.tempo_positive tempoFound
  obtain ⟨seconds, quotient⟩ := @Binary64.exists_div (beats.mul secondsPerMinute) tempo
    (Binary64.isZero_of_zero_lt tempoPositive)
  exact ⟨seconds, bind_eq_ok_iff.mpr
    ⟨beats, beatsFound, bind_eq_ok_iff.mpr ⟨tempo, tempoFound, quotient⟩⟩⟩

/-- A note has no negative length if it lasts no negative number of beats. -/
theorem nonNegative_noteSeconds (positive : settings.tempo.IsPositive)
    (natural : settings.beatsPerNote.NonNegative) {seconds : Binary64}
    (found : settings.noteSeconds = .ok seconds) : seconds.NonNegative := by
  obtain ⟨beats, beatsFound, found⟩ := bind_eq_ok_iff.mp found
  obtain ⟨tempo, tempoFound, quotient⟩ := bind_eq_ok_iff.mp found
  have product := (Amount.nonNegative_of_toBinary64 natural beatsFound).mul
    (@Binary64.nonNegative_ofInt 60 (by decide))
  have tempoPositive := Amount.zero_lt_of_toBinary64 positive tempoFound
  exact product.div (Binary64.nonNegative_of_zero_lt tempoPositive) quotient

/-- No note of an export ends before it starts. -/
theorem not_finish_lt_start {seconds : Binary64} (natural : seconds.NonNegative) (index : Nat) :
    ¬(clockOf seconds).finish index < (clockOf seconds).start index := by
  have start := (Binary64.nonNegative_ofInt (Int.natCast_nonneg index)).mul natural
  dsimp only [clockOf]
  exact Binary64.not_add_lt (Binary64.rounded_mul (.ofInt index) seconds) start natural

/-- **Exports that the bundled library takes**: no note has a negative length, and the ticks of a
minute are not too many for a binary64 number. -/
theorem taken_bundled (positive : settings.tempo.IsPositive)
    (natural : settings.beatsPerNote.NonNegative)
    (ticks_inRange : (settings.tempo.times Midi.ticksPerQuarter).InRange) : settings.Taken where
  begins := by
    obtain ⟨ticks, ticksFound⟩ := ticks_inRange
    have ticksPositive := Amount.zero_lt_of_toBinary64 (positive.times (by decide)) ticksFound
    obtain ⟨tick, tickFound⟩ := @Binary64.exists_div secondsPerMinute ticks
      (Binary64.isZero_of_zero_lt ticksPositive)
    exact bind_eq_ok_iff.mpr ⟨tick, bind_eq_ok_iff.mpr ⟨ticks, ticksFound, tickFound⟩, rfl⟩
  makes seconds found index key _ := by
    have forward := not_finish_lt_start (nonNegative_noteSeconds positive natural found) index
    generalize clockOf seconds = clock at forward ⊢
    exact if_neg forward

end ExportSettings

/-! ## Songs over a clock -/

/-- A note whose key a MIDI file can hold. -/
def Note.InMidi (note : Note) : Prop := 0 ≤ note.key ∧ note.key ≤ 127

theorem isMidiKey_iff {note : Note} : isMidiKey note.key = true ↔ note.InMidi := by
  simp [isMidiKey, Note.InMidi]

/-- The first note of a score that no MIDI file can hold, the upper voice before the lower one, and
the notes before it in its voice. -/
structure Score.FirstOutside (score : Score) (hand : Hand) (before : List Note) (note : Note) :
    Prop where
  place : ∃ after, score.voice hand = before ++ note :: after
  outside : ¬note.InMidi
  before_inMidi : ∀ other ∈ before, other.InMidi
  upper_inMidi : hand = .lower → ∀ other ∈ score.upper, other.InMidi

theorem exists_first_outside {notes : List Note} (outside : ∃ note ∈ notes, ¬note.InMidi) :
    ∃ before note after, notes = before ++ note :: after ∧ ¬note.InMidi ∧
      ∀ other ∈ before, other.InMidi := by
  induction notes with
  | nil =>
      obtain ⟨note, member, -⟩ := outside
      cases member
  | cons first rest ih =>
      by_cases here : first.InMidi
      · obtain ⟨note, member, not⟩ := outside
        have later : note ∈ rest := List.mem_of_ne_of_mem (fun same => not (same ▸ here)) member
        obtain ⟨before, note, after, rfl, not, inMidi⟩ := ih ⟨note, later, not⟩
        exact ⟨first :: before, note, after, rfl, not, List.forall_mem_cons.mpr ⟨here, inMidi⟩⟩
      · exact ⟨[], first, rest, rfl, here, List.forall_mem_nil _⟩

/-- A score with a note that no MIDI file can hold has a first one. -/
theorem Score.exists_firstOutside {score : Score}
    (outside : ∃ hand, ∃ note ∈ score.voice hand, ¬note.InMidi) :
    ∃ hand before note, score.FirstOutside hand before note := by
  by_cases upper : ∃ note ∈ score.upper, ¬note.InMidi
  · obtain ⟨before, note, after, same, not, inMidi⟩ := exists_first_outside upper
    exact ⟨.upper, before, note, ⟨after, same⟩, not, inMidi, fun other => by cases other⟩
  · have upperInMidi : ∀ other ∈ score.upper, other.InMidi := by
      simpa only [not_exists, not_and, Classical.not_not] using upper
    obtain ⟨hand, note, member, not⟩ := outside
    cases hand with
    | upper => exact absurd (upperInMidi note member) not
    | lower =>
        obtain ⟨before, note, after, same, not, inMidi⟩ := exists_first_outside ⟨note, member, not⟩
        exact ⟨.lower, before, note, ⟨after, same⟩, not, inMidi, fun _ => upperInMidi⟩

section Songs

variable {Time : Type} {clock : Clock Time}

/-- The notes of a voice on a clock, from a place on. -/
def playedNotes (clock : Clock Time) (velocity : Int) (index : Nat) (notes : List Note) :
    List (TimedNote Time) :=
  notes.mapIdx fun place note =>
    ⟨note.key, velocity, clock.start (index + place), clock.finish (index + place)⟩

theorem playedNotes_cons (velocity : Int) (index : Nat) (note : Note) (rest : List Note) :
    playedNotes clock velocity index (note :: rest) =
      ⟨note.key, velocity, clock.start index, clock.finish index⟩ ::
        playedNotes clock velocity (index + 1) rest := by
  simp only [playedNotes, List.mapIdx_cons, Nat.add_zero, Nat.add_assoc, Nat.add_comm 1]

/-- The part of a hand on a clock, if its voice has notes. -/
def playedPart? (clock : Clock Time) (touch : Touch) (score : Score) (hand : Hand) :
    Option (Part Time) :=
  if score.voice hand = [] then none
  else some ⟨hand.voiceName, touch.program, false,
    playedNotes clock touch.velocity 0 (score.voice hand)⟩

variable {make : TimedNote Time → Except Fault Unit}

/-- A part is written for a voice that has notes, with what the notes become. -/
theorem handPart_eq (touch : Touch) (score : Score) (hand : Hand) :
    handPart make clock touch score hand =
      if score.voice hand = [] then .ok []
      else do
        let timed ← timedNotes make clock touch.velocity hand 0 (score.voice hand)
        return [⟨hand.voiceName, touch.program, false, timed⟩] := by
  unfold handPart
  cases score.voice hand <;> rfl

/-- Notes that are timed have keys that a MIDI file can hold, on every clock and whatever notes are
made. -/
theorem inMidi_of_timedNotes {velocity : Int} {hand : Hand} {index : Nat} {notes : List Note}
    {timed : List (TimedNote Time)}
    (found : timedNotes make clock velocity hand index notes = .ok timed) :
    ∀ note ∈ notes, note.InMidi := by
  induction notes generalizing index timed with
  | nil => exact List.forall_mem_nil _
  | cons note rest ih =>
      rw [timedNotes] at found
      split at found
      · cases found
      · rename_i held
        obtain ⟨-, -, found⟩ := bind_eq_ok_iff.mp found
        obtain ⟨others, later, -⟩ := bind_eq_ok_iff.mp found
        rw [Bool.not_eq_true, Bool.not_eq_false'] at held
        exact List.forall_mem_cons.mpr ⟨isMidiKey_iff.mp held, ih later⟩

theorem inMidi_of_handPart {touch : Touch} {score : Score} {hand : Hand} {parts : List (Part Time)}
    (found : handPart make clock touch score hand = .ok parts) :
    ∀ note ∈ score.voice hand, note.InMidi := by
  rw [handPart_eq] at found
  split at found
  · rename_i none
    rw [none]
    exact List.forall_mem_nil _
  · obtain ⟨timed, held, -⟩ := bind_eq_ok_iff.mp found
    exact inMidi_of_timedNotes held

theorem inMidi_of_toSong {touch : Touch} {score : Score} {song : Song Time}
    (found : score.toSong make clock touch = .ok song) :
    ∀ hand, ∀ note ∈ score.voice hand, note.InMidi := by
  obtain ⟨upper, upperFound, found⟩ := bind_eq_ok_iff.mp found
  obtain ⟨lower, lowerFound, -⟩ := bind_eq_ok_iff.mp found
  intro hand
  cases hand with
  | upper => exact inMidi_of_handPart upperFound
  | lower => exact inMidi_of_handPart lowerFound

section Notes

variable {velocity : Int} (makes : MakesAll make clock velocity)
include makes

/-- Notes that a MIDI file can hold are timed one by one. -/
theorem timedNotes_of_inMidi (hand : Hand) (index : Nat) {notes : List Note}
    (inMidi : ∀ note ∈ notes, note.InMidi) :
    timedNotes make clock velocity hand index notes =
      .ok (playedNotes clock velocity index notes) := by
  induction notes generalizing index with
  | nil => rfl
  | cons note rest ih =>
      have inside := inMidi note List.mem_cons_self
      have here := isMidiKey_iff.mpr inside
      have later := ih (index + 1) fun other member => inMidi other (List.mem_cons_of_mem note member)
      rw [timedNotes, here, playedNotes_cons]
      simp only [Bool.not_true, Bool.false_eq_true, if_false, makes index note.key inside, later]
      rfl

/-- The first note that no MIDI file can hold is refused with its place. -/
theorem timedNotes_of_not_inMidi (hand : Hand) (index : Nat) {before : List Note}
    (inMidi : ∀ note ∈ before, note.InMidi) {note : Note} (outside : ¬note.InMidi)
    (after : List Note) :
    timedNotes make clock velocity hand index (before ++ note :: after) =
      .error (.rejected (.keyOutsideMidi hand (index + before.length + 1) note.label note.key)) := by
  induction before generalizing index with
  | nil =>
      have here : isMidiKey note.key = false := by
        rw [← Bool.not_eq_true, isMidiKey_iff]
        exact outside
      rw [List.nil_append, timedNotes, here]
      rfl
  | cons first rest ih =>
      have inside := inMidi first List.mem_cons_self
      have here := isMidiKey_iff.mpr inside
      have later := ih (index + 1) fun other member => inMidi other (List.mem_cons_of_mem first member)
      rw [List.cons_append, timedNotes, here]
      simp only [Bool.not_true, Bool.false_eq_true, if_false, makes index first.key inside, later,
        List.length_cons, Nat.add_assoc, Nat.add_comm 1]
      rfl

end Notes

variable {touch : Touch} (makes : MakesAll make clock touch.velocity) {score : Score}
include makes

theorem handPart_of_inMidi {hand : Hand} (inMidi : ∀ note ∈ score.voice hand, note.InMidi) :
    handPart make clock touch score hand = .ok (playedPart? clock touch score hand).toList := by
  rw [handPart_eq, playedPart?]
  split
  · rfl
  · rw [timedNotes_of_inMidi makes hand 0 inMidi]
    rfl

/-- The song of a score that a MIDI file can hold. -/
theorem toSong_of_inMidi (inMidi : ∀ hand, ∀ note ∈ score.voice hand, note.InMidi) :
    score.toSong make clock touch = .ok ⟨(playedPart? clock touch score .upper).toList ++
      (playedPart? clock touch score .lower).toList, score.metadata.texts⟩ := by
  rw [Score.toSong, handPart_of_inMidi makes (inMidi .upper),
    handPart_of_inMidi makes (inMidi .lower)]
  rfl

/-- A score is refused for its first note that no MIDI file can hold. -/
theorem toSong_of_firstOutside {hand : Hand} {before : List Note} {note : Note}
    (first : score.FirstOutside hand before note) :
    score.toSong make clock touch =
      .error (.rejected (.keyOutsideMidi hand (before.length + 1) note.label note.key)) := by
  obtain ⟨after, place⟩ := first.place
  have refused : handPart make clock touch score hand =
      .error (.rejected (.keyOutsideMidi hand (before.length + 1) note.label note.key)) := by
    have nonempty : before ++ note :: after ≠ [] := List.append_ne_nil_of_right_ne_nil _ (by simp)
    rw [handPart_eq, place, if_neg nonempty, timedNotes_of_not_inMidi makes _ _
      first.before_inMidi first.outside, Nat.zero_add]
    rfl
  cases hand with
  | upper =>
      rw [Score.toSong, refused]
      rfl
  | lower =>
      have upper : ∀ other ∈ score.voice .upper, other.InMidi := first.upper_inMidi rfl
      rw [Score.toSong, handPart_of_inMidi makes upper, refused]
      rfl

end Songs

/-! ## Scores of songs over a clock -/

/-- A note as a song carries it: its key alone. -/
def Note.carried (note : Note) : Note := ⟨note.key, keyName note.key, none⟩

section Reading

variable {Time : Type} {clock : Clock Time}

theorem map_playedNotes (velocity : Int) (index : Nat) (notes : List Note) :
    (playedNotes clock velocity index notes).map
        (fun note => (⟨note.key, keyName note.key, none⟩ : Note)) =
      notes.map Note.carried := by
  induction notes generalizing index with
  | nil => rfl
  | cons note rest ih => rw [playedNotes_cons, List.map_cons, ih, List.map_cons, Note.carried]

/-- The part of a hand bears the name of the hand's voice alone, and it is no drum part. -/
theorem named_of_playedPart? {touch : Touch} {score : Score} {hand : Hand} {part : Part Time}
    (played : playedPart? clock touch score hand = some part) :
    part.drum = false ∧ ∀ other, part.isNamedFor other = decide (hand = other) := by
  unfold playedPart? at played
  split at played
  · cases played
  · obtain rfl := Option.some.inj played
    refine ⟨rfl, fun other => ?_⟩
    cases hand <;> cases other <;> rfl

/-- The part of each hand is found again by its name, whether the other hand has one or not. -/
theorem partFor?_playedPart? (touch : Touch) (score : Score) (hand : Hand) :
    partFor? (((playedPart? clock touch score .upper).toList ++
        (playedPart? clock touch score .lower).toList).filter fun part => !part.drum) hand =
      playedPart? clock touch score hand := by
  cases upper : playedPart? clock touch score .upper with
  | none =>
      cases lower : playedPart? clock touch score .lower with
      | none => cases hand <;> simp [partFor?, Hand.all, upper, lower]
      | some second =>
          obtain ⟨noDrum, named⟩ := named_of_playedPart? lower
          cases hand <;> simp [partFor?, Hand.all, upper, lower, noDrum, named]
  | some first =>
      obtain ⟨noDrum, named⟩ := named_of_playedPart? upper
      cases lower : playedPart? clock touch score .lower with
      | none => cases hand <;> simp [partFor?, Hand.all, upper, lower, noDrum, named]
      | some second =>
          obtain ⟨noDrum', named'⟩ := named_of_playedPart? lower
          cases hand <;> simp [partFor?, Hand.all, upper, lower, noDrum, named, noDrum', named']

variable [LT Time] [DecidableLT Time]

/-- Notes that start one after the other are in order. -/
theorem pairwise_playedNotes (velocity : Int) {notes : List Note}
    (increasing : ((List.range notes.length).map clock.start).Pairwise (· < ·)) :
    (playedNotes clock velocity 0 notes).Pairwise fun first second =>
      first.precedes second = true := by
  rw [List.pairwise_iff_getElem] at increasing ⊢
  intro i j first second before
  have later := increasing i j (by simpa [playedNotes] using first)
    (by simpa [playedNotes] using second) before
  simp only [List.getElem_map, List.getElem_range] at later
  simp [playedNotes, TimedNote.precedes, later]

/-- A voice is read as the keys that were written, in their order. -/
theorem voiceNotes_playedPart? (touch : Touch) (score : Score) (hand : Hand)
    (increasing : ((List.range (score.voice hand).length).map clock.start).Pairwise (· < ·)) :
    ((playedPart? clock touch score hand).map Part.voiceNotes).getD [] =
      (score.voice hand).map Note.carried := by
  unfold playedPart?
  split
  · rename_i empty
    rw [empty]
    rfl
  · have sorted := pairwise_playedNotes touch.velocity increasing
    simp only [Option.map_some, Option.getD_some, Part.voiceNotes,
      List.mergeSort_of_pairwise sorted, map_playedNotes]

/-! ### Title and composer -/

theorem firstTagged?_titleTag (metadata : Metadata) :
    firstTagged? titleTag metadata.texts = metadata.title := by
  obtain ⟨title, composer⟩ := metadata
  have tagged : ∀ text, Text.dropStart? titleTag (titleTag ++ text) = some text := fun _ =>
    Text.dropStart?_eq_some_iff.mpr rfl
  have other : ∀ text, Text.dropStart? titleTag (composerTag ++ text) = none := fun _ => rfl
  cases title <;> cases composer <;>
    simp [firstTagged?, Metadata.texts, fromMidiText_toMidiText, tagged, other]

theorem firstTagged?_composerTag (metadata : Metadata) :
    firstTagged? composerTag metadata.texts = metadata.composer := by
  obtain ⟨title, composer⟩ := metadata
  have tagged : ∀ text, Text.dropStart? composerTag (composerTag ++ text) = some text := fun _ =>
    Text.dropStart?_eq_some_iff.mpr rfl
  have other : ∀ text, Text.dropStart? composerTag (titleTag ++ text) = none := fun _ => rfl
  cases title <;> cases composer <;>
    simp [firstTagged?, Metadata.texts, fromMidiText_toMidiText, tagged, other]

/-- **Scores in songs.** The song of a score is read as its keys in their order, with the same title
and composer. -/
theorem ofSong_played (touch : Touch) (score : Score)
    (increasing : ∀ hand,
      ((List.range (score.voice hand).length).map clock.start).Pairwise (· < ·)) :
    Score.ofSong ⟨(playedPart? clock touch score .upper).toList ++
        (playedPart? clock touch score .lower).toList, score.metadata.texts⟩ =
      ⟨score.upper.map Note.carried, score.lower.map Note.carried, score.metadata⟩ := by
  simp only [Score.ofSong, partFor?_playedPart?, voiceNotes_playedPart? touch score _ (increasing _),
    firstTagged?_titleTag, firstTagged?_composerTag, Score.voice]

end Reading

/-! ## Exports -/

namespace ExportSettings

variable {settings : ExportSettings}

theorem inMidi_of_song [MidiLibrary] {score : Score} {begun : Amount × Song Binary64}
    (found : settings.song score = .ok begun) :
    ∀ hand, ∀ note ∈ score.voice hand, note.InMidi := by
  obtain ⟨-, -, found⟩ := bind_eq_ok_iff.mp found
  obtain ⟨seconds, -, found⟩ := bind_eq_ok_iff.mp found
  obtain ⟨song, songFound, -⟩ := bind_eq_ok_iff.mp found
  exact inMidi_of_toSong songFound

section Library

variable [MidiLibrary] (usable : settings.Usable) (taken : settings.Taken)
include usable taken

/-- Only the song of the score over the clock can be refused. -/
theorem Usable.song_eq :
    ∃ seconds, settings.noteSeconds = .ok seconds ∧
      MakesAll MidiLibrary.makeNote (clockOf seconds) settings.touch.velocity ∧
      ∀ score : Score, settings.song score =
        (score.toSong MidiLibrary.makeNote (clockOf seconds) settings.touch).map fun song =>
          (settings.tempo, song) := by
  obtain ⟨seconds, secondsFound⟩ := usable.exists_seconds
  refine ⟨seconds, secondsFound, taken.makes seconds secondsFound, fun score => ?_⟩
  rw [song, taken.begins, secondsFound]
  change (score.toSong MidiLibrary.makeNote (clockOf seconds) settings.touch >>= _) = _
  cases score.toSong MidiLibrary.makeNote (clockOf seconds) settings.touch <;> rfl

/-- **Exports.** With usable settings, and a library that takes the export, it is refused exactly
when a key lies outside of those that a MIDI file can hold. Then the refusal names the first such
note, the upper voice before the lower one, by its place in its voice. Otherwise there is a song,
and when the notes start one after the other, it is read as the same keys in the same order, named
after the keys, with the same title and composer. -/
theorem export_of_usable (score : Score) :
    ((∃ failure, settings.song score = .error failure) ↔
        ∃ hand, ∃ note ∈ score.voice hand, ¬(0 ≤ note.key ∧ note.key ≤ 127)) ∧
      (∀ failure, settings.song score = .error failure →
        ∃ hand before note, score.FirstOutside hand before note ∧ failure =
          .rejected (.keyOutsideMidi hand (before.length + 1) note.label note.key)) ∧
      ∀ tempo song, settings.song score = .ok (tempo, song) →
        ∃ seconds, settings.noteSeconds = .ok seconds ∧
          ((∀ hand, ((List.range (score.voice hand).length).map
              (clockOf seconds).start).Pairwise (· < ·)) →
            Score.ofSong song = ⟨score.upper.map fun note => ⟨note.key, keyName note.key, none⟩,
              score.lower.map fun note => ⟨note.key, keyName note.key, none⟩, score.metadata⟩) := by
  obtain ⟨seconds, secondsFound, makes, songEq⟩ := usable.song_eq taken
  by_cases outside : ∃ hand, ∃ note ∈ score.voice hand, ¬note.InMidi
  · obtain ⟨hand, before, note, first⟩ := Score.exists_firstOutside outside
    have refused : settings.song score =
        .error (.rejected (.keyOutsideMidi hand (before.length + 1) note.label note.key)) := by
      rw [songEq, toSong_of_firstOutside makes first]
      rfl
    refine ⟨⟨fun _ => outside, fun _ => ⟨_, refused⟩⟩, fun failure failed => ?_, ?_⟩
    · rw [refused] at failed
      exact ⟨hand, before, note, first, (Except.error.inj failed).symm⟩
    · intro tempo song found
      rw [refused] at found
      cases found
  · have inMidi : ∀ hand, ∀ note ∈ score.voice hand, note.InMidi := by
      simpa only [not_exists, not_and, Classical.not_not] using outside
    have written := songEq score
    rw [toSong_of_inMidi makes inMidi] at written
    have noFailure : ¬∃ failure, settings.song score = .error failure := by
      rintro ⟨failure, failed⟩
      cases written.symm.trans failed
    refine ⟨⟨fun failed => absurd failed noFailure, fun found => absurd found outside⟩,
      fun failure failed => absurd ⟨failure, failed⟩ noFailure, ?_⟩
    intro tempo song found
    cases written.symm.trans found
    exact ⟨seconds, secondsFound, ofSong_played settings.touch score⟩

end Library

theorem usable_standard : standard.Usable where
  tempo_positive := (by decide +kernel : Binary64.zero < .ofInt 120)
  tempo_inRange := ⟨_, rfl⟩
  beats_inRange := ⟨_, rfl⟩

theorem taken_standard : standard.Taken :=
  taken_bundled usable_standard.tempo_positive (@Binary64.nonNegative_ofInt 1 (by decide)) ⟨_, rfl⟩

/-- With the bundled library and standard settings, a title that begins like a tag, a repeated key
and an empty voice come back, and the first of two keys that are too high is named. -/
theorem export_of_usable_standard :
    let score : Score := ⟨[], [⟨61, "Db".toList, some "des".toList⟩, ⟨61, "Db".toList, none⟩],
      ⟨some "title:\u00e9".toList, some []⟩⟩
    let high : Score := ⟨[⟨0, [], none⟩, ⟨128, "G#".toList, some []⟩, ⟨129, [], none⟩], [],
      ⟨none, none⟩⟩
    standard.Usable ∧ standard.Taken ∧
      (∃ tempo song, standard.song score = .ok (tempo, song) ∧ Score.ofSong song =
        ⟨[], [⟨61, "C#".toList, none⟩, ⟨61, "C#".toList, none⟩], score.metadata⟩) ∧
      ∃ failure, standard.song high = .error failure ∧
        ∃ hand before note, high.FirstOutside hand before note ∧ failure =
          .rejected (.keyOutsideMidi hand (before.length + 1) note.label note.key) := by
  intro score high
  have seconds : standard.noteSeconds = .ok (.finite false (powerOfTwo 1073)) :=
    toOption_eq_some_iff.mp (by decide +kernel)
  have inMidi : ¬∃ hand, ∃ note ∈ score.voice hand, ¬(0 ≤ note.key ∧ note.key ≤ 127) := by
    rintro ⟨hand, note, member, outside⟩
    cases hand <;> simp [score, Score.voice] at member
    rcases member with rfl | rfl <;> exact outside (by decide)
  have exported := export_of_usable usable_standard taken_standard
  refine ⟨usable_standard, taken_standard, ?_, ?_⟩
  · cases found : standard.song score with
    | error failure => exact absurd ((exported score).1.mp ⟨failure, found⟩) inMidi
    | ok result =>
        obtain ⟨tempo, song⟩ := result
        obtain ⟨length, same, read⟩ := (exported score).2.2 tempo song found
        obtain rfl := Except.ok.inj (seconds.symm.trans same)
        refine ⟨tempo, song, rfl, read fun hand => ?_⟩
        cases hand <;> decide +kernel
  · obtain ⟨failure, failed⟩ := (exported high).1.mpr
      ⟨.upper, ⟨128, "G#".toList, some []⟩, by simp [high, Score.voice], by decide⟩
    exact ⟨failure, failed, (exported high).2.1 failure failed⟩

/-! ### Notes that are too long -/

/-- The bundled library without its checks. -/
@[reducible] def plainLibrary : MidiLibrary :=
  { bundledLibrary with beginSong := fun _ => .ok (), makeNote := fun _ => .ok () }

theorem isPlain_plainLibrary : @MidiLibrary.IsPlain plainLibrary :=
  @MidiLibrary.IsPlain.mk plainLibrary (fun _ => rfl) fun _ => rfl

/-- Where the length of a note cannot be reckoned, a library that takes the export gets no note. -/
theorem song_of_noteSeconds [MidiLibrary] (taken : settings.Taken) {fault : Fault}
    (stopped : settings.noteSeconds = .error fault) (score : Score) :
    settings.song score = .error (.faulted fault) := by
  rw [song, taken.begins, stopped]
  rfl

/-- A positive tempo alone is not enough, even for a plain container. With a whole number of beats
that is too large for a binary64 number the export stops before all notes, and a key that is too
high is not refused. -/
theorem not_refused_of_positive_tempo :
    ¬∀ [MidiLibrary] (settings : ExportSettings) (score : Score), MidiLibrary.IsPlain →
      settings.tempo.IsPositive →
      (∃ hand, ∃ note ∈ score.voice hand, ¬(0 ≤ note.key ∧ note.key ≤ 127)) →
      ∃ rejection, settings.song score = .error (.rejected rejection) := by
  intro refused
  have large : Binary64.ofInt (10 ^ 400) = .infinite false := by decide +kernel
  have stopped : noteSeconds ⟨.real (.ofInt 120), .whole (10 ^ 400), ⟨80, 0⟩⟩ = .error .overflow := by
    rw [noteSeconds, Amount.toBinary64_whole, large]
    rfl
  obtain ⟨rejection, found⟩ := @refused plainLibrary
    ⟨.real (.ofInt 120), .whole (10 ^ 400), ⟨80, 0⟩⟩ ⟨[⟨200, ['X'], none⟩], [], ⟨none, none⟩⟩
    isPlain_plainLibrary usable_standard.tempo_positive
    ⟨.upper, ⟨200, ['X'], none⟩, List.mem_cons_self, by decide⟩
  have taken := @MidiLibrary.IsPlain.taken plainLibrary isPlain_plainLibrary
  cases found.symm.trans (@song_of_noteSeconds _ plainLibrary (taken _) _ stopped _)

end ExportSettings

end Clavier
