import Clavier.Proofs.NamedParts
import Mathlib.Data.List.Forall2
import Mathlib.Data.Prod.Lex

/-!
# Reordered songs

The notes of a part may stand in any order. Notes of one start and one key can still differ in
their velocity and their end, and sorting leaves them as they come, but a voice keeps neither. The
starts and keys of a row in order are known from its notes, ties or not (`map_place_eq`), so the
voice that carries some notes is unique (`Carries.unique`).

Which part fills a voice depends on names and places only (`Song.Fills`), so the parts that fill
the voices of a reordered song are the reordered ones (`Song.Reordered.exists_fills`) and the
score stays the same (`ofSong_reordered`).
-/

set_option autoImplicit false

namespace Clavier

variable {Time : Type}

/-! ## Songs that differ in the order of notes -/

/-- A part that differs from another one only in the order of its notes. -/
structure Part.Reordered (part other : Part Time) : Prop where
  name : other.name = part.name
  program : other.program = part.program
  drum : other.drum = part.drum
  notes : part.notes.Perm other.notes

/-- A song that differs from another one only in the order of the notes of its parts. -/
structure Song.Reordered (song other : Song Time) : Prop where
  parts : List.Forall₂ Part.Reordered song.parts other.parts
  texts : other.texts = song.texts

theorem Part.Reordered.symm {part other : Part Time} (reordered : part.Reordered other) :
    other.Reordered part :=
  ⟨reordered.name.symm, reordered.program.symm, reordered.drum.symm, reordered.notes.symm⟩

theorem Song.Reordered.symm {song other : Song Time} (reordered : song.Reordered other) :
    other.Reordered song :=
  ⟨reordered.parts.flip.imp fun _ _ => Part.Reordered.symm, reordered.texts.symm⟩

/-! ## Parts that fill voices -/

/-- The place of a hand among parts without names. -/
def Hand.place : Hand → Nat
  | .upper => 0
  | .lower => 1

/-- The parts of a song that are no drum parts, in their order. -/
def Song.melodicParts (song : Song Time) : List (Part Time) :=
  song.parts.filter fun part => !part.drum

/-- The part that fills the voice of a hand: the last melodic part of its name, or, if no melodic
part bears the name of a voice, the melodic part at the place of the hand. -/
inductive Song.Fills (song : Song Time) (hand : Hand) (part : Part Time) : Prop where
  | named (last : (song.namedParts hand).getLast? = some part)
  | placed (unnamed : ∀ other, song.namedParts other = [])
      (found : song.melodicParts[hand.place]? = some part)

/-- Without a named part, the place of a hand decides which part fills its voice. -/
theorem Song.partFor?_of_unnamed {song : Song Time} (unnamed : ∀ other, song.namedParts other = [])
    (hand : Hand) : partFor? song.melodicParts hand = song.melodicParts[hand.place]? := by
  have noneNamed : (Hand.all.any fun named =>
      song.melodicParts.any (·.isNamedFor named)) = false := by
    refine List.any_eq_false.mpr fun other _ => ?_
    rw [List.any_eq_true]
    rintro ⟨part, melodic, bears⟩
    exact List.filter_eq_nil_iff.mp (unnamed other) part melodic bears
  rw [partFor?.eq_def, noneNamed]
  cases hand <;> rfl

theorem Song.fills_iff {song : Song Time} {hand : Hand} {part : Part Time} :
    song.Fills hand part ↔ partFor? song.melodicParts hand = some part := by
  by_cases named : ∃ other, song.namedParts other ≠ []
  · rw [melodicParts, partFor?_of_named named]
    refine ⟨fun fills => ?_, .named⟩
    cases fills with
    | named last => exact last
    | placed unnamed _ =>
        obtain ⟨other, bears⟩ := named
        exact absurd (unnamed other) bears
  · have unnamed : ∀ other, song.namedParts other = [] := by simpa using named
    rw [partFor?_of_unnamed unnamed]
    refine ⟨fun fills => ?_, .placed unnamed⟩
    cases fills with
    | named last =>
        rw [unnamed hand] at last
        cases last
    | placed _ found => exact found

section Rows

variable {α : Type} {related : α → α → Prop} {first second : List α}

theorem exists_getElem?_of_forall₂ (rows : List.Forall₂ related first second) {place : Nat}
    {item : α} (found : first[place]? = some item) :
    ∃ other, second[place]? = some other ∧ related item other := by
  induction rows generalizing place with
  | nil => cases found
  | cons here later ih =>
      cases place with
      | zero => exact ⟨_, rfl, Option.some.inj found ▸ here⟩
      | succ place => exact ih found

theorem exists_getLast?_of_forall₂ (rows : List.Forall₂ related first second) {item : α}
    (last : first.getLast? = some item) :
    ∃ other, second.getLast? = some other ∧ related item other := by
  rw [List.getLast?_eq_getElem?] at last ⊢
  rw [← rows.length_eq]
  exact exists_getElem?_of_forall₂ rows last

end Rows

namespace Song.Reordered

variable {song other : Song Time}

theorem melodicParts (reordered : song.Reordered other) :
    List.Forall₂ Part.Reordered song.melodicParts other.melodicParts :=
  List.rel_filter (fun _ _ parts => by simp only [parts.drum]) reordered.parts

theorem namedParts (reordered : song.Reordered other) (hand : Hand) :
    List.Forall₂ Part.Reordered (song.namedParts hand) (other.namedParts hand) :=
  List.rel_filter (fun _ _ parts => by simp only [Part.isNamedFor, parts.name])
    reordered.melodicParts

/-- The parts that fill a voice of reordered songs are reordered. -/
theorem exists_fills (reordered : song.Reordered other) {hand : Hand} {part : Part Time}
    (fills : song.Fills hand part) : ∃ counterpart, other.Fills hand counterpart ∧
      part.Reordered counterpart := by
  cases fills with
  | named last =>
      obtain ⟨counterpart, found, parts⟩ :=
        exists_getLast?_of_forall₂ (reordered.namedParts hand) last
      exact ⟨counterpart, .named found, parts⟩
  | placed unnamed found =>
      obtain ⟨counterpart, there, parts⟩ :=
        exists_getElem?_of_forall₂ reordered.melodicParts found
      have stillUnnamed (named : Hand) : other.namedParts named = [] := by
        have rows := reordered.namedParts named
        rw [unnamed named] at rows
        exact List.forall₂_nil_left_iff.mp rows
      exact ⟨counterpart, .placed stillUnnamed there, parts⟩

end Song.Reordered

/-! ## The order of ties -/

variable [LinearOrder Time]

/-- Where a note stands in a voice: by its start, and at one start by its key. -/
def TimedNote.place (note : TimedNote Time) : Time ×ₗ Int := toLex (note.start, note.key)

theorem TimedNote.inOrder_iff {first second : TimedNote Time} :
    first.InOrder second ↔ first.place ≤ second.place := by
  rw [InOrder, place, place, Prod.Lex.toLex_le_toLex]

/-- The places of some notes in order are known from the notes, also where places are equal. -/
theorem map_place_eq {notes reordered : List (TimedNote Time)}
    (inOrder : notes.Pairwise TimedNote.InOrder)
    (stillInOrder : reordered.Pairwise TimedNote.InOrder) (permuted : notes.Perm reordered) :
    notes.map TimedNote.place = reordered.map TimedNote.place :=
  List.Perm.eq_of_pairwise (fun _ _ _ _ => le_antisymm)
    (List.pairwise_map.mpr (inOrder.imp TimedNote.inOrder_iff.mp))
    (List.pairwise_map.mpr (stillInOrder.imp TimedNote.inOrder_iff.mp)) (permuted.map _)

/-- **A voice is known** from the notes that it carries, whatever their order. -/
theorem Carries.unique {voice other : List Note} {notes reordered : List (TimedNote Time)}
    (carries : Carries voice notes) (also : Carries other reordered)
    (permuted : notes.Perm reordered) : voice = other := by
  obtain ⟨row, ofNotes, inOrder, rfl⟩ := carries
  obtain ⟨second, ofReordered, stillInOrder, rfl⟩ := also
  have places := map_place_eq inOrder stillInOrder
    (ofNotes.trans (permuted.trans ofReordered.symm))
  have notes := congrArg
    (List.map fun place => (⟨(ofLex place).2, keyName (ofLex place).2, none⟩ : Note)) places
  simpa only [List.map_map, Function.comp_def, TimedNote.place, ofLex_toLex] using notes

theorem Carries.name_eq {voice : List Note} {notes : List (TimedNote Time)}
    (carries : Carries voice notes) : ∀ note ∈ voice, note.name = keyName note.key := by
  obtain ⟨row, -, -, rfl⟩ := carries
  intro note member
  obtain ⟨timed, -, rfl⟩ := List.mem_map.mp member
  rfl

/-! ## Scores of reordered songs -/

theorem Score.eq_of_voices {first second : Score}
    (voices : ∀ hand, first.voice hand = second.voice hand)
    (metadata : first.metadata = second.metadata) : first = second := by
  obtain ⟨upper, lower, known⟩ := first
  obtain rfl : upper = second.upper := voices .upper
  obtain rfl : lower = second.lower := voices .lower
  obtain rfl : known = second.metadata := metadata
  rfl

namespace Song

variable {song other : Song Time} {hand : Hand}

theorem voice_eq (song : Song Time) (hand : Hand) : (Score.ofSong song).voice hand =
    ((partFor? song.melodicParts hand).map Part.voiceNotes).getD [] := by
  cases hand <;> rfl

/-- The voice that a part fills carries the notes of the part. -/
theorem Fills.carries {part : Part Time} (fills : song.Fills hand part) :
    Carries ((Score.ofSong song).voice hand) part.notes := by
  rw [voice_eq, fills_iff.mp fills]
  exact part.carries_voiceNotes

/-- A voice that no part fills has no notes. -/
theorem voice_of_not_fills (unfilled : ∀ part, ¬song.Fills hand part) :
    (Score.ofSong song).voice hand = [] := by
  have noPart : partFor? song.melodicParts hand = none :=
    Option.eq_none_iff_forall_ne_some.mpr fun part found => unfilled part (fills_iff.mpr found)
  rw [voice_eq, noPart]
  rfl

theorem Reordered.voice_eq (reordered : song.Reordered other) (hand : Hand) :
    (Score.ofSong other).voice hand = (Score.ofSong song).voice hand := by
  by_cases filled : ∃ part, song.Fills hand part
  · obtain ⟨part, fills⟩ := filled
    obtain ⟨counterpart, fillsOther, parts⟩ := reordered.exists_fills fills
    exact fillsOther.carries.unique fills.carries parts.notes.symm
  · have unfilled (part : Part Time) : ¬other.Fills hand part := by
      intro fills
      obtain ⟨counterpart, fillsSong, -⟩ := reordered.symm.exists_fills fills
      exact filled ⟨counterpart, fillsSong⟩
    rw [voice_of_not_fills unfilled, voice_of_not_fills fun part fills => filled ⟨part, fills⟩]

/-- Every note of a voice has the name of its key. -/
theorem name_eq_of_mem_voice : ∀ note ∈ (Score.ofSong song).voice hand,
    note.name = keyName note.key := by
  by_cases filled : ∃ part, song.Fills hand part
  · obtain ⟨part, fills⟩ := filled
    exact fills.carries.name_eq
  · rw [voice_of_not_fills fun part fills => filled ⟨part, fills⟩]
    exact fun _ member => absurd member List.not_mem_nil

end Song

/-- **Reordered songs.** A song has the same score in whatever order the notes of its parts stand.
The voice that a part fills carries exactly the notes of the part, in the order of their starts and
keys; a voice that no part fills is empty; and every note has the name of its key. -/
theorem ofSong_reordered (song : Song Time) :
    (∀ other, song.Reordered other → Score.ofSong other = Score.ofSong song) ∧
      ∀ hand,
        (∀ part, song.Fills hand part → Carries ((Score.ofSong song).voice hand) part.notes) ∧
        ((∀ part, ¬song.Fills hand part) → (Score.ofSong song).voice hand = []) ∧
        ∀ note ∈ (Score.ofSong song).voice hand, note.name = keyName note.key := by
  refine ⟨fun other reordered => ?_, fun hand => ⟨fun _ => Song.Fills.carries,
    Song.voice_of_not_fills, Song.name_eq_of_mem_voice⟩⟩
  have metadata : (Score.ofSong other).metadata = (Score.ofSong song).metadata := by
    simp only [Score.ofSong, reordered.texts]
  exact Score.eq_of_voices reordered.voice_eq metadata

/-- Two parts that bear no name of a voice. In the first one, two notes of one start and one key
differ in their velocity and their end. -/
def tiedNotes : Song Nat :=
  ⟨[⟨"Flute".toList, 73, false, [⟨64, 80, 1, 2⟩, ⟨60, 90, 0, 3⟩, ⟨60, 50, 0, 1⟩, ⟨55, 70, 1, 2⟩]⟩,
    ⟨"Bass".toList, 32, false, [⟨40, 80, 2, 3⟩, ⟨43, 80, 0, 1⟩]⟩], ["title:Duet".toList]⟩

/-- The same song with its notes in another order. -/
def tiedNotesReordered : Song Nat :=
  ⟨[⟨"Flute".toList, 73, false, [⟨60, 50, 0, 1⟩, ⟨55, 70, 1, 2⟩, ⟨60, 90, 0, 3⟩, ⟨64, 80, 1, 2⟩]⟩,
    ⟨"Bass".toList, 32, false, [⟨43, 80, 0, 1⟩, ⟨40, 80, 2, 3⟩]⟩], ["title:Duet".toList]⟩

theorem ofSong_tiedNotes :
    tiedNotes.Reordered tiedNotesReordered ∧
      Score.ofSong tiedNotesReordered = Score.ofSong tiedNotes ∧
      (Score.ofSong tiedNotes).upper =
        [⟨60, ['C'], none⟩, ⟨60, ['C'], none⟩, ⟨55, ['G'], none⟩, ⟨64, ['E'], none⟩] := by
  have reordered : tiedNotes.Reordered tiedNotesReordered :=
    ⟨.cons ⟨rfl, rfl, rfl, by decide⟩ (.cons ⟨rfl, rfl, rfl, by decide⟩ .nil), rfl⟩
  have fills : tiedNotes.Fills .upper _ := .placed (fun hand => by cases hand <;> rfl) rfl
  obtain ⟨same, voices⟩ := ofSong_reordered tiedNotes
  have inOrder : Carries
      [⟨60, ['C'], none⟩, ⟨60, ['C'], none⟩, ⟨55, ['G'], none⟩, ⟨64, ['E'], none⟩]
      ([⟨64, 80, 1, 2⟩, ⟨60, 90, 0, 3⟩, ⟨60, 50, 0, 1⟩, ⟨55, 70, 1, 2⟩] : List (TimedNote Nat)) :=
    ⟨[⟨60, 50, 0, 1⟩, ⟨60, 90, 0, 3⟩, ⟨55, 70, 1, 2⟩, ⟨64, 80, 1, 2⟩], by decide,
      by simp [TimedNote.InOrder], rfl⟩
  exact ⟨reordered, same _ reordered, ((voices .upper).1 _ fills).unique inOrder (.refl _)⟩

end Clavier
