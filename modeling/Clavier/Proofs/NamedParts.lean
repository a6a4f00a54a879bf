import Clavier.Midi.Import
import Mathlib.Data.List.Basic
import Mathlib.Order.Lattice
import Mathlib.Order.Nat

/-!
# Voices of named parts

A song in which some part bears the name of a voice has the voices of its named parts. The notes
of a part are put in the order of their starts and keys (`Part.carries_voiceNotes`). Several parts
may bear one name, since capitals and blanks do not count and a file can hold a name twice. Then
the voice carries the notes of the last of them (`Song.partFor?_of_named`), and all notes under
the name only if the parts before have none (`voice_of_namedParts`).
-/

set_option autoImplicit false

namespace Clavier

variable {Time : Type}

/-! ## Parts of one name -/

/-- The melodic parts that bear the name of a hand's voice, in their order. -/
def Song.namedParts (song : Song Time) (hand : Hand) : List (Part Time) :=
  (song.parts.filter fun part => !part.drum).filter (·.isNamedFor hand)

/-- With a named part, the last part of its name fills a voice. -/
theorem Song.partFor?_of_named {song : Song Time} (named : ∃ hand, song.namedParts hand ≠ [])
    (hand : Hand) :
    partFor? (song.parts.filter fun part => !part.drum) hand =
      (song.namedParts hand).getLast? := by
  have someNamed : (Hand.all.any fun named =>
      (song.parts.filter fun part => !part.drum).any (·.isNamedFor named)) = true := by
    obtain ⟨other, found⟩ := named
    obtain ⟨part, member⟩ := List.exists_mem_of_ne_nil _ found
    obtain ⟨melodic, bears⟩ := List.mem_filter.mp member
    exact List.any_eq_true.mpr ⟨other, by cases other <;> decide,
      List.any_eq_true.mpr ⟨part, melodic, bears⟩⟩
  rw [partFor?.eq_def, if_pos someNamed, namedParts, List.findRev?_eq_find?_reverse,
    ← List.head?_filter, List.filter_reverse, List.head?_reverse]

/-! ## Notes in their order -/

variable [LinearOrder Time]

/-- A note starts before another one, or at the same time and is not higher. -/
def TimedNote.InOrder (first second : TimedNote Time) : Prop :=
  first.start < second.start ∨ first.start = second.start ∧ first.key ≤ second.key

theorem TimedNote.precedes_iff {first second : TimedNote Time} :
    first.precedes second = true ↔ first.InOrder second := by
  rw [precedes, InOrder, Bool.or_eq_true, Bool.and_eq_true, Bool.not_eq_true', decide_eq_true_iff,
    decide_eq_false_iff_not, decide_eq_true_iff, not_lt]
  constructor
  · rintro (earlier | ⟨notLater, notHigher⟩)
    · exact .inl earlier
    · rcases lt_or_eq_of_le notLater with earlier | same
      · exact .inl earlier
      · exact .inr ⟨same, notHigher⟩
  · rintro (earlier | ⟨same, notHigher⟩)
    · exact .inl earlier
    · exact .inr ⟨same.le, notHigher⟩

theorem TimedNote.InOrder.trans {first second third : TimedNote Time}
    (before : first.InOrder second) (after : second.InOrder third) : first.InOrder third := by
  rcases before with earlier | ⟨same, notHigher⟩ <;> rcases after with later | ⟨still, notLower⟩
  · exact .inl (earlier.trans later)
  · exact .inl (still ▸ earlier)
  · exact .inl (same ▸ later)
  · exact .inr ⟨same.trans still, Int.le_trans notHigher notLower⟩

theorem TimedNote.inOrder_total (first second : TimedNote Time) :
    first.InOrder second ∨ second.InOrder first := by
  rcases lt_trichotomy first.start second.start with earlier | same | later
  · exact .inl (.inl earlier)
  · rcases Int.le_total first.key second.key with notHigher | notLower
    · exact .inl (.inr ⟨same, notHigher⟩)
    · exact .inr (.inr ⟨same.symm, notLower⟩)
  · exact .inr (.inl later)

/-- A voice holds exactly some timed notes: their keys and names, in the order of their starts and
keys. -/
def Carries (voice : List Note) (notes : List (TimedNote Time)) : Prop :=
  ∃ row : List (TimedNote Time), row.Perm notes ∧ row.Pairwise TimedNote.InOrder ∧
    voice = row.map fun note => ⟨note.key, keyName note.key, none⟩

theorem Carries.length_eq {voice : List Note} {notes : List (TimedNote Time)}
    (carries : Carries voice notes) : voice.length = notes.length := by
  obtain ⟨row, permuted, -, rfl⟩ := carries
  rw [List.length_map, permuted.length_eq]

/-- The voice that a part fills carries the notes of the part. -/
theorem Part.carries_voiceNotes (part : Part Time) : Carries part.voiceNotes part.notes := by
  refine ⟨part.notes.mergeSort TimedNote.precedes, List.mergeSort_perm _ _, ?_, rfl⟩
  have sorted := @List.pairwise_mergeSort (TimedNote Time) TimedNote.precedes
    (fun first second third before after => TimedNote.precedes_iff.mpr
      ((TimedNote.precedes_iff.mp before).trans (TimedNote.precedes_iff.mp after)))
    (fun first second => (Bool.or_eq_true _ _).mpr
      ((TimedNote.inOrder_total first second).imp TimedNote.precedes_iff.mpr
        TimedNote.precedes_iff.mpr))
    part.notes
  exact sorted.imp TimedNote.precedes_iff.mp

/-! ## Voices -/

variable {song : Song Time}

/-- With a named part, a voice carries the notes of the last part of its name. -/
theorem Song.carries_lastNamed (named : ∃ hand, song.namedParts hand ≠ []) (hand : Hand) :
    Carries ((Score.ofSong song).voice hand)
      (((song.namedParts hand).getLast?.map Part.notes).getD []) := by
  have voice : (Score.ofSong song).voice hand =
      ((song.namedParts hand).getLast?.map Part.voiceNotes).getD [] := by
    rw [← Song.partFor?_of_named named hand]
    cases hand <;> rfl
  rw [voice]
  cases (song.namedParts hand).getLast? with
  | none => exact ⟨[], .nil, .nil, rfl⟩
  | some part => exact part.carries_voiceNotes

/-- **Voices of named parts.** If some melodic part bears the name of a voice, then either voice
carries the notes of the last melodic part of its name, and none if there is no such part. It
carries the notes of all melodic parts of its name exactly if those before the last one have no
notes. -/
theorem voice_of_namedParts (named : ∃ hand, song.namedParts hand ≠ []) (hand : Hand) :
    Carries ((Score.ofSong song).voice hand)
        (((song.namedParts hand).getLast?.map Part.notes).getD []) ∧
      (Carries ((Score.ofSong song).voice hand) ((song.namedParts hand).flatMap Part.notes) ↔
        ∀ part ∈ (song.namedParts hand).dropLast, part.notes = []) := by
  have lastOnly := Song.carries_lastNamed named hand
  refine ⟨lastOnly, ?_⟩
  rcases (song.namedParts hand).eq_nil_or_concat with empty | ⟨before, last, found⟩
  · rw [empty] at lastOnly ⊢
    exact ⟨fun _ _ member => absurd member List.not_mem_nil, fun _ => lastOnly⟩
  · rw [found, List.concat_eq_append, List.getLast?_concat] at lastOnly
    rw [found, List.concat_eq_append, List.dropLast_concat, List.flatMap_append,
      List.flatMap_singleton]
    constructor
    · -- the notes of the last part already take every place in the voice
      intro carries
      have counted := carries.length_eq.symm.trans lastOnly.length_eq
      rw [Option.map_some, Option.getD_some, List.length_append, Nat.add_eq_right,
        List.length_eq_zero_iff] at counted
      exact List.flatMap_eq_nil_iff.mp counted
    · intro silent
      rw [List.flatMap_eq_nil_iff.mpr silent]
      exact lastOnly

/-- A song with two melodic parts and a drum part that are named for the right hand. -/
def twiceNamed : Song Nat :=
  ⟨[⟨" Upper".toList, 0, false, [⟨60, 64, 0, 1⟩]⟩, ⟨"upper".toList, 0, true, [⟨36, 64, 0, 1⟩]⟩,
    ⟨"upper".toList, 8, false, [⟨62, 64, 1, 2⟩, ⟨61, 64, 0, 1⟩]⟩], []⟩

theorem voice_of_twiceNamed : (∃ hand, twiceNamed.namedParts hand ≠ []) ∧
    Carries (Score.ofSong twiceNamed).upper [⟨62, 64, 1, 2⟩, ⟨61, 64, 0, 1⟩] ∧
      ¬Carries (Score.ofSong twiceNamed).upper
        [⟨60, 64, 0, 1⟩, ⟨62, 64, 1, 2⟩, ⟨61, 64, 0, 1⟩] := by
  have named : ∃ hand, twiceNamed.namedParts hand ≠ [] := ⟨.upper, by decide⟩
  obtain ⟨last, all⟩ := voice_of_namedParts named .upper
  exact ⟨named, last, fun carries => absurd (all.mp carries) (by decide)⟩

/-- Named parts do not all come into their voices. -/
theorem not_forall_carries_namedParts :
    ¬∀ song : Song Nat, (∃ hand, song.namedParts hand ≠ []) → ∀ hand,
      Carries ((Score.ofSong song).voice hand) ((song.namedParts hand).flatMap Part.notes) := by
  intro carries
  have named : ∃ hand, twiceNamed.namedParts hand ≠ [] := ⟨.upper, by decide⟩
  have counted := (carries twiceNamed named .upper).length_eq
  rw [(Song.carries_lastNamed named .upper).length_eq] at counted
  exact absurd counted (by decide)

end Clavier
