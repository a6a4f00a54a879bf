import Clavier.Proofs.Earned

/-!
# Where an exercise stands

After every run an exercise stands at one of its positions, or at the start if it has none, and
a complete exercise stands at the last one with no hand played. This adds to what is known of
the hands of a consistent exercise (`Placed`), and it is kept by every action (`Placed.act`), so
that no run gets stuck at a position or leaves the voices behind (`placed_run`).

A reset forgets the run before it: the exercise is a new one again, and it answers whatever
follows as a new one does (`answers_reset`).
-/

set_option autoImplicit false

namespace Clavier

namespace Exercise

/-! ## What is answered -/

/-- The answer to an action: whether a press is right, and whether there is the position to go to.
A reset has no answer. -/
def answer (exercise : Exercise) : Action → Option Bool
  | .press key => some (exercise.press key).1
  | .goTo index => some (exercise.goTo? index).isSome
  | .reset => none

/-- The answers to some actions, one after the other. -/
def answers : Exercise → List Action → List (Option Bool)
  | _, [] => []
  | exercise, action :: rest => exercise.answer action :: answers (exercise.act action) rest

theorem answers_append (exercise : Exercise) (first second : List Action) :
    exercise.answers (first ++ second) =
      exercise.answers first ++ (exercise.run first).answers second := by
  induction first generalizing exercise with
  | nil => rfl
  | cons action rest ih => exact congrArg (exercise.answer action :: ·) (ih (exercise.act action))

/-! ## Where an exercise stands -/

/-- A consistent exercise that stands at its start if it has no positions, and at its last position
with no hand played if it is complete. -/
structure Placed (exercise : Exercise) : Prop extends exercise.Consistent where
  atStart : exercise.total = 0 → exercise.index = 0
  atEnd : exercise.complete = true →
    exercise.index + 1 = exercise.total ∧ ∀ hand, exercise.played hand = false

theorem placed_start (upper lower : List Note) : (start upper lower).Placed where
  toConsistent := consistent_start upper lower
  atStart _ := rfl
  atEnd complete := by cases complete

/-- A consistent exercise that goes on at one of its positions stands where it should. -/
theorem placed_of_running {exercise : Exercise} (consistent : exercise.Consistent)
    (running : exercise.complete = false) (inside : exercise.index < exercise.total) :
    exercise.Placed where
  toConsistent := consistent
  atStart empty := by omega
  atEnd complete := by
    rw [running] at complete
    cases complete

/-- **Moving on** ends at the next position, or at the last one when there is no next. -/
theorem placed_advance {exercise : Exercise} (consistent : exercise.advance.Consistent)
    (running : exercise.complete = false) (inside : exercise.index < exercise.total) :
    exercise.advance.Placed := by
  unfold advance at consistent ⊢
  split
  · rename_i settled
    rw [if_pos settled] at consistent
    dsimp only at consistent ⊢
    split
    · rename_i next
      rw [if_pos next] at consistent
      exact placed_of_running consistent running next
    · rename_i last
      rw [if_neg last] at consistent
      refine ⟨consistent, fun empty => ?_, fun _ => ⟨?_, fun hand => by cases hand <;> rfl⟩⟩
      · change exercise.total = 0 at empty
        omega
      · change exercise.index + 1 = exercise.total
        omega
  · rename_i unsettled
    rw [if_neg unsettled] at consistent
    exact placed_of_running consistent running inside

section Steps

variable {exercise : Exercise}

theorem Placed.press (placed : exercise.Placed) (key : Int) : (exercise.press key).2.Placed := by
  have consistent := placed.toConsistent.press key
  have step := pressed exercise key
  generalize exercise.press key = result at step consistent
  cases step with
  | finished complete => exact placed
  | wrong running unexpected => exact ⟨consistent, placed.atStart, placed.atEnd⟩
  | again running expected repeated => exact placed
  | @counts running hand expected fresh credited =>
      have note := index_lt_of_expects expected
      have inside := Nat.lt_of_lt_of_le note (exercise.length_voice_le_total hand)
      apply placed_advance consistent
      · cases hand <;> exact running
      · cases hand <;> exact inside

theorem Placed.act (placed : exercise.Placed) (action : Action) : (exercise.act action).Placed := by
  cases action with
  | press key => exact placed.press key
  | reset => exact placed_start _ _
  | goTo index =>
      have consistent := placed.toConsistent.act (.goTo index)
      simp only [Exercise.act, goTo?] at consistent ⊢
      split
      · rename_i inside
        rw [if_pos inside] at consistent
        refine placed_of_running consistent rfl ?_
        change index.toNat < exercise.total
        omega
      · exact placed

/-- **Where an exercise stands** after every run. -/
theorem placed_run (upper lower : List Note) (actions : List Action) :
    ((start upper lower).run actions).Placed := by
  suffices every : ∀ exercise : Exercise, exercise.Placed → (exercise.run actions).Placed from
    every _ (placed_start upper lower)
  induction actions with
  | nil => exact fun _ placed => placed
  | cons action rest ih => exact fun exercise placed => ih _ (placed.act action)

end Steps

/-! ## Starting over -/

/-- The number of positions stays. -/
theorem total_run (upper lower : List Note) (actions : List Action) :
    ((start upper lower).run actions).total = max upper.length lower.length := by
  have upperVoice : ((start upper lower).run actions).upper = upper :=
    run_voice (start upper lower) actions .upper
  have lowerVoice : ((start upper lower).run actions).lower = lower :=
    run_voice (start upper lower) actions .lower
  rw [total, upperVoice, lowerVoice]

/-- A reset brings back the new exercise. -/
theorem reset_run (upper lower : List Note) (actions : List Action) :
    ((start upper lower).run actions).reset = start upper lower := by
  have ends := @run_of_reset upper lower (actions ++ [.reset])
    (.inr List.getLast?_concat)
  rwa [run_append] at ends

/-- What follows a reset is answered as by a new exercise. -/
theorem answers_reset (upper lower : List Note) (before later : List Action) :
    (start upper lower).answers (before ++ .reset :: later) =
      (start upper lower).answers before ++ none :: (start upper lower).answers later := by
  rw [answers_append]
  change _ ++ none :: (((start upper lower).run before).reset).answers later = _
  rw [reset_run]

/-- A hand has a note at the current position exactly where its voice goes on so far. -/
theorem isSome_current? {exercise : Exercise} {hand : Hand} :
    (exercise.current? hand).isSome = true ↔ exercise.index < (exercise.voice hand).length := by
  simp [current?]

/-- **Positions.** After every run the exercise stands at one of its positions, or at the start if
there are none. A hand that has played has a note there, and as long as there are positions
some hand with a note there has not played. A complete exercise stands at the last position and
no hand has played. A reset gives the new exercise, and what follows it is answered, and ends,
as on a new one. -/
theorem position_of_run (upper lower : List Note) (actions : List Action) :
    let exercise := (start upper lower).run actions
    let total := max upper.length lower.length
    (if total = 0 then exercise.index = 0 else exercise.index < total) ∧
      (∀ hand, exercise.played hand = true → (exercise.current? hand).isSome = true) ∧
      (0 < total →
        ∃ hand, (exercise.current? hand).isSome = true ∧ exercise.played hand = false) ∧
      (exercise.complete = true → 0 < total ∧ exercise.index = total - 1 ∧
        ∀ hand, exercise.played hand = false) ∧
      exercise.reset = start upper lower ∧
      ∀ later, (start upper lower).answers (actions ++ .reset :: later) =
          (start upper lower).answers actions ++ none :: (start upper lower).answers later ∧
        (start upper lower).run (actions ++ .reset :: later) = (start upper lower).run later := by
  intro exercise total
  have placed : exercise.Placed := placed_run upper lower actions
  have same : exercise.total = total := total_run upper lower actions
  have reset : exercise.reset = start upper lower := reset_run upper lower actions
  refine ⟨?_, ?_, ?_, ?_, reset, fun later => ⟨answers_reset upper lower actions later, ?_⟩⟩
  · split
    · rename_i empty
      exact placed.atStart (same.trans empty)
    · rename_i nonempty
      rw [← same] at nonempty ⊢
      exact placed.inside (Nat.pos_of_ne_zero nonempty)
  · intro hand played
    exact isSome_current?.mpr (placed.hasNote hand played)
  · intro nonempty
    obtain ⟨hand, fresh, note⟩ := placed.waits (same ▸ nonempty)
    exact ⟨hand, isSome_current?.mpr note, fresh⟩
  · intro complete
    obtain ⟨last, cleared⟩ := placed.atEnd complete
    exact ⟨by omega, by omega, cleared⟩
  · rw [run_append]
    change exercise.reset.run later = _
    rw [reset]

/-- The lower voice ends before the upper one: the exercise is completed from a jump to the last
position, and after a reset and one press the lower hand is still waited for. -/
theorem position_of_run_unequal :
    let upper : List Note := [⟨60, [], none⟩, ⟨62, [], none⟩]
    let lower : List Note := [⟨48, [], none⟩]
    let finished := (start upper lower).run [.press 60, .goTo 1, .goTo 2, .press 62]
    let again := (start upper lower).run [.goTo 1, .press 62, .reset, .press 60]
    (finished.complete = true ∧ finished.index = 2 - 1 ∧ ∀ hand, finished.played hand = false) ∧
      (again.played .upper = true ∧ (again.current? .upper).isSome = true) ∧
      ∃ hand, (again.current? hand).isSome = true ∧ again.played hand = false := by
  intro upper lower finished again
  have complete : finished.complete = true := by decide
  have played : again.played .upper = true := by decide
  obtain ⟨-, last, cleared⟩ := (position_of_run upper lower _).2.2.2.1 complete
  obtain ⟨-, hasNote, waits, -⟩ :=
    position_of_run upper lower [.goTo 1, .press 62, .reset, .press 60]
  exact ⟨⟨complete, last, cleared⟩, ⟨played, hasNote .upper played⟩, waits (by decide)⟩

end Exercise

end Clavier
