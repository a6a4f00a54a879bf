import Clavier.Exercise.Session

/-!
# Earned notes

What a player has earned can be read off the state of an exercise: every note before the
current position and every hand that has played there, or all notes once the exercise is
complete (`earned`). A press changes the score and what is earned by the same amount
(`Consistent.press_gain`), so they agree for as long as no other position is chosen
(`score_eq_earned`).

The argument rests on an invariant of all states that a player can reach (`Consistent`):
a hand that has played has a note at the current position, and an exercise over any notes
always waits for some hand. One press is described once, by the four things that it can do
(`Pressed`). A row of presses credits every note at most once, in the order in which the
positions are left (`Credited`, `Consistent.credits_row`).
-/

set_option autoImplicit false

namespace Clavier

namespace Exercise

/-! ## What a player does -/

/-- What a player can do. -/
inductive Action where
  | press (key : Int)
  | goTo (index : Int)
  | reset

/-- The exercise after an action. A position that does not exist is not gone to. -/
def act (exercise : Exercise) : Action → Exercise
  | .press key => (exercise.press key).2
  | .goTo index => (exercise.goTo? index).getD exercise
  | .reset => exercise.reset

/-- The exercise after some actions. -/
def run (exercise : Exercise) (actions : List Action) : Exercise := actions.foldl act exercise

@[simp] theorem run_nil (exercise : Exercise) : exercise.run [] = exercise := rfl

theorem run_append (exercise : Exercise) (first second : List Action) :
    exercise.run (first ++ second) = (exercise.run first).run second :=
  List.foldl_append

/-- The number of hands that have played at the current position. -/
def handsPlayed (exercise : Exercise) : Nat :=
  exercise.upperPlayed.toNat + exercise.lowerPlayed.toNat

/-- The notes that a player has earned. -/
def earned (exercise : Exercise) : Nat :=
  if exercise.complete then exercise.upper.length + exercise.lower.length
  else
    min exercise.index exercise.upper.length + min exercise.index exercise.lower.length +
      exercise.handsPlayed

/-! ## One press -/

/-- What a press can do to an exercise. -/
inductive Pressed (exercise : Exercise) (key : Int) : Bool × Exercise → Prop where
  /-- The exercise is complete. -/
  | finished (complete : exercise.complete = true) : Pressed exercise key (false, exercise)
  /-- No hand expects the key. -/
  | wrong (running : exercise.complete = false)
      (unexpected : ∀ hand, exercise.expects hand key = false) :
      Pressed exercise key (false, { exercise with errors := exercise.errors + 1 })
  /-- Every hand that expects the key has played it before. -/
  | again (running : exercise.complete = false) {hand : Hand}
      (expected : exercise.expects hand key = true) (repeated : exercise.credited? key = none) :
      Pressed exercise key (true, exercise)
  /-- The press counts for a hand. -/
  | counts (running : exercise.complete = false) {hand : Hand}
      (expected : exercise.expects hand key = true) (fresh : exercise.played hand = false)
      (credited : exercise.credited? key = some hand) :
      Pressed exercise key (true, (exercise.credit hand).advance)

/-- **One press** does one of the four things. -/
theorem pressed (exercise : Exercise) (key : Int) : Pressed exercise key (exercise.press key) := by
  unfold press
  split
  · rename_i complete
    exact .finished complete
  · rename_i running
    rw [Bool.not_eq_true] at running
    split
    · rename_i expected
      cases credited : exercise.credited? key with
      | some hand =>
          have found := List.find?_some credited
          simp only [Bool.and_eq_true, Bool.not_eq_true'] at found
          exact .counts running found.1 found.2 credited
      | none =>
          rcases Bool.or_eq_true_iff.mp expected with upper | lower
          · exact .again running upper credited
          · exact .again running lower credited
    · rename_i unexpected
      rw [Bool.not_eq_true, Bool.or_eq_false_iff] at unexpected
      apply Pressed.wrong running
      intro hand
      cases hand with
      | upper => exact unexpected.1
      | lower => exact unexpected.2

/-- Whoever expects a key has a note at the current position. -/
theorem index_lt_of_expects {exercise : Exercise} {hand : Hand} {key : Int}
    (expected : exercise.expects hand key = true) :
    exercise.index < (exercise.voice hand).length := by
  obtain ⟨note, found, -⟩ := (Option.any_eq_true _ _).mp expected
  exact (List.getElem?_eq_some_iff.mp found).1

theorem length_voice_le_total (exercise : Exercise) (hand : Hand) :
    (exercise.voice hand).length ≤ exercise.total := by
  cases hand with
  | upper => exact Nat.le_max_left _ _
  | lower => exact Nat.le_max_right _ _

/-- Some hand has a note at every position. -/
theorem exists_note_of_lt_total {exercise : Exercise} {position : Nat}
    (inside : position < exercise.total) : ∃ hand, position < (exercise.voice hand).length := by
  by_cases upper : position < exercise.upper.length
  · exact ⟨.upper, upper⟩
  · refine ⟨.lower, ?_⟩
    simp only [total] at inside
    simp only [voice]
    omega

theorem settled_iff {exercise : Exercise} {hand : Hand} :
    exercise.settled hand = true ↔
      exercise.played hand = true ∨ (exercise.voice hand).length ≤ exercise.index := by
  simp [settled, current?]

/-! ## States that a player can reach -/

/-- The invariant of all states that a player can reach. -/
structure Consistent (exercise : Exercise) : Prop where
  inside : 0 < exercise.total → exercise.index < exercise.total
  hasNote : ∀ hand, exercise.played hand = true →
    exercise.index < (exercise.voice hand).length
  waits : 0 < exercise.total →
    ∃ hand, exercise.played hand = false ∧ exercise.index < (exercise.voice hand).length

/-- A position that no hand has played at. -/
theorem consistent_of_cleared {exercise : Exercise}
    (inside : 0 < exercise.total → exercise.index < exercise.total)
    (cleared : ∀ hand, exercise.played hand = false) : exercise.Consistent where
  inside := inside
  hasNote hand played := by
    rw [cleared] at played
    cases played
  waits nonempty := by
    obtain ⟨hand, note⟩ := exists_note_of_lt_total (inside nonempty)
    exact ⟨hand, cleared hand, note⟩

theorem consistent_start (upper lower : List Note) : (start upper lower).Consistent :=
  consistent_of_cleared id fun hand => by cases hand <;> rfl

/-- What a settled hand has earned by the time a position is left. -/
theorem min_succ_of_settled {exercise : Exercise} {hand : Hand}
    (settled : exercise.settled hand = true)
    (hasNote : exercise.played hand = true → exercise.index < (exercise.voice hand).length) :
    min (exercise.index + 1) (exercise.voice hand).length =
      min exercise.index (exercise.voice hand).length + (exercise.played hand).toNat := by
  rw [settled_iff] at settled
  cases played : exercise.played hand with
  | true =>
      have note := hasNote played
      simp only [Bool.toNat_true]
      omega
  | false =>
      rw [played] at settled
      have ended := settled.resolve_left Bool.false_ne_true
      simp only [Bool.toNat_false]
      omega

/-- **Moving on** earns nothing: what the hands have played at a position is what lies before the
next one. -/
theorem earned_advance {exercise : Exercise} (running : exercise.complete = false)
    (hasNote : ∀ hand, exercise.played hand = true →
      exercise.index < (exercise.voice hand).length) :
    exercise.advance.earned = exercise.earned := by
  have before : exercise.earned = min exercise.index exercise.upper.length +
      min exercise.index exercise.lower.length + exercise.handsPlayed := by
    simp [earned, running]
  unfold advance
  split
  · rename_i settled
    rw [Bool.and_eq_true] at settled
    have upper := min_succ_of_settled settled.1 (hasNote .upper)
    have lower := min_succ_of_settled settled.2 (hasNote .lower)
    have both : min (exercise.index + 1) exercise.upper.length +
        min (exercise.index + 1) exercise.lower.length = exercise.earned := by
      rw [before]
      simp only [voice, played] at upper lower
      simp only [handsPlayed]
      omega
    rw [← both]
    dsimp only
    split
    · simp only [earned, running, handsPlayed, Bool.false_eq_true, if_false, Bool.toNat_false,
        Nat.add_zero]
    · rename_i last
      have upperEnd := exercise.length_voice_le_total .upper
      have lowerEnd := exercise.length_voice_le_total .lower
      simp only [voice] at upperEnd lowerEnd
      simp only [earned, if_true]
      omega
  · rfl

theorem consistent_advance {exercise : Exercise}
    (inside : 0 < exercise.total → exercise.index < exercise.total)
    (hasNote : ∀ hand, exercise.played hand = true →
      exercise.index < (exercise.voice hand).length) : exercise.advance.Consistent := by
  unfold advance
  split
  · dsimp only
    split
    · rename_i next
      exact consistent_of_cleared (fun _ => next) fun hand => by cases hand <;> rfl
    · exact consistent_of_cleared inside fun hand => by cases hand <;> rfl
  · rename_i unsettled
    refine ⟨inside, hasNote, ?_⟩
    intro _
    have open' : ∀ hand, ¬ exercise.settled hand = true →
        exercise.played hand = false ∧ exercise.index < (exercise.voice hand).length := by
      intro hand waiting
      rw [settled_iff, not_or, Bool.not_eq_true, Nat.not_le] at waiting
      exact waiting
    by_cases upper : exercise.settled .upper = true
    · have lower : ¬ exercise.settled .lower = true := fun settled =>
        unsettled (by rw [upper, settled]; rfl)
      exact ⟨.lower, open' .lower lower⟩
    · exact ⟨.upper, open' .upper upper⟩

/-! ### Crediting a hand -/

section Credit

variable {exercise : Exercise} {hand : Hand}

theorem earned_credit (running : exercise.complete = false) (fresh : exercise.played hand = false) :
    (exercise.credit hand).earned = exercise.earned + 1 := by
  cases hand <;> simp only [played] at fresh <;>
    simp only [earned, credit, running, handsPlayed, fresh, Bool.false_eq_true, if_false,
      Bool.toNat_true, Bool.toNat_false] <;> omega

theorem hasNote_credit (consistent : exercise.Consistent)
    (note : exercise.index < (exercise.voice hand).length) :
    ∀ other, (exercise.credit hand).played other = true →
      (exercise.credit hand).index < ((exercise.credit hand).voice other).length := by
  intro other played
  by_cases same : other = hand
  · subst same
    cases other <;> exact note
  · have before : exercise.played other = true := by
      cases hand <;> cases other <;> first | exact absurd rfl same | exact played
    have hasNote := consistent.hasNote other before
    cases hand <;> cases other <;> exact hasNote

theorem score_advance (exercise : Exercise) :
    exercise.advance.score = exercise.score ∧ exercise.advance.errors = exercise.errors := by
  unfold advance
  split
  · dsimp only
    split <;> exact ⟨rfl, rfl⟩
  · exact ⟨rfl, rfl⟩

end Credit

/-! ## The invariant holds -/

section Steps

variable {exercise : Exercise}

/-- A hand that is credited has a note and waits for it, so the invariant stays. -/
theorem Consistent.advance_credit (consistent : exercise.Consistent) {hand : Hand}
    (note : exercise.index < (exercise.voice hand).length) :
    (exercise.credit hand).advance.Consistent := by
  refine consistent_advance ?_ (hasNote_credit consistent note)
  intro nonempty
  cases hand <;> exact consistent.inside nonempty

theorem Consistent.press (consistent : exercise.Consistent) (key : Int) :
    (exercise.press key).2.Consistent := by
  have step := pressed exercise key
  generalize exercise.press key = result at step
  cases step with
  | finished complete => exact consistent
  | wrong running unexpected =>
      refine ⟨consistent.inside, ?_, ?_⟩
      · intro hand
        have hasNote := consistent.hasNote hand
        cases hand <;> exact hasNote
      · intro nonempty
        obtain ⟨hand, waiting⟩ := consistent.waits nonempty
        refine ⟨hand, ?_⟩
        cases hand <;> exact waiting
  | again running expected repeated => exact consistent
  | counts running expected fresh credited =>
      exact consistent.advance_credit (index_lt_of_expects expected)

theorem Consistent.act (consistent : exercise.Consistent) (action : Action) :
    (exercise.act action).Consistent := by
  cases action with
  | press key => exact consistent.press key
  | reset => exact consistent_start _ _
  | goTo index =>
      simp only [Exercise.act, goTo?]
      split
      · rename_i inside
        refine consistent_of_cleared ?_ fun hand => by cases hand <;> rfl
        intro _
        change index.toNat < exercise.total
        omega
      · exact consistent

/-- **The invariant** holds after every run. -/
theorem Consistent.run (consistent : exercise.Consistent) (actions : List Action) :
    (exercise.run actions).Consistent := by
  induction actions generalizing exercise with
  | nil => exact consistent
  | cons action rest ih => exact ih (consistent.act action)

end Steps

/-! ## What a press changes -/

/-- The note that a press counts for, as a hand and a position. -/
def creditOf? (exercise : Exercise) (key : Int) : Option (Hand × Nat) :=
  if exercise.complete then none
  else (exercise.credited? key).map fun hand => (hand, exercise.index)

section Changes

variable {exercise : Exercise}

theorem creditOf?_of_unexpected {key : Int}
    (unexpected : ∀ hand, exercise.expects hand key = false) : exercise.creditOf? key = none := by
  have missing : exercise.credited? key = none :=
    List.find?_eq_none.mpr fun hand _ => by simp [unexpected hand]
  simp [creditOf?, missing]

/-- **The gain of a press.** The score and what is earned both grow by the note that the press
counts for. -/
theorem Consistent.press_gain (consistent : exercise.Consistent) (key : Int) :
    (exercise.press key).2.score = exercise.score + (exercise.creditOf? key).toList.length ∧
      (exercise.press key).2.earned = exercise.earned + (exercise.creditOf? key).toList.length := by
  have step := pressed exercise key
  generalize exercise.press key = result at step
  cases step with
  | finished complete => simp [creditOf?, complete]
  | wrong running unexpected =>
      rw [creditOf?_of_unexpected unexpected]
      exact ⟨rfl, rfl⟩
  | again running expected repeated => simp [creditOf?, repeated]
  | @counts running hand expected fresh credited =>
      have one : (exercise.creditOf? key).toList.length = 1 := by
        simp [creditOf?, running, credited]
      have stillRunning : (exercise.credit hand).complete = false := by cases hand <;> exact running
      have note := index_lt_of_expects expected
      rw [one, (score_advance _).1, earned_advance stillRunning (hasNote_credit consistent note),
        earned_credit running fresh]
      exact ⟨by cases hand <;> rfl, rfl⟩

/-- A press is an error exactly when the exercise goes on and no hand expects the key. -/
theorem press_errors (exercise : Exercise) (key : Int) :
    (exercise.press key).2.errors = exercise.errors +
      if exercise.complete = false ∧ exercise.expects .upper key = false ∧
        exercise.expects .lower key = false then 1 else 0 := by
  have expecting : ∀ hand, exercise.expects hand key = true →
      ¬ (exercise.complete = false ∧ exercise.expects .upper key = false ∧
        exercise.expects .lower key = false) := by
    intro hand expected
    cases hand <;> simp [expected]
  have step := pressed exercise key
  generalize exercise.press key = result at step
  cases step with
  | finished complete => simp [complete]
  | wrong running unexpected => simp [running, unexpected]
  | again running expected repeated => rw [if_neg (expecting _ expected), Nat.add_zero]
  | @counts running hand expected fresh credited =>
      rw [(score_advance _).2, if_neg (expecting hand expected)]
      cases hand <;> rfl

/-- A press is right exactly when the exercise goes on and a hand expects the key. -/
theorem press_right (exercise : Exercise) (key : Int) :
    (exercise.press key).1 = true ↔
      exercise.complete = false ∧ ∃ hand, exercise.expects hand key = true := by
  have step := pressed exercise key
  generalize exercise.press key = result at step
  cases step with
  | finished complete => simp [complete]
  | wrong running unexpected => simp [unexpected]
  | again running expected repeated => exact iff_of_true rfl ⟨running, _, expected⟩
  | counts running expected fresh credited => exact iff_of_true rfl ⟨running, _, expected⟩

end Changes

/-! ## Rows of presses -/

/-- The notes that have been credited: those before the current position and those that have been
played there, or all of them once the exercise is complete. -/
def Credited (exercise : Exercise) (hand : Hand) (position : Nat) : Prop :=
  position < (exercise.voice hand).length ∧
    (exercise.complete = true ∨ position < exercise.index ∨
      position = exercise.index ∧ exercise.played hand = true)

/-- The notes that a row of presses counts for, in order. -/
def credits : Exercise → List Int → List (Hand × Nat)
  | _, [] => []
  | exercise, key :: rest =>
      (exercise.creditOf? key).toList ++ credits (exercise.press key).2 rest

section Rows

variable {exercise : Exercise}

/-- A settled hand has played every note up to the current position. -/
theorem played_of_settled {hand : Hand} {position : Nat} (settled : exercise.settled hand = true)
    (note : position < (exercise.voice hand).length) (reached : position ≤ exercise.index) :
    position < exercise.index ∨ position = exercise.index ∧ exercise.played hand = true := by
  rcases Nat.lt_or_eq_of_le reached with before | rfl
  · exact .inl before
  · rcases settled_iff.mp settled with played | ended
    · exact .inr ⟨rfl, played⟩
    · exact absurd note (Nat.not_lt.mpr ended)

/-- Moving on credits nothing. -/
theorem credited_advance (exercise : Exercise) (hand : Hand) (position : Nat) :
    exercise.advance.Credited hand position ↔ exercise.Credited hand position := by
  unfold advance
  split
  · rename_i settled
    rw [Bool.and_eq_true] at settled
    have here : exercise.settled hand = true := by
      cases hand
      · exact settled.1
      · exact settled.2
    dsimp only
    split
    · have moved : Credited { exercise with
            upperPlayed := false, lowerPlayed := false,
            index := exercise.index + 1 } hand position ↔
          position < (exercise.voice hand).length ∧
            (exercise.complete = true ∨ position < exercise.index + 1) := by
        cases hand <;> simp [Credited, voice, played]
      rw [moved]
      refine and_congr_right fun note => or_congr_right ⟨fun before => ?_, fun before => ?_⟩
      · exact played_of_settled here note (Nat.le_of_lt_succ before)
      · rcases before with before | ⟨rfl, -⟩
        · exact Nat.lt_succ_of_lt before
        · exact Nat.lt_succ_self _
    · rename_i last
      have finished : Credited { exercise with
            upperPlayed := false, lowerPlayed := false, complete := true } hand position ↔
          position < (exercise.voice hand).length := by
        cases hand <;> simp [Credited, voice]
      rw [finished]
      refine ⟨fun note => ⟨note, .inr (played_of_settled here note ?_)⟩, fun credited => credited.1⟩
      have below := exercise.length_voice_le_total hand
      omega
  · exact Iff.rfl

/-- Crediting a hand credits its note at the current position. -/
theorem credited_credit {other : Hand} (running : exercise.complete = false)
    (note : exercise.index < (exercise.voice other).length) (hand : Hand) (position : Nat) :
    (exercise.credit other).Credited hand position ↔
      exercise.Credited hand position ∨ (other, exercise.index) = (hand, position) := by
  by_cases same : position = exercise.index
  · subst same
    cases other <;> cases hand <;> simp_all [Credited, credit, voice, played]
  · have elsewhere : (other, exercise.index) ≠ (hand, position) := fun equal =>
      same (Prod.mk.inj equal).2.symm
    cases other <;> cases hand <;> simp_all [Credited, credit, voice, played]

/-- **A press credits the note that it counts for**, and nothing else. -/
theorem credited_press (exercise : Exercise) (key : Int) (hand : Hand) (position : Nat) :
    (exercise.press key).2.Credited hand position ↔
      exercise.Credited hand position ∨ exercise.creditOf? key = some (hand, position) := by
  have step := pressed exercise key
  generalize exercise.press key = result at step
  cases step with
  | finished complete => simp [creditOf?, complete]
  | wrong running unexpected =>
      rw [creditOf?_of_unexpected unexpected]
      cases hand <;> simp [Credited, voice, played]
  | again running expected repeated => simp [creditOf?, repeated]
  | counts running expected fresh credited =>
      rw [credited_advance, credited_credit running (index_lt_of_expects expected)]
      simp [creditOf?, running, credited]

/-- A press counts for no note that has been credited before. -/
theorem not_credited_of_creditOf? {key : Int} {hand : Hand} {position : Nat}
    (counted : exercise.creditOf? key = some (hand, position)) :
    ¬ exercise.Credited hand position := by
  cases running : exercise.complete with
  | true => simp [creditOf?, running] at counted
  | false =>
      simp only [creditOf?, running, Bool.false_eq_true, if_false, Option.map_eq_some_iff,
        Prod.mk.injEq] at counted
      obtain ⟨found, credited, rfl, rfl⟩ := counted
      have fresh := List.find?_some credited
      simp only [Bool.and_eq_true, Bool.not_eq_true'] at fresh
      rintro ⟨-, complete | before | ⟨-, played⟩⟩
      · rw [running] at complete
        cases complete
      · exact absurd before (Nat.lt_irrefl _)
      · rw [fresh.2] at played
        cases played

end Rows

/-- What a row of presses credits, and how. -/
structure CreditsRow (exercise : Exercise) (keys : List Int) : Prop where
  once : (exercise.credits keys).Nodup
  mem_iff : ∀ hand position, (exercise.run (keys.map .press)).Credited hand position ↔
    exercise.Credited hand position ∨ (hand, position) ∈ exercise.credits keys
  fresh : ∀ hand position, (hand, position) ∈ exercise.credits keys →
    ¬ exercise.Credited hand position
  score : (exercise.run (keys.map .press)).score = exercise.score + (exercise.credits keys).length
  earned : (exercise.run (keys.map .press)).earned =
    exercise.earned + (exercise.credits keys).length

/-- **A row of presses** credits each note at most once, and the score and what is earned both grow
by the notes that it credits. -/
theorem Consistent.credits_row {exercise : Exercise} (consistent : exercise.Consistent)
    (keys : List Int) : exercise.CreditsRow keys := by
  induction keys generalizing exercise with
  | nil => exact ⟨List.nodup_nil, by simp [credits], by simp [credits], rfl, rfl⟩
  | cons key rest ih =>
      have later := ih (consistent.press key)
      have gain := consistent.press_gain key
      have whole : exercise.credits (key :: rest) =
        (exercise.creditOf? key).toList ++ (exercise.press key).2.credits rest := rfl
      have run : exercise.run ((key :: rest).map .press) =
        (exercise.press key).2.run (rest.map .press) := rfl
      refine ⟨?_, ?_, ?_, ?_, ?_⟩
      · rw [whole, List.nodup_append]
        refine ⟨by cases exercise.creditOf? key <;> simp, later.once, ?_⟩
        rintro counted first note second rfl
        rw [Option.mem_toList] at first
        exact later.fresh counted.1 counted.2 second
          ((credited_press exercise key _ _).mpr (.inr first))
      · intro hand position
        rw [run, later.mem_iff, credited_press, whole, List.mem_append, Option.mem_toList, or_assoc]
      · intro hand position member
        rw [whole, List.mem_append, Option.mem_toList] at member
        rcases member with first | second
        · exact not_credited_of_creditOf? first
        · exact fun credited => later.fresh hand position second
            ((credited_press exercise key _ _).mpr (.inl credited))
      · rw [run, later.score, gain.1, whole, List.length_append, Nat.add_assoc]
      · rw [run, later.earned, gain.2, whole, List.length_append, Nat.add_assoc]

/-! ## Whole runs -/

section Runs

variable {exercise : Exercise}

theorem act_voice (exercise : Exercise) (action : Action) (hand : Hand) :
    (exercise.act action).voice hand = exercise.voice hand := by
  cases action with
  | press key => exact press_voice exercise key hand
  | reset => cases hand <;> rfl
  | goTo index =>
      cases moved : exercise.goTo? index with
      | none => rw [Exercise.act, moved]; rfl
      | some next =>
          rw [Exercise.act, moved]
          exact (goTo?_voice moved hand).1

theorem run_voice (exercise : Exercise) (actions : List Action) (hand : Hand) :
    (exercise.run actions).voice hand = exercise.voice hand := by
  induction actions generalizing exercise with
  | nil => rfl
  | cons action rest ih => exact (ih (exercise.act action)).trans (act_voice exercise action hand)

/-- A run that ends with a reset ends in a new exercise. -/
theorem run_of_reset {upper lower : List Note} {actions : List Action}
    (reset : actions = [] ∨ actions.getLast? = some .reset) :
    (start upper lower).run actions = start upper lower := by
  rcases reset with rfl | last
  · rfl
  · obtain ⟨before, rfl⟩ := List.getLast?_eq_some_iff.mp last
    rw [run_append]
    change start (((start upper lower).run before).voice .upper)
      (((start upper lower).run before).voice .lower) = start upper lower
    rw [run_voice, run_voice]
    rfl

theorem not_credited_start (upper lower : List Note) (hand : Hand) (position : Nat) :
    ¬ (start upper lower).Credited hand position := by
  rintro ⟨-, complete | before | ⟨-, played⟩⟩
  · cases complete
  · exact absurd before (Nat.not_lt_zero _)
  · cases hand <;> cases played

/-- Presses from the start count for the notes that are credited in the end. -/
theorem mem_credits_start (upper lower : List Note) (keys : List Int) (hand : Hand)
    (position : Nat) : (hand, position) ∈ (start upper lower).credits keys ↔
      ((start upper lower).run (keys.map .press)).Credited hand position := by
  have row := (consistent_start upper lower).credits_row keys
  rw [row.mem_iff]
  exact (or_iff_right (not_credited_start upper lower hand position)).symm

/-- Presses from the start score a point for each note that they count for. -/
theorem score_run_start (upper lower : List Note) (keys : List Int) :
    ((start upper lower).run (keys.map .press)).score =
      ((start upper lower).credits keys).length := by
  rw [((consistent_start upper lower).credits_row keys).score]
  exact Nat.zero_add _

/-- Presses from the start earn the notes that they count for. -/
theorem earned_run_start (upper lower : List Note) (keys : List Int) :
    ((start upper lower).run (keys.map .press)).earned =
      ((start upper lower).credits keys).length := by
  have nothing : (start upper lower).earned = 0 := by
    simp [earned, start, handsPlayed]
  rw [((consistent_start upper lower).credits_row keys).earned, nothing, Nat.zero_add]

/-- **Complete** means that everything has been earned. -/
theorem Consistent.complete_iff (consistent : exercise.Consistent) (nonempty : 0 < exercise.total) :
    exercise.complete = true ↔ exercise.earned = exercise.upper.length + exercise.lower.length := by
  cases complete : exercise.complete with
  | true => simp [earned, complete]
  | false =>
      have least : ∀ hand, min exercise.index (exercise.voice hand).length +
          (exercise.played hand).toNat ≤ (exercise.voice hand).length := by
        intro hand
        cases played : exercise.played hand with
        | false => exact Nat.min_le_right _ _
        | true =>
            have note := consistent.hasNote hand played
            simp only [Bool.toNat_true]
            omega
      obtain ⟨waiting, fresh, note⟩ := consistent.waits nonempty
      have short : min exercise.index (exercise.voice waiting).length +
          (exercise.played waiting).toNat < (exercise.voice waiting).length := by
        rw [fresh, Bool.toNat_false]
        omega
      have upper := least .upper
      have lower := least .lower
      simp only [Bool.false_eq_true, false_iff, earned, complete, if_false, handsPlayed]
      cases waiting <;> simp only [voice, played] at short upper lower <;> omega

end Runs

/-- **The score is what has been earned.** After every run, a press raises the score and what is
earned alike, is an error exactly when the exercise goes on without expecting it, and is right
exactly when the exercise goes on and expects it. As long as no position has been chosen since
the start or the last reset, the score is what has been earned, each note has been credited
once, and the exercise is complete exactly when the score counts all notes. -/
theorem score_eq_earned (upper lower : List Note) :
    (∀ (actions : List Action) (key : Int),
      let exercise := (start upper lower).run actions
      let result := exercise.press key
      (∃ gain ≤ 1, result.2.score = exercise.score + gain ∧
        result.2.earned = exercise.earned + gain) ∧
      (result.2.errors = exercise.errors +
        if exercise.complete = false ∧ exercise.expects .upper key = false ∧
          exercise.expects .lower key = false then 1 else 0) ∧
      (result.1 = true ↔
        exercise.complete = false ∧ ∃ hand, exercise.expects hand key = true)) ∧
    ∀ (actions : List Action) (keys : List Int),
      actions = [] ∨ actions.getLast? = some .reset →
      let exercise := (start upper lower).run (actions ++ keys.map .press)
      let credited := (start upper lower).credits keys
      exercise.score = exercise.earned ∧ exercise.score = credited.length ∧ credited.Nodup ∧
      (∀ hand position, (hand, position) ∈ credited ↔ exercise.Credited hand position) ∧
      (exercise.complete = true → ∀ hand position, position < (exercise.voice hand).length →
        credited.count (hand, position) = 1) ∧
      (0 < exercise.total →
        (exercise.complete = true ↔ exercise.score = upper.length + lower.length)) := by
  have begun := consistent_start upper lower
  constructor
  · intro actions key
    have gain := (begun.run actions).press_gain key
    refine ⟨⟨_, ?_, gain⟩, press_errors _ key, press_right _ key⟩
    exact Option.length_toList_le
  · intro actions keys reset
    dsimp only
    rw [run_append, run_of_reset reset]
    have score := score_run_start upper lower keys
    have agree := score.trans (earned_run_start upper lower keys).symm
    have members := mem_credits_start upper lower keys
    have once := (begun.credits_row keys).once
    refine ⟨agree, score, once, members, ?_, ?_⟩
    · intro complete hand position note
      rw [once.count, if_pos ((members hand position).mpr ⟨note, .inl complete⟩)]
    · intro nonempty
      have upperVoice := run_voice (start upper lower) (keys.map .press) .upper
      have lowerVoice := run_voice (start upper lower) (keys.map .press) .lower
      rw [agree, (begun.run (keys.map .press)).complete_iff nonempty]
      change _ = (voice _ .upper).length + (voice _ .lower).length ↔ _
      rw [upperVoice, lowerVoice]
      rfl

/-- Both hands begin on one key: two presses of it credit both hands, and the last note
completes the exercise. -/
theorem score_eq_earned_unison :
    let upper : List Note := [⟨60, [], none⟩, ⟨62, [], none⟩]
    let lower : List Note := [⟨60, [], none⟩]
    let exercise := (start upper lower).run ([.goTo 1, .reset] ++ [60, 60, 62].map .press)
    exercise.score = 3 ∧ exercise.score = exercise.earned ∧ exercise.complete = true ∧
      ((start upper lower).credits [60, 60, 62]).count (.lower, 0) = 1 := by
  intro upper lower exercise
  have row := (score_eq_earned upper lower).2 [.goTo 1, .reset] [60, 60, 62] (.inr rfl)
  obtain ⟨agree, -, -, -, once, complete⟩ := row
  have all : exercise.score = 3 := by decide
  have finished : exercise.complete = true := (complete (by decide)).mpr all
  exact ⟨all, agree, finished, once finished .lower 0 (by decide)⟩

end Exercise

end Clavier
