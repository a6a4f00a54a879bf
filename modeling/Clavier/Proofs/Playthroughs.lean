import Clavier.Proofs.Positions

/-!
# Playing through

A performance from a position plays the notes of that position and of all later ones, both hands
at each position in either order (`performance`). Whoever goes to a position and performs from
there is right with every press, scores every note from there on, and completes the exercise with
the last press and no earlier one (`performance_completes`).

What carries the argument is the list of keys that the current position still waits for
(`pending`). The hand that a press counts for may differ from the hand that plays it, where both
wait for one key; but in any case exactly that key leaves the list (`pending_perm_credit`), and the
position is left when the list is empty (`ahead_advance`). So whatever is left of a performance
always begins with the pending keys in some order (`Ahead`), before and after every press
(`Ahead.press`).
-/

set_option autoImplicit false

namespace Clavier

/-- The hands in the order in which they play when one of them leads. -/
def Hand.leading : Hand → List Hand
  | .upper => [.upper, .lower]
  | .lower => [.lower, .upper]

theorem Hand.leading_perm (lead : Hand) : lead.leading.Perm Hand.all := by
  cases lead with
  | upper => exact .refl _
  | lower => exact .swap _ _ _

namespace Exercise

/-! ## Performances -/

/-- The keys of the notes that two voices have at a position, in the order in which the hands
play. -/
def keysAt (voice : Hand → List Note) (lead : Hand) (position : Nat) : List Int :=
  lead.leading.filterMap fun hand => (voice hand)[position]?.map Note.key

/-- The keys of two voices from a position to the end, with a leading hand for each position. -/
def performance (voice : Hand → List Note) (leads : Nat → Hand) (position : Nat) : List Int :=
  (List.range' position (max (voice .upper).length (voice .lower).length - position)).flatMap
    fun here => keysAt voice (leads here) here

section Performances

variable (voice : Hand → List Note) (leads : Nat → Hand) {position : Nat}

theorem performance_of_lt (inside : position < max (voice .upper).length (voice .lower).length) :
    performance voice leads position =
      keysAt voice (leads position) position ++ performance voice leads (position + 1) := by
  have positions : max (voice .upper).length (voice .lower).length - position =
      max (voice .upper).length (voice .lower).length - (position + 1) + 1 := by omega
  rw [performance, positions, List.range'_succ, List.flatMap_cons]
  rfl

theorem performance_of_le (ended : max (voice .upper).length (voice .lower).length ≤ position) :
    performance voice leads position = [] := by
  rw [performance, Nat.sub_eq_zero_of_le ended]
  rfl

/-- The notes from a position on are those of the position and those from the next one on. -/
theorem length_keysAt (lead : Hand) (position : Nat) :
    (keysAt voice lead position).length + ((voice .upper).drop (position + 1)).length +
        ((voice .lower).drop (position + 1)).length =
      ((voice .upper).drop position).length + ((voice .lower).drop position).length := by
  have order := (lead.leading_perm.filterMap
    fun hand => (voice hand)[position]?.map Note.key).length_eq
  rw [keysAt, order]
  by_cases upper : position < (voice .upper).length <;>
    by_cases lower : position < (voice .lower).length <;>
      simp [Hand.all, upper, lower] <;> omega

/-- A performance has one key for each note from its position on. -/
theorem length_performance (position : Nat) :
    (performance voice leads position).length =
      ((voice .upper).drop position).length + ((voice .lower).drop position).length := by
  by_cases inside : position < max (voice .upper).length (voice .lower).length
  · have here := length_keysAt voice (leads position) position
    have later := length_performance (position + 1)
    rw [performance_of_lt voice leads inside, List.length_append]
    omega
  · rw [performance_of_le voice leads (Nat.le_of_not_lt inside)]
    simp only [List.length_nil, List.length_drop]
    omega
termination_by max (voice .upper).length (voice .lower).length - position

end Performances

/-! ## Pending keys -/

/-- The key that a hand has at the current position and has not played yet. -/
def pendingKey? (exercise : Exercise) (hand : Hand) : Option Int :=
  if exercise.played hand then none else (exercise.current? hand).map Note.key

/-- The keys that the current position still waits for. -/
def pending (exercise : Exercise) : List Int := Hand.all.filterMap exercise.pendingKey?

section Pending

variable {exercise : Exercise} {hand : Hand} {key : Int}

theorem pending_eq (exercise : Exercise) :
    exercise.pending =
      (exercise.pendingKey? .upper).toList ++ (exercise.pendingKey? .lower).toList := by
  simp only [pending, Hand.all, List.filterMap_cons, List.filterMap_nil]
  cases exercise.pendingKey? .upper <;> cases exercise.pendingKey? .lower <;> rfl

theorem pendingKey?_eq_some_iff :
    exercise.pendingKey? hand = some key ↔
      exercise.expects hand key = true ∧ exercise.played hand = false := by
  cases played : exercise.played hand <;>
    simp [pendingKey?, played, expects, Option.any_eq_true]

/-- A hand has settled a position exactly when no key of it is pending there. -/
theorem pendingKey?_eq_none_iff :
    exercise.pendingKey? hand = none ↔ exercise.settled hand = true := by
  cases played : exercise.played hand <;> simp [pendingKey?, played, settled]

theorem exists_hand_of_mem_pending (member : key ∈ exercise.pending) :
    ∃ hand, exercise.expects hand key = true ∧ exercise.played hand = false := by
  obtain ⟨hand, -, found⟩ := List.mem_filterMap.mp member
  exact ⟨hand, pendingKey?_eq_some_iff.mp found⟩

theorem pending_eq_nil_iff :
    exercise.pending = [] ↔ (exercise.settled .upper && exercise.settled .lower) = true := by
  rw [pending_eq, List.append_eq_nil_iff, Option.toList_eq_nil_iff, Option.toList_eq_nil_iff,
    pendingKey?_eq_none_iff, pendingKey?_eq_none_iff, Bool.and_eq_true]

/-- Where no hand has played, all notes of the position are pending. -/
theorem keysAt_perm_pending (cleared : ∀ hand, exercise.played hand = false) (lead : Hand) :
    (keysAt exercise.voice lead exercise.index).Perm exercise.pending := by
  have same : exercise.pendingKey? =
      fun hand => (exercise.voice hand)[exercise.index]?.map Note.key := by
    funext hand
    rw [pendingKey?, cleared hand]
    rfl
  rw [pending, same]
  exact lead.leading_perm.filterMap _

theorem pendingKey?_credit (exercise : Exercise) (hand other : Hand) :
    (exercise.credit hand).pendingKey? other =
      if other = hand then none else exercise.pendingKey? other := by
  cases hand <;> cases other <;> rfl

/-- **One key less.** When a hand is credited with a key, that key and no other stops being
pending. -/
theorem pending_perm_credit (expected : exercise.expects hand key = true)
    (fresh : exercise.played hand = false) :
    exercise.pending.Perm (key :: (exercise.credit hand).pending) := by
  have own := pendingKey?_eq_some_iff.mpr ⟨expected, fresh⟩
  rw [pending_eq, pending_eq]
  simp only [pendingKey?_credit]
  cases hand with
  | upper =>
      rw [own]
      exact .refl _
  | lower =>
      rw [own, if_neg (by decide), if_pos rfl, Option.toList_none, List.append_nil]
      exact List.perm_append_singleton key _

/-- At every position some note is pending until a hand plays. -/
theorem pending_ne_nil (cleared : ∀ hand, exercise.played hand = false)
    (inside : exercise.index < exercise.total) : exercise.pending ≠ [] := by
  obtain ⟨hand, note⟩ := exists_note_of_lt_total inside
  rw [Ne, pending_eq_nil_iff, Bool.and_eq_true]
  rintro ⟨upper, lower⟩
  have settled : exercise.settled hand = true := by
    cases hand
    · exact upper
    · exact lower
  rw [settled_iff, cleared hand] at settled
  have ended := settled.resolve_left Bool.false_ne_true
  omega

/-- **A press of a pending key** is right and counts for a hand that waits for this key. -/
theorem press_of_pending (running : exercise.complete = false) (member : key ∈ exercise.pending) :
    ∃ hand, exercise.expects hand key = true ∧ exercise.played hand = false ∧
      exercise.press key = (true, (exercise.credit hand).advance) := by
  obtain ⟨waiting, expected, fresh⟩ := exists_hand_of_mem_pending member
  have step := pressed exercise key
  generalize exercise.press key = result at step
  cases step with
  | finished complete =>
      rw [running] at complete
      cases complete
  | wrong _ unexpected =>
      rw [unexpected waiting] at expected
      cases expected
  | again _ _ repeated =>
      have none := List.find?_eq_none.mp repeated waiting (by cases waiting <;> decide)
      simp [expected, fresh] at none
  | @counts _ hand expected fresh _ => exact ⟨hand, expected, fresh, rfl⟩

end Pending

/-! ## What is left of a performance -/

/-- What is left of a performance: the pending keys in some order and the notes of all later
positions, or nothing once the exercise is complete. -/
inductive Ahead (leads : Nat → Hand) (exercise : Exercise) : List Int → Prop where
  | here {row : List Int} (running : exercise.complete = false)
      (inside : exercise.index < exercise.total) (waits : exercise.pending ≠ [])
      (order : row.Perm exercise.pending) :
      Ahead leads exercise (row ++ performance exercise.voice leads (exercise.index + 1))
  | finished (complete : exercise.complete = true) : Ahead leads exercise []

section Ahead

variable {leads : Nat → Hand} {exercise : Exercise}

/-- Something is left of a performance until the exercise is complete. -/
theorem Ahead.complete_iff {keys : List Int} (ahead : Ahead leads exercise keys) :
    exercise.complete = true ↔ keys = [] := by
  cases ahead with
  | finished complete => exact iff_of_true complete rfl
  | here running inside waits order =>
      refine iff_of_false (by rw [running]; exact Bool.false_ne_true) fun nothing => waits ?_
      rw [(List.append_eq_nil_iff.mp nothing).1] at order
      exact order.nil_eq.symm

/-- A performance starts where no hand has played. -/
theorem ahead_of_cleared (running : exercise.complete = false)
    (cleared : ∀ hand, exercise.played hand = false)
    (inside : exercise.index < exercise.total) :
    Ahead leads exercise (performance exercise.voice leads exercise.index) := by
  rw [performance_of_lt _ _ inside]
  exact .here running inside (pending_ne_nil cleared inside) (keysAt_perm_pending cleared _)

/-- Going to a position starts the performance from there. -/
theorem ahead_goTo {index : Int} {moved : Exercise} (goes : exercise.goTo? index = some moved) :
    Ahead leads moved (performance exercise.voice leads index.toNat) := by
  unfold goTo? at goes
  split at goes
  · rename_i valid
    cases goes
    refine ahead_of_cleared rfl (fun hand => by cases hand <;> rfl) ?_
    change index.toNat < exercise.total
    omega
  · cases goes

/-- **Moving on** leaves the rest of a performance as it is. -/
theorem ahead_advance {row : List Int} (running : exercise.complete = false)
    (inside : exercise.index < exercise.total) (order : row.Perm exercise.pending) :
    Ahead leads exercise.advance
      (row ++ performance exercise.voice leads (exercise.index + 1)) := by
  by_cases nothing : exercise.pending = []
  · -- The position is left, for the next one or for good.
    rw [nothing] at order
    rw [order.eq_nil, List.nil_append, advance, if_pos (pending_eq_nil_iff.mp nothing)]
    dsimp only
    split
    · rename_i next
      exact ahead_of_cleared running (fun hand => by cases hand <;> rfl) next
    · rename_i last
      rw [performance_of_le _ _ (Nat.le_of_not_lt last)]
      exact .finished rfl
  · -- The position still waits for a key.
    rw [advance, if_neg (fun settled => nothing (pending_eq_nil_iff.mpr settled))]
    exact .here running inside nothing order

/-- **One press of a performance** is right, scores one note and no error, and leaves the rest of
the performance. -/
theorem Ahead.press {key : Int} {rest : List Int} (ahead : Ahead leads exercise (key :: rest)) :
    (exercise.press key).1 = true ∧ (exercise.press key).2.score = exercise.score + 1 ∧
      (exercise.press key).2.errors = exercise.errors ∧
      Ahead leads (exercise.press key).2 rest := by
  generalize keys : key :: rest = whole at ahead
  cases ahead with
  | finished complete => cases keys
  | @here row running inside waits order =>
      cases row with
      | nil => exact absurd order.nil_eq.symm waits
      | cons first row =>
          obtain ⟨rfl, rfl⟩ := List.cons.inj keys
          -- The credited hand need not be the one that plays. It waits for the same key, so the
          -- row goes on with the pending keys of the credited exercise all the same.
          obtain ⟨hand, expected, fresh, press⟩ :=
            press_of_pending running (order.mem_iff.mp List.mem_cons_self)
          have left := (order.trans (pending_perm_credit expected fresh)).cons_inv
          rw [press]
          refine ⟨rfl, ?_, ?_, ?_⟩
          · rw [(score_advance _).1]
            cases hand <;> rfl
          · rw [(score_advance _).2]
            cases hand <;> rfl
          · have next := @ahead_advance leads (exercise.credit hand) row
            cases hand <;> exact next running inside left

/-- **The presses of a performance** are all right, each scores one note, and none is an error. -/
theorem Ahead.pressAll {keys rest : List Int} (ahead : Ahead leads exercise (keys ++ rest)) :
    (exercise.pressAll keys).1 = List.replicate keys.length true ∧
      (exercise.pressAll keys).2.score = exercise.score + keys.length ∧
      (exercise.pressAll keys).2.errors = exercise.errors ∧
      Ahead leads (exercise.pressAll keys).2 rest := by
  induction keys generalizing exercise with
  | nil => exact ⟨rfl, rfl, rfl, ahead⟩
  | cons key keys ih =>
      obtain ⟨right, score, errors, left⟩ := ahead.press
      obtain ⟨allRight, allScore, allErrors, remains⟩ := ih left
      have row : exercise.pressAll (key :: keys) =
        ((exercise.press key).1 :: ((exercise.press key).2.pressAll keys).1,
          ((exercise.press key).2.pressAll keys).2) := rfl
      rw [row]
      refine ⟨?_, ?_, ?_, remains⟩
      · rw [right, allRight, List.length_cons, List.replicate_succ]
      · rw [allScore, score, List.length_cons, Nat.add_assoc, Nat.add_comm 1]
      · rw [allErrors, errors]

end Ahead

/-- **Playing through.** Whoever goes to a position, in any state that can be reached, and plays
the notes of all positions from there on, both hands at each position in either order, is right
with every press, scores each of these notes and makes no error. The exercise is complete after
the last press and not before. -/
theorem performance_completes (upper lower : List Note) (actions : List Action)
    (leads : Nat → Hand) {position : Nat} (inside : position < max upper.length lower.length) :
    let exercise := (start upper lower).run actions
    let keys := performance exercise.voice leads position
    ∃ moved, exercise.goTo? position = some moved ∧
      (moved.pressAll keys).1 = List.replicate keys.length true ∧
      (moved.pressAll keys).2.score =
        exercise.score + ((upper.drop position).length + (lower.drop position).length) ∧
      (moved.pressAll keys).2.errors = exercise.errors ∧
      ∀ row, row <+: keys → ((moved.pressAll row).2.complete = true ↔ row = keys) := by
  intro exercise keys
  have voices : exercise.voice = (start upper lower).voice :=
    funext fun hand => run_voice (start upper lower) actions hand
  have total : exercise.total = max upper.length lower.length := total_run upper lower actions
  have valid : (0 : Int) ≤ position ∧ (position : Int) < exercise.total := by omega
  obtain ⟨moved, goes⟩ : ∃ moved, exercise.goTo? position = some moved := ⟨_, if_pos valid⟩
  have begun : Ahead leads moved (keys ++ []) := by
    rw [List.append_nil]
    exact ahead_goTo goes
  have kept := goTo?_voice goes .upper
  obtain ⟨right, score, errors, -⟩ := begun.pressAll
  refine ⟨moved, goes, right, ?_, errors.trans kept.2.2, ?_⟩
  · have length := length_performance exercise.voice leads position
    rw [score, kept.2.1, length, voices]
    rfl
  · rintro row ⟨rest, same⟩
    rw [List.append_nil, ← same] at begun
    rw [begun.pressAll.2.2.2.complete_iff, ← same, List.self_eq_append_right]

/-- A finished exercise is played once more with the lower hand leading: both hands begin on one
key, and the lower hand then has the key that the upper one ends on. -/
theorem performance_completes_unison :
    let upper : List Note := [⟨60, [], none⟩, ⟨62, [], none⟩, ⟨55, [], none⟩]
    let lower : List Note := [⟨60, [], none⟩, ⟨55, [], none⟩]
    let exercise := (start upper lower).run [.press 50, .goTo 2, .press 55]
    let keys := performance exercise.voice (fun _ => .lower) 0
    exercise.complete = true ∧ keys = [60, 60, 55, 62, 55] ∧ 0 < max upper.length lower.length ∧
      ∃ moved, exercise.goTo? (0 : Nat) = some moved ∧
        (moved.pressAll keys).1 = List.replicate keys.length true ∧
        (moved.pressAll keys).2.score =
          exercise.score + ((upper.drop 0).length + (lower.drop 0).length) ∧
        (moved.pressAll keys).2.errors = exercise.errors ∧
        ∀ row, row <+: keys → ((moved.pressAll row).2.complete = true ↔ row = keys) := by
  dsimp only
  exact ⟨by decide, by decide, by decide, performance_completes _ _ _ _ (by decide)⟩

end Exercise

end Clavier
