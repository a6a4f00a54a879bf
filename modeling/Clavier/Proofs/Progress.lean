import Clavier.Proofs.Positions
import Clavier.Proofs.Rounding
import Mathlib.Algebra.Order.Round
import Mathlib.Algebra.Order.Field.Basic
import Mathlib.Data.Rat.Floor
import Mathlib.Tactic.FieldSimp
import Mathlib.Tactic.Ring

/-!
# Progress

The progress of an exercise is the percentage of the positions before the current one, rounded to
the nearest whole number, halves up (`progress_eq_round`). It is determined by its two bounds
(`progress_eq_iff`), from which it is at most a hundred, and a hundred exactly when at most one
position in two hundred is left (`progress_eq_hundred_iff`).

Computed with binary64 numbers, the percentage is rounded twice on the way, once as a quotient and
once as a sum, yet the result is the same for every exercise that fits in a memory
(`truncate_eq_progress`).

So progress does not tell whether an exercise is complete. With two hundred positions a player who
has reached the last one has a progress of a hundred and goes on playing (`progress_of_run`).
-/

set_option autoImplicit false

namespace Clavier

namespace Exercise

section Percentage

variable {exercise : Exercise} (nonempty : 0 < exercise.total)
include nonempty

/-- **The bounds of progress**, in two hundredths of the positions. -/
theorem progress_eq_iff {percent : Nat} : exercise.progress = percent ↔
    2 * percent * exercise.total ≤ 200 * exercise.index + exercise.total ∧
      200 * exercise.index < (2 * percent + 1) * exercise.total := by
  have double : 0 < 2 * exercise.total := by omega
  have width : percent * (2 * exercise.total) = 2 * percent * exercise.total := by ring
  rw [progress, Nat.div_eq_iff double, width, Nat.add_mul, Nat.one_mul]
  omega

/-- Progress is the percentage rounded to the nearest whole number, halves up. -/
theorem progress_eq_round :
    (exercise.progress : ℤ) = round (100 * exercise.index / exercise.total : ℚ) := by
  have nonzero : (exercise.total : ℚ) ≠ 0 := Nat.cast_ne_zero.mpr (Nat.ne_of_gt nonempty)
  have halfUp : (100 * exercise.index / exercise.total + 1 / 2 : ℚ) =
      ((200 * exercise.index + exercise.total : ℕ) : ℚ) / ((2 * exercise.total : ℕ) : ℚ) := by
    push_cast
    field_simp
    ring
  rw [round_eq, halfUp, Rat.floor_natCast_div_natCast]
  rfl

variable (inside : exercise.index < exercise.total)
include inside

theorem progress_le_hundred : exercise.progress ≤ 100 := by
  refine Nat.le_of_lt_succ (Nat.div_lt_of_lt_mul ?_)
  omega

/-- Progress is a hundred exactly when at most one position in two hundred is left. -/
theorem progress_eq_hundred_iff : exercise.progress = 100 ↔
    200 * (exercise.total - exercise.index) ≤ exercise.total := by
  rw [progress_eq_iff nonempty]
  omega

end Percentage

end Exercise

namespace Binary64

/-! ## Results between two numbers -/

/-- The units of a number: at most 53 significant bits, and not too large. -/
def Attained (units : Nat) : Prop := Representable units ∧ units < unitsLimit

theorem attained_mul {significand exponent : Nat} (small : significand ≤ powerOfTwo 53)
    (moderate : 53 + exponent < 2098) : Attained (significand * powerOfTwo exponent) := by
  refine ⟨⟨significand, exponent, rfl, small⟩, ?_⟩
  calc significand * powerOfTwo exponent
    _ ≤ powerOfTwo 53 * powerOfTwo exponent := Nat.mul_le_mul_right _ small
    _ = powerOfTwo (53 + exponent) := (powerOfTwo_add 53 exponent).symm
    _ < powerOfTwo 2098 := powerOfTwo_lt moderate

/-- A result is between the numbers that its exact value is between. -/
theorem exists_ofUnits_between {low high numerator denominator : Nat} (positive : 0 < denominator)
    (attained : Attained low) (reached : low * denominator ≤ numerator) (attained' : Attained high)
    (le : numerator ≤ high * denominator) :
    ∃ units, ofUnits false numerator denominator = .finite false units ∧ low ≤ units ∧
      units ≤ high := by
  have above := le_roundSignificant attained.1 positive reached
  have below := roundSignificant_le_of_le attained'.1 positive le
  refine ⟨_, ?_, above, below⟩
  have finite := Nat.lt_of_le_of_lt below attained'.2
  unfold ofUnits
  generalize unitsLimit = limit at finite
  exact if_pos finite

/-- The units of a half. -/
def unitsOfHalf : Nat := powerOfTwo 1073

theorem unitsOfOne_eq : unitsOfOne = 2 * unitsOfHalf := by
  have two : powerOfTwo 1 = 2 := rfl
  rw [unitsOfOne, powerOfTwo_add 1 1073, two, unitsOfHalf]

theorem attained_mul_unitsOfHalf {count : Nat} (small : count ≤ powerOfTwo 53) :
    Attained (count * unitsOfHalf) := attained_mul small (by decide)

theorem ofFraction_one_two : ofFraction 1 2 = .finite false unitsOfHalf := by
  have half : 1 * unitsOfOne = unitsOfHalf * 2 := by rw [unitsOfOne_eq]; omega
  have attained : Attained (1 * unitsOfHalf) := attained_mul_unitsOfHalf (powerOfTwo_pos 53)
  rw [Nat.one_mul] at attained
  obtain ⟨units, same, least, most⟩ := exists_ofUnits_between Nat.two_pos attained
    (Nat.le_of_eq half.symm) attained (Nat.le_of_eq half)
  rw [Nat.le_antisymm most least] at same
  exact (ofFraction_natCast 1 2).trans same

/-! ### Numbers a little below halves -/

/-- The units of the number that is 2 ^ -46 below some halves. -/
def belowHalves (count : Nat) : Nat := (count * powerOfTwo 45 - 1) * powerOfTwo 1028

theorem unitsOfHalf_eq : unitsOfHalf = powerOfTwo 45 * powerOfTwo 1028 := powerOfTwo_add 45 1028

theorem attained_belowHalves {count : Nat} (small : count ≤ powerOfTwo 8) :
    Attained (belowHalves count) := by
  refine attained_mul (Nat.le_trans (Nat.sub_le _ 1) ?_) (by decide)
  calc count * powerOfTwo 45
    _ ≤ powerOfTwo 8 * powerOfTwo 45 := Nat.mul_le_mul_right _ small
    _ = powerOfTwo 53 := (powerOfTwo_add 8 45).symm

theorem belowHalves_succ {count : Nat} (positive : 0 < count) :
    belowHalves (count + 1) = belowHalves count + unitsOfHalf := by
  have grain := powerOfTwo_pos 45
  have some : powerOfTwo 45 ≤ count * powerOfTwo 45 := Nat.le_mul_of_pos_left _ positive
  rw [belowHalves, belowHalves, unitsOfHalf_eq, ← Nat.add_mul, Nat.succ_mul]
  congr 1
  omega

theorem belowHalves_lt {count : Nat} (positive : 0 < count) :
    belowHalves count < count * unitsOfHalf := by
  have grain : 0 < count * powerOfTwo 45 := Nat.mul_pos positive (powerOfTwo_pos 45)
  rw [unitsOfHalf_eq, ← Nat.mul_assoc]
  exact Nat.mul_lt_mul_of_pos_right (by omega) (powerOfTwo_pos 1028)

end Binary64

namespace Exercise

/-! ## Progress in binary64 numbers -/

open Binary64

section Floating

variable {exercise : Exercise} (inside : exercise.index < exercise.total)
include inside

/-- The percentage and what it is compared with are a few halves. -/
theorem halves_le : 2 * exercise.progress + 2 ≤ powerOfTwo 8 := by
  have percent := progress_le_hundred (Nat.zero_lt_of_lt inside) inside
  change _ ≤ 256
  omega

variable (fits : exercise.total ≤ powerOfTwo 45)
include fits

/-- The quotient stays on its side of the halves around it. It reaches the lower one, which is a
number; and it is below the upper one by at least a fraction with the denominator of the quotient,
which leaves room for a number between the two. -/
theorem exists_percentage : ∃ units,
    ofFraction (100 * exercise.index : Nat) exercise.total = .finite false units ∧
      (2 * exercise.progress - 1) * unitsOfHalf ≤ units ∧
      units ≤ belowHalves (2 * exercise.progress + 1) := by
  have nonempty : 0 < exercise.total := Nat.zero_lt_of_lt inside
  obtain ⟨least, most⟩ := (progress_eq_iff nonempty).mp rfl
  have few := halves_le inside
  have wide : powerOfTwo 8 ≤ powerOfTwo 53 := powerOfTwo_le (by decide)
  rw [ofFraction_natCast]
  refine exists_ofUnits_between nonempty (attained_mul_unitsOfHalf (by omega)) ?_
    (attained_belowHalves (by omega)) ?_
  · calc (2 * exercise.progress - 1) * unitsOfHalf * exercise.total
      _ = (2 * exercise.progress * exercise.total - exercise.total) * unitsOfHalf := by
          rw [Nat.mul_right_comm, Nat.sub_mul, Nat.one_mul]
      _ ≤ 200 * exercise.index * unitsOfHalf := Nat.mul_le_mul_right _ (by omega)
      _ = 100 * exercise.index * unitsOfOne := by
          rw [unitsOfOne_eq]
          ring
  · have halves : 200 * exercise.index * powerOfTwo 45 ≤
        ((2 * exercise.progress + 1) * powerOfTwo 45 - 1) * exercise.total := by
      have next : (200 * exercise.index + 1) * powerOfTwo 45 ≤
          (2 * exercise.progress + 1) * exercise.total * powerOfTwo 45 :=
        Nat.mul_le_mul_right _ most
      rw [Nat.add_mul (200 * exercise.index), Nat.one_mul] at next
      rw [Nat.sub_mul, Nat.one_mul, Nat.mul_right_comm (2 * exercise.progress + 1)]
      omega
    calc 100 * exercise.index * unitsOfOne
      _ = 200 * exercise.index * powerOfTwo 45 * powerOfTwo 1028 := by
          rw [unitsOfOne_eq, unitsOfHalf_eq]
          ring
      _ ≤ ((2 * exercise.progress + 1) * powerOfTwo 45 - 1) * exercise.total * powerOfTwo 1028 :=
          Nat.mul_le_mul_right _ halves
      _ = belowHalves (2 * exercise.progress + 1) * exercise.total := by
          rw [belowHalves, Nat.mul_right_comm]

/-- With a half added, the quotient has reached its progress and not the next whole number. -/
theorem exists_percentage_add_half : ∃ units,
    (ofFraction (100 * exercise.index : Nat) exercise.total).add (ofFraction 1 2) =
        .finite false units ∧
      exercise.progress * unitsOfOne ≤ units ∧ units < (exercise.progress + 1) * unitsOfOne := by
  obtain ⟨quotient, same, least, most⟩ := exists_percentage inside fits
  have few := halves_le inside
  have wide : powerOfTwo 8 ≤ powerOfTwo 53 := powerOfTwo_le (by decide)
  have up : belowHalves (2 * exercise.progress + 2) =
      belowHalves (2 * exercise.progress + 1) + unitsOfHalf := belowHalves_succ (Nat.succ_pos _)
  have below : belowHalves (2 * exercise.progress + 2) <
      (2 * exercise.progress + 2) * unitsOfHalf := belowHalves_lt (Nat.succ_pos _)
  have reached : 2 * exercise.progress * unitsOfHalf * 1 ≤ quotient + unitsOfHalf := by
    rw [Nat.sub_mul] at least
    omega
  obtain ⟨sum, same', least', most'⟩ := exists_ofUnits_between Nat.one_pos
    (attained_mul_unitsOfHalf (by omega)) reached (attained_belowHalves few) (by omega)
  refine ⟨sum, ?_, ?_, ?_⟩
  · rw [same, ofFraction_one_two, add_finite, same']
  · rw [unitsOfOne_eq, Nat.mul_left_comm, ← Nat.mul_assoc]
    exact least'
  · rw [unitsOfOne_eq, Nat.mul_left_comm, ← Nat.mul_assoc, Nat.mul_succ]
    exact Nat.lt_of_le_of_lt most' below

/-- **Progress in binary64 numbers.** A hundred times the positions before the current one, divided
by the number of positions, and a half added: rounded to a binary64 number both times, and then to
the whole number below, this is the progress of an exercise of at most 2 ^ 45 positions. -/
theorem truncate_eq_progress :
    ((ofFraction (100 * exercise.index : Nat) exercise.total).add (ofFraction 1 2)).truncate =
      .ok exercise.progress := by
  obtain ⟨units, same, least, most⟩ := exists_percentage_add_half inside fits
  have whole : units / unitsOfOne = exercise.progress := by
    rw [Nat.div_eq_iff unitsOfOne_pos]
    rw [Nat.add_mul, Nat.one_mul] at most
    omega
  rw [same]
  change Except.ok (signedUnits false (units / unitsOfOne)) = _
  rw [whole]
  rfl

end Floating

/-! ## Progress of a run -/

/-- **Progress** after every run is at most a hundred, and computing it with binary64 numbers gives
the same for up to 2 ^ 45 positions. While the exercise is not complete it is the percentage of the
positions before the current one, halves rounded up: a hundred when the current one and those after
it are at most a two hundredth of all, and less otherwise. With fewer than two hundred positions it
is always less. -/
theorem progress_of_run (upper lower : List Note) (actions : List Action)
    (nonempty : 0 < max upper.length lower.length) :
    let exercise := (start upper lower).run actions
    let total := max upper.length lower.length
    exercise.progress ≤ 100 ∧
      (total ≤ powerOfTwo 45 →
        ((ofFraction (100 * exercise.index : Nat) total).add (ofFraction 1 2)).truncate =
          .ok exercise.progress) ∧
      (exercise.complete = false →
        exercise.index < total ∧
        (exercise.progress : ℤ) = round (100 * exercise.index / total : ℚ) ∧
        (exercise.progress = 100 ↔ 200 * (total - exercise.index) ≤ total) ∧
        (total < 200 → exercise.progress ≤ 99)) := by
  intro exercise total
  have same : exercise.total = total := total_run upper lower actions
  have nonempty : 0 < exercise.total := same ▸ nonempty
  have inside : exercise.index < exercise.total :=
    (placed_run upper lower actions).inside nonempty
  have most := progress_le_hundred nonempty inside
  have hundred := progress_eq_hundred_iff nonempty inside
  rw [← same]
  refine ⟨most, truncate_eq_progress inside, fun _ => ⟨inside, progress_eq_round nonempty, hundred, fun short => ?_⟩⟩
  have different : exercise.progress ≠ 100 := fun full => by
    have few := hundred.mp full
    omega
  omega

/-- A wrong press at the last of two hundred positions: the quotient is 99.5. -/
theorem progress_of_run_last :
    let exercise := (start (List.replicate 200 ⟨60, [], none⟩) []).run [.goTo 199, .press 61]
    exercise.complete = false ∧ exercise.progress = 100 ∧
      ((ofFraction (100 * exercise.index : Nat) 200).add (ofFraction 1 2)).truncate = .ok 100 := by
  intro exercise
  have running : exercise.complete = false := by decide +kernel
  have result := progress_of_run (List.replicate 200 ⟨60, [], none⟩) [] [.goTo 199, .press 61]
    (by decide +kernel)
  obtain ⟨-, -, hundred, -⟩ := result.2.2 running
  have full : exercise.progress = 100 := hundred.mpr (by decide +kernel)
  have computed := result.2.1 (by decide +kernel)
  rw [full, List.length_replicate, List.length_nil, Nat.max_zero] at computed
  exact ⟨running, full, computed⟩

/-- An exercise with a progress of a hundred need not be complete. -/
theorem not_progress_iff_complete :
    ¬∀ (upper lower : List Note) (actions : List Action), 0 < max upper.length lower.length →
      let exercise := (start upper lower).run actions
      (exercise.progress = 100 ↔ exercise.complete = true) ∧
        (exercise.complete = false → exercise.progress ≤ 99) := by
  intro agree
  obtain ⟨-, less⟩ := agree (List.replicate 200 ⟨60, [], none⟩) [] [.goTo 199] (by decide +kernel)
  exact absurd (less (by decide +kernel)) (by decide +kernel)

end Exercise

end Clavier
