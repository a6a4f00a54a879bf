import Clavier.Number.Amount

/-!
# Rounded numbers

A number that an operation returns has at most 53 significant bits
(`representable_roundSignificant`), and rounding never takes a result below such a number that it
has reached (`le_roundSignificant`), or above one that it has not passed
(`roundSignificant_le_of_le`). Hence adding a number that is not negative to the result of an
operation yields nothing below that result (`not_add_lt`), although the sum is rounded.

Products and quotients of numbers that are not negative are not negative (`NonNegative.mul`,
`NonNegative.div?`), and there is a quotient over every number but zero (`exists_div`).
-/

set_option autoImplicit false

namespace Clavier

/-! ## Rounding to significant bits -/

/-- A count of units with at most 53 significant bits. -/
def Representable (units : Nat) : Prop :=
  ∃ significand exponent, units = significand * powerOfTwo exponent ∧ significand ≤ powerOfTwo 53

theorem powerOfTwo_pos (exponent : Nat) : 0 < powerOfTwo exponent :=
  Nat.pow_pos (by decide)

theorem powerOfTwo_add (first second : Nat) :
    powerOfTwo (first + second) = powerOfTwo first * powerOfTwo second :=
  Nat.pow_add 2 first second

theorem powerOfTwo_le {first second : Nat} (le : first ≤ second) :
    powerOfTwo first ≤ powerOfTwo second :=
  Nat.pow_le_pow_right (by decide) le

theorem powerOfTwo_lt {first second : Nat} (lt : first < second) :
    powerOfTwo first < powerOfTwo second :=
  Nat.pow_lt_pow_right (by decide) lt

theorem le_roundQuotient (numerator denominator : Nat) :
    numerator / denominator ≤ roundQuotient numerator denominator := by
  unfold roundQuotient
  dsimp only
  split
  · exact Nat.le_refl _
  · split <;> omega

theorem roundQuotient_le (numerator denominator : Nat) :
    roundQuotient numerator denominator ≤ numerator / denominator + 1 := by
  unfold roundQuotient
  dsimp only
  split
  · exact Nat.le_succ _
  · split <;> omega

theorem representable_powerOfTwo (exponent : Nat) : Representable (powerOfTwo exponent) :=
  ⟨1, exponent, (Nat.one_mul _).symm, powerOfTwo_pos 53⟩

theorem representable_roundSignificant (numerator denominator : Nat) :
    Representable (roundSignificant numerator denominator) := by
  unfold roundSignificant
  dsimp only
  generalize hq : numerator / denominator = quotient
  generalize hd : quotient.log2 + 1 - 53 = dropped
  refine ⟨_, dropped, rfl, ?_⟩
  have rounded := roundQuotient_le numerator (denominator * powerOfTwo dropped)
  have below : quotient < powerOfTwo (53 + dropped) :=
    Nat.lt_of_lt_of_le Nat.lt_log2_self (powerOfTwo_le (by omega))
  have kept : quotient / powerOfTwo dropped < powerOfTwo 53 := by
    rw [Nat.div_lt_iff_lt_mul (powerOfTwo_pos dropped), ← powerOfTwo_add]
    exact below
  rw [← Nat.div_div_eq_div_mul, hq] at rounded
  omega

/-- Where the units of a result are coarser than those of a representable number, a power of two
is above the number and has been passed by the quotient. -/
theorem passes_of_coarse {significand exponent quotient dropped : Nat}
    (small : significand ≤ powerOfTwo 53) (units : quotient.log2 + 1 - 53 = dropped)
    (coarse : exponent < dropped) :
    significand * powerOfTwo exponent ≤ powerOfTwo (52 + dropped) ∧
      powerOfTwo (52 + dropped) ≤ quotient := by
  constructor
  · calc significand * powerOfTwo exponent
      _ ≤ powerOfTwo 53 * powerOfTwo exponent := Nat.mul_le_mul_right _ small
      _ = powerOfTwo (53 + exponent) := (powerOfTwo_add 53 exponent).symm
      _ ≤ powerOfTwo (52 + dropped) := powerOfTwo_le (by omega)
  · have nonzero : quotient ≠ 0 := by
      rintro rfl
      simp at units
      omega
    have leading : powerOfTwo quotient.log2 ≤ quotient := Nat.log2_self_le nonzero
    have exponents : quotient.log2 = 52 + dropped := by omega
    rwa [exponents] at leading

/-- **Rounding and representable numbers.** A quotient that has reached a representable number is
not rounded below it: where the units of the result are coarser than those of the number, the
power of two that the quotient has passed is already above it. -/
theorem le_roundSignificant {units numerator denominator : Nat} (representable : Representable units)
    (positive : 0 < denominator) (reached : units * denominator ≤ numerator) :
    units ≤ roundSignificant numerator denominator := by
  obtain ⟨significand, exponent, rfl, small⟩ := representable
  unfold roundSignificant
  dsimp only
  have reached' : significand * powerOfTwo exponent ≤ numerator / denominator :=
    (Nat.le_div_iff_mul_le positive).mpr reached
  generalize hq : numerator / denominator = quotient at reached'
  generalize hd : quotient.log2 + 1 - 53 = dropped
  have floor := le_roundQuotient numerator (denominator * powerOfTwo dropped)
  rw [← Nat.div_div_eq_div_mul, hq] at floor
  have unit := powerOfTwo_pos dropped
  by_cases fine : dropped ≤ exponent
  · -- The units of the result divide the number.
    obtain ⟨shift, rfl⟩ := Nat.exists_eq_add_of_le fine
    have same : significand * powerOfTwo (dropped + shift) =
        significand * powerOfTwo shift * powerOfTwo dropped := by
      rw [powerOfTwo_add, Nat.mul_comm (powerOfTwo dropped), Nat.mul_assoc]
    rw [same] at reached' ⊢
    exact Nat.mul_le_mul_right _
      (Nat.le_trans ((Nat.le_div_iff_mul_le unit).mpr reached') floor)
  · obtain ⟨under, passed⟩ := passes_of_coarse small hd (Nat.lt_of_not_le fine)
    have leading : powerOfTwo 52 ≤ quotient / powerOfTwo dropped := by
      rw [Nat.le_div_iff_mul_le unit, ← powerOfTwo_add]
      exact passed
    calc significand * powerOfTwo exponent
      _ ≤ powerOfTwo 52 * powerOfTwo dropped := by rwa [← powerOfTwo_add]
      _ ≤ _ := Nat.mul_le_mul_right _ (Nat.le_trans leading floor)

/-- A quotient that is no more than a whole number is not rounded above it. -/
theorem roundQuotient_le_of_le {bound numerator denominator : Nat} (positive : 0 < denominator)
    (le : numerator ≤ bound * denominator) : roundQuotient numerator denominator ≤ bound := by
  have split := Nat.div_add_mod numerator denominator
  rcases Nat.lt_or_ge (numerator / denominator) bound with below | reached
  · exact Nat.le_trans (roundQuotient_le numerator denominator) below
  · have whole : bound * denominator ≤ denominator * (numerator / denominator) := by
      rw [Nat.mul_comm]
      exact Nat.mul_le_mul_left denominator reached
    have same : numerator / denominator = bound :=
      Nat.le_antisymm (Nat.div_le_of_le_mul (by rwa [Nat.mul_comm])) reached
    have exact : numerator % denominator = 0 := by omega
    unfold roundQuotient
    dsimp only
    rw [exact, same, Nat.mul_zero]
    exact Nat.le_of_eq (if_pos positive)

/-- A quotient that is no more than a representable number is not rounded above it: the units of
the result divide the number, also where they are coarser than its own, for then the number is the
power of two that the quotient has reached. -/
theorem roundSignificant_le_of_le {units numerator denominator : Nat}
    (representable : Representable units) (positive : 0 < denominator)
    (le : numerator ≤ units * denominator) : roundSignificant numerator denominator ≤ units := by
  obtain ⟨significand, exponent, rfl, small⟩ := representable
  unfold roundSignificant
  dsimp only
  have le' : numerator / denominator ≤ significand * powerOfTwo exponent :=
    Nat.div_le_of_le_mul (by rwa [Nat.mul_comm])
  generalize numerator / denominator = quotient at le'
  generalize hd : quotient.log2 + 1 - 53 = dropped
  have unit := powerOfTwo_pos dropped
  obtain ⟨count, whole⟩ : ∃ count,
      significand * powerOfTwo exponent = count * powerOfTwo dropped := by
    by_cases fine : dropped ≤ exponent
    · obtain ⟨shift, rfl⟩ := Nat.exists_eq_add_of_le fine
      exact ⟨significand * powerOfTwo shift, by
        rw [powerOfTwo_add, Nat.mul_comm (powerOfTwo dropped), Nat.mul_assoc]⟩
    · obtain ⟨under, passed⟩ := passes_of_coarse small hd (Nat.lt_of_not_le fine)
      exact ⟨powerOfTwo 52, by rw [← powerOfTwo_add]; omega⟩
  rw [whole] at le ⊢
  refine Nat.mul_le_mul_right _ (roundQuotient_le_of_le (Nat.mul_pos positive unit) ?_)
  rwa [Nat.mul_comm denominator, ← Nat.mul_assoc]

/-- Rounding at most doubles a whole number. -/
theorem roundSignificant_le_double (numerator : Nat) :
    roundSignificant numerator 1 ≤ 2 * numerator := by
  rcases Nat.eq_zero_or_pos numerator with rfl | positive
  · simp [roundSignificant, roundQuotient]
  · unfold roundSignificant
    dsimp only
    rw [Nat.div_one, Nat.one_mul]
    generalize hd : numerator.log2 + 1 - 53 = dropped
    have unit : powerOfTwo dropped ≤ numerator :=
      Nat.le_trans (powerOfTwo_le (by omega)) (Nat.log2_self_le (Nat.ne_of_gt positive))
    calc roundQuotient numerator (powerOfTwo dropped) * powerOfTwo dropped
      _ ≤ (numerator / powerOfTwo dropped + 1) * powerOfTwo dropped :=
          Nat.mul_le_mul_right _ (roundQuotient_le _ _)
      _ = numerator / powerOfTwo dropped * powerOfTwo dropped + powerOfTwo dropped :=
          Nat.succ_mul _ _
      _ ≤ 2 * numerator := by
          have floor := Nat.div_mul_le_self numerator (powerOfTwo dropped)
          omega

/-! ## Numbers that are not negative -/

namespace Binary64

/-- A number that is not below zero. -/
def NonNegative (x : Binary64) : Prop := ¬x < zero

instance (x : Binary64) : Decidable x.NonNegative := inferInstanceAs (Decidable ¬x < zero)

/-- A number that is infinite or undefined, or whose units are representable. -/
def Rounded (x : Binary64) : Prop :=
  ∀ negative units, x = .finite negative units → Representable units

theorem lt_iff_isBelow {x y : Binary64} : x < y ↔ isBelow x y = true := Iff.rfl

theorem nonNegative_finite_iff {negative : Bool} {units : Nat} :
    (finite negative units).NonNegative ↔ 0 ≤ signedUnits negative units := by
  simp [NonNegative, lt_iff_isBelow, isBelow, zero, signedUnits]

theorem nonNegative_infinite_iff {negative : Bool} :
    (infinite negative).NonNegative ↔ negative = false := by
  simp [NonNegative, lt_iff_isBelow, isBelow, zero]

theorem nonNegative_undefined : undefined.NonNegative := by decide

/-- A number with a sign is not negative only if it is zero. -/
theorem units_eq_zero {units : Nat} (natural : (finite true units).NonNegative) : units = 0 := by
  rw [nonNegative_finite_iff, signedUnits, if_pos rfl] at natural
  omega

/-- A result is finite or infinite. -/
theorem ofUnits_eq (negative : Bool) (numerator denominator : Nat) :
    ofUnits negative numerator denominator =
        .finite negative (roundSignificant numerator denominator) ∨
      ofUnits negative numerator denominator = .infinite negative := by
  unfold ofUnits
  generalize unitsLimit = limit
  dsimp only
  split
  · exact .inl rfl
  · exact .inr rfl

theorem ofUnits_zero (negative : Bool) (denominator : Nat) :
    ofUnits negative 0 denominator = .finite negative 0 := by
  have positive : 0 < unitsLimit := powerOfTwo_pos 2098
  have rounded : roundSignificant 0 denominator = 0 := by
    simp [roundSignificant, roundQuotient]
  unfold ofUnits
  generalize unitsLimit = limit at positive
  rw [rounded]
  exact if_pos positive

theorem rounded_ofUnits (negative : Bool) (numerator denominator : Nat) :
    (ofUnits negative numerator denominator).Rounded := by
  rintro sign units found
  rcases ofUnits_eq negative numerator denominator with same | same
  · obtain ⟨-, rfl⟩ := finite.inj (same.symm.trans found)
    exact representable_roundSignificant numerator denominator
  · cases same.symm.trans found

/-- A result with a sign is not negative if it is zero. -/
theorem nonNegative_ofUnits {negative : Bool} {numerator : Nat}
    (zero : negative = true → numerator = 0) (denominator : Nat) :
    (ofUnits negative numerator denominator).NonNegative := by
  cases negative with
  | false =>
      rcases ofUnits_eq false numerator denominator with same | same
      · rw [same]
        exact nonNegative_finite_iff.mpr (Int.natCast_nonneg _)
      · rw [same]
        exact nonNegative_infinite_iff.mpr rfl
  | true =>
      rw [zero rfl, ofUnits_zero]
      exact nonNegative_finite_iff.mpr (Int.le_refl 0)

/-- The sign of a product or quotient of numbers that are not negative. -/
theorem units_of_different {s t : Bool} {a b : Nat} (first : (finite s a).NonNegative)
    (second : (finite t b).NonNegative) (different : (s != t) = true) : a = 0 ∨ b = 0 := by
  cases s with
  | true => exact .inl (units_eq_zero first)
  | false =>
      cases t with
      | true => exact .inr (units_eq_zero second)
      | false => cases different

theorem add_finite (a b : Nat) :
    (finite false a).add (finite false b) = ofUnits false (a + b) 1 := by
  unfold add
  simp only [signedUnits, Bool.false_eq_true, if_false]
  split
  · obtain ⟨rfl, rfl⟩ : a = 0 ∧ b = 0 := by omega
    exact (ofUnits_zero false 1).symm
  · have positive : ¬((a : Int) + b < 0) := by omega
    have sum : ((a : Int) + b).natAbs = a + b := by omega
    rw [decide_eq_false positive, sum]

theorem mul_finite (s t : Bool) (a b : Nat) :
    (finite s a).mul (finite t b) = ofUnits (s != t) (a * b) unitsOfOne := rfl

theorem rounded_mul (x y : Binary64) : (x.mul y).Rounded := by
  rintro sign units found
  unfold mul at found
  split at found
  · exact rounded_ofUnits _ _ _ sign units found
  · split at found <;> cases found
  · split at found <;> cases found
  · cases found
  · cases found

/-- **Products.** -/
theorem NonNegative.mul {x y : Binary64} (first : x.NonNegative) (second : y.NonNegative) :
    (x.mul y).NonNegative := by
  cases x with
  | undefined => exact nonNegative_undefined
  | finite s a =>
      cases y with
      | undefined => exact nonNegative_undefined
      | finite t b =>
          rw [mul_finite]
          refine nonNegative_ofUnits (fun different => ?_) unitsOfOne
          rcases units_of_different first second different with rfl | rfl
          · exact Nat.zero_mul b
          · exact Nat.mul_zero a
      | infinite t =>
          obtain rfl := nonNegative_infinite_iff.mp second
          by_cases zero : a = 0
          · simp only [Binary64.mul, zero, if_true, nonNegative_undefined]
          · cases s with
            | true => exact absurd (units_eq_zero first) zero
            | false => simp only [Binary64.mul, zero, if_false, nonNegative_infinite_iff, bne_self_eq_false]
  | infinite s =>
      obtain rfl := nonNegative_infinite_iff.mp first
      cases y with
      | undefined => exact nonNegative_undefined
      | finite t b =>
          by_cases zero : b = 0
          · simp only [Binary64.mul, zero, if_true, nonNegative_undefined]
          · cases t with
            | true => exact absurd (units_eq_zero second) zero
            | false => simp only [Binary64.mul, zero, if_false, nonNegative_infinite_iff, bne_self_eq_false]
      | infinite t =>
          obtain rfl := nonNegative_infinite_iff.mp second
          exact nonNegative_infinite_iff.mpr rfl

/-- **Quotients.** -/
theorem NonNegative.div? {x y z : Binary64} (first : x.NonNegative) (second : y.NonNegative)
    (found : x.div? y = some z) : z.NonNegative := by
  cases x with
  | undefined =>
      cases y <;> simp [Binary64.div?] at found
      · exact found.2 ▸ nonNegative_undefined
      · exact found ▸ nonNegative_undefined
      · exact found ▸ nonNegative_undefined
  | finite s a =>
      cases y with
      | undefined => cases found; exact nonNegative_undefined
      | finite t b =>
          simp only [Binary64.div?, Option.ite_none_left_eq_some, Option.some.injEq] at found
          obtain ⟨nonzero, rfl⟩ := found
          refine nonNegative_ofUnits (fun different => ?_) _
          rcases units_of_different first second different with rfl | zero
          · exact Nat.zero_mul unitsOfOne
          · exact absurd zero nonzero
      | infinite t => cases found; exact nonNegative_finite_iff.mpr (by simp [signedUnits])
  | infinite s =>
      obtain rfl := nonNegative_infinite_iff.mp first
      cases y with
      | undefined => cases found; exact nonNegative_undefined
      | finite t b =>
          simp only [Binary64.div?, Option.ite_none_left_eq_some, Option.some.injEq] at found
          obtain ⟨nonzero, rfl⟩ := found
          cases t with
          | true => exact absurd (units_eq_zero second) nonzero
          | false => exact nonNegative_infinite_iff.mpr rfl
      | infinite t => cases found; exact nonNegative_undefined

theorem NonNegative.div {x y z : Binary64} (first : x.NonNegative) (second : y.NonNegative)
    (found : x.div y = .ok z) : z.NonNegative := by
  unfold Binary64.div at found
  split at found
  · rename_i quotient defined
    rw [← Except.ok.inj found]
    exact first.div? second defined
  · cases found

/-- There is a quotient over every number but zero. -/
theorem exists_div {x y : Binary64} (nonzero : y.isZero = false) : ∃ z, x.div y = .ok z := by
  have defined : ∃ z, x.div? y = some z := by
    cases y with
    | finite t b =>
        have nonzero' : b ≠ 0 := by simpa [isZero] using nonzero
        cases x <;> exact ⟨_, if_neg nonzero'⟩
    | infinite t => cases x <;> exact ⟨_, rfl⟩
    | undefined => cases x <;> exact ⟨_, rfl⟩
  obtain ⟨z, found⟩ := defined
  exact ⟨z, by rw [div, found]⟩

/-- **Sums.** Adding a number that is not negative to a result that is not negative yields nothing
below that result. -/
theorem not_add_lt {x y : Binary64} (rounded : x.Rounded) (first : x.NonNegative)
    (second : y.NonNegative) : ¬x.add y < x := by
  rw [lt_iff_isBelow]
  cases x with
  | undefined => cases y <;> exact Bool.false_ne_true
  | infinite s =>
      obtain rfl := nonNegative_infinite_iff.mp first
      cases y with
      | finite t b => exact Bool.false_ne_true
      | infinite t => cases t <;> exact Bool.false_ne_true
      | undefined => exact Bool.false_ne_true
  | finite s a =>
      cases y with
      | undefined => exact Bool.false_ne_true
      | infinite t =>
          obtain rfl := nonNegative_infinite_iff.mp second
          exact Bool.false_ne_true
      | finite t b =>
          have reached := nonNegative_finite_iff.mp first
          have added := nonNegative_finite_iff.mp second
          have size : signedUnits s a = a := by
            cases s with
            | false => rfl
            | true =>
                rw [units_eq_zero first]
                rfl
          rw [size] at reached
          unfold add
          dsimp only
          rw [size]
          by_cases none : (a : Int) + signedUnits t b = 0
          · have zero : a = 0 := by omega
            rw [if_pos none, isBelow, size, zero]
            cases s && t <;> exact Bool.false_ne_true
          · have positive : ¬(a : Int) + signedUnits t b < 0 := by omega
            have rounded' : a ≤ roundSignificant ((a : Int) + signedUnits t b).natAbs 1 :=
              le_roundSignificant (rounded s a rfl) Nat.one_pos (by omega)
            rw [if_neg none, decide_eq_false positive]
            rcases ofUnits_eq false ((a : Int) + signedUnits t b).natAbs 1 with same | same
            · rw [same]
              simp only [isBelow, size, decide_eq_true_eq, Int.not_lt]
              exact Int.ofNat_le.mpr rounded'
            · rw [same]
              exact Bool.false_ne_true

/-! ## Positive numbers -/

theorem nonNegative_ofInt {n : Int} (natural : 0 ≤ n) : (ofInt n).NonNegative := by
  rw [ofInt, ofFraction]
  refine nonNegative_ofUnits (fun negative => ?_) 1
  exact absurd (of_decide_eq_true negative) (Int.not_lt.mpr natural)

theorem ofFraction_natCast (numerator denominator : Nat) :
    ofFraction numerator denominator = ofUnits false (numerator * unitsOfOne) denominator := by
  rw [ofFraction, Int.natAbs_natCast,
    decide_eq_false (Int.not_lt.mpr (Int.natCast_nonneg numerator))]

theorem ofInt_natCast (n : Nat) : ofInt n = ofUnits false (n * unitsOfOne) 1 :=
  ofFraction_natCast n 1

theorem unitsOfOne_pos : 0 < unitsOfOne := powerOfTwo_pos 1074

/-- The units of a positive integer. -/
theorem unitsOfOne_le {n : Nat} (positive : 0 < n) :
    unitsOfOne ≤ roundSignificant (n * unitsOfOne) 1 := by
  refine le_roundSignificant (representable_powerOfTwo 1074) Nat.one_pos ?_
  rw [Nat.mul_one]
  exact Nat.le_mul_of_pos_left unitsOfOne positive

theorem zero_lt_finite_iff {negative : Bool} {units : Nat} :
    zero < finite negative units ↔ negative = false ∧ 0 < units := by
  rw [lt_iff_isBelow]
  cases negative <;> simp [isBelow, zero, signedUnits]

theorem zero_lt_ofInt {n : Int} (positive : 0 < n) : zero < ofInt n := by
  have sign : decide (n < 0) = false := decide_eq_false (Int.not_lt.mpr (Int.le_of_lt positive))
  have size := unitsOfOne_le (Int.natAbs_pos.mpr (Int.ne_of_gt positive))
  rw [ofInt, ofFraction, sign]
  rcases ofUnits_eq false (n.natAbs * unitsOfOne) 1 with same | same
  · rw [same]
    exact zero_lt_finite_iff.mpr ⟨rfl, Nat.lt_of_lt_of_le unitsOfOne_pos size⟩
  · rw [same]
    rfl

theorem isZero_of_zero_lt {x : Binary64} (positive : zero < x) : x.isZero = false := by
  cases x with
  | finite s u =>
      have units := (zero_lt_finite_iff.mp positive).2
      exact decide_eq_false (Nat.ne_of_gt units)
  | infinite s => rfl
  | undefined => rfl

theorem nonNegative_of_zero_lt {x : Binary64} (positive : zero < x) : x.NonNegative := by
  cases x with
  | finite s u =>
      obtain ⟨rfl, -⟩ := zero_lt_finite_iff.mp positive
      exact nonNegative_finite_iff.mpr (Int.natCast_nonneg u)
  | infinite s =>
      cases s with
      | false => exact nonNegative_infinite_iff.mpr rfl
      | true => cases positive
  | undefined => exact nonNegative_undefined

/-- A positive number stays positive when it is multiplied by a whole number: not even the least one
is rounded to zero. -/
theorem zero_lt_mul_ofInt {x : Binary64} (positive : zero < x) {n : Int} (whole : 0 < n) :
    zero < x.mul (ofInt n) := by
  have sign : decide (n < 0) = false := decide_eq_false (Int.not_lt.mpr (Int.le_of_lt whole))
  have size := unitsOfOne_le (Int.natAbs_pos.mpr (Int.ne_of_gt whole))
  have nonzero := Nat.lt_of_lt_of_le unitsOfOne_pos size
  rw [ofInt, ofFraction, sign]
  cases x with
  | undefined => cases positive
  | infinite s =>
      cases s with
      | true => cases positive
      | false =>
          rcases ofUnits_eq false (n.natAbs * unitsOfOne) 1 with same | same
          · rw [same]
            simp only [mul, Nat.ne_of_gt nonzero, if_false]
            rfl
          · rw [same]
            rfl
  | finite s u =>
      obtain ⟨rfl, units⟩ := zero_lt_finite_iff.mp positive
      rcases ofUnits_eq false (n.natAbs * unitsOfOne) 1 with same | same
      · rw [same, mul_finite]
        have least : Representable 1 := representable_powerOfTwo 0
        have reached : 1 * unitsOfOne ≤ u * roundSignificant (n.natAbs * unitsOfOne) 1 := by
          rw [Nat.one_mul]
          exact Nat.le_trans size (Nat.le_mul_of_pos_left _ units)
        have product := le_roundSignificant least unitsOfOne_pos reached
        rcases ofUnits_eq (false != false) (u * roundSignificant (n.natAbs * unitsOfOne) 1)
          unitsOfOne with same | same
        · rw [same]
          exact zero_lt_finite_iff.mpr ⟨rfl, product⟩
        · rw [same]
          rfl
      · rw [same]
        simp only [mul, Nat.ne_of_gt units, if_false]
        rfl

end Binary64

end Clavier
