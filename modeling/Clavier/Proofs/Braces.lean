import Clavier.Voice.Block

/-!
# Balanced texts

A text is balanced when it has as many opening as closing braces and no start of it
has more closing than opening ones. Its depth is read off from left to right: every
opening brace adds one to the number of open blocks, every closing brace takes one
away, and a closing brace without an open block ends the reading.

The search for the brace that closes a block goes on as long as the reading does
(`splitBlocks?_cons`), so it passes over a balanced text (`splitBlocks?_append`). A block closes
exactly when a balanced body and a closing brace begin the text (`splitBlock?_eq_some_iff`).
-/

set_option autoImplicit false

namespace Clavier

/-! ## The depth of a text -/

/-- The number of open blocks after one more character, if that character does not close a block
that was never opened. -/
def depthStep? (inside : Nat) (c : Char) : Option Nat :=
  if c = '{' then some (inside + 1)
  else if c = '}' then if inside = 0 then none else some (inside - 1)
  else some inside

/-- The number of open blocks after a text, given the number before it. -/
def depthAfter? (inside : Nat) (text : Text) : Option Nat := text.foldlM depthStep? inside

/-- As many opening as closing braces, and nowhere more closing than opening ones before. -/
def Balanced (text : Text) : Prop :=
  text.count '{' = text.count '}' ∧ ∀ start, start <+: text → start.count '}' ≤ start.count '{'

@[simp] theorem depthAfter?_nil (inside : Nat) : depthAfter? inside [] = some inside := rfl

@[simp] theorem depthAfter?_cons (inside : Nat) (c : Char) (rest : Text) :
    depthAfter? inside (c :: rest) =
      (depthStep? inside c).bind fun depth => depthAfter? depth rest := rfl

theorem depthAfter?_append (inside : Nat) (text rest : Text) :
    depthAfter? inside (text ++ rest) =
      (depthAfter? inside text).bind fun depth => depthAfter? depth rest :=
  List.foldlM_append

@[simp] theorem depthStep?_opening (inside : Nat) : depthStep? inside '{' = some (inside + 1) := rfl

theorem depthStep?_other {c : Char} (inside : Nat) (noOpening : c ≠ '{') (noClosing : c ≠ '}') :
    depthStep? inside c = some inside := by
  rw [depthStep?, if_neg noOpening, if_neg noClosing]

/-- One character counts in the depth as it counts among the braces. -/
theorem depthStep?_eq_some_iff {inside depth : Nat} {c : Char} :
    depthStep? inside c = some depth ↔ inside + [c].count '{' = depth + [c].count '}' := by
  by_cases opening : c = '{'
  · subst opening
    simp
  · by_cases closing : c = '}'
    · subst closing
      cases inside <;> simp [depthStep?, eq_comm]
    · rw [depthStep?_other inside opening closing, List.count_cons_of_ne opening,
        List.count_cons_of_ne closing]
      simp

/-- Only a closing brace without an open block ends the reading. -/
theorem depthStep?_eq_none_iff {inside : Nat} {c : Char} :
    depthStep? inside c = none ↔ inside = 0 ∧ c = '}' := by
  by_cases opening : c = '{'
  · subst opening
    simp
  · by_cases closing : c = '}'
    · subst closing
      cases inside <;> simp [depthStep?]
    · rw [depthStep?_other inside opening closing]
      simp [closing]

/-- A text without braces keeps the depth. -/
theorem depthAfter?_of_no_brace {text : Text} (noOpening : '{' ∉ text) (noClosing : '}' ∉ text)
    (inside : Nat) : depthAfter? inside text = some inside := by
  induction text with
  | nil => rfl
  | cons c rest ih =>
      simp only [List.mem_cons, not_or] at noOpening noClosing
      rw [depthAfter?_cons, depthStep?_other inside (Ne.symm noOpening.1) (Ne.symm noClosing.1)]
      exact ih noOpening.2 noClosing.2

/-- Blocks that are open before a text stay open beside those that the text opens. -/
theorem depthAfter?_add {inside depth : Nat} {text : Text}
    (found : depthAfter? inside text = some depth) (more : Nat) :
    depthAfter? (inside + more) text = some (depth + more) := by
  induction text generalizing inside with
  | nil =>
      obtain rfl := Option.some.inj found
      rfl
  | cons c rest ih =>
      obtain ⟨next, step, later⟩ := Option.bind_eq_some_iff.mp found
      have deeper : depthStep? (inside + more) c = some (next + more) := by
        rw [depthStep?_eq_some_iff] at step ⊢
        omega
      rw [depthAfter?_cons, deeper]
      exact ih later

/-- The starts of a text are the empty one and those that begin with its first character. -/
theorem forall_start_cons {c : Char} {rest : Text} {bound : Text → Prop} :
    (∀ start, start <+: c :: rest → bound start) ↔
      bound [] ∧ ∀ start, start <+: rest → bound (c :: start) := by
  constructor
  · intro every
    refine ⟨every [] List.nil_prefix, ?_⟩
    intro start front
    exact every (c :: start) (List.cons_prefix_cons.mpr ⟨rfl, front⟩)
  · rintro ⟨empty, longer⟩ start front
    rcases List.prefix_cons_iff.mp front with rfl | ⟨tail, rfl, front'⟩
    · exact empty
    · exact longer tail front'

theorem count_cons_singleton (c brace : Char) (rest : Text) :
    (c :: rest).count brace = [c].count brace + rest.count brace := by
  rw [← List.singleton_append, List.count_append]

/-- The depth after a text counts its braces, and is there as long as no start of the text closes
more blocks than are open. -/
theorem depthAfter?_eq_some_iff {inside depth : Nat} {text : Text} :
    depthAfter? inside text = some depth ↔
      inside + text.count '{' = depth + text.count '}' ∧
        ∀ start, start <+: text → start.count '}' ≤ inside + start.count '{' := by
  induction text generalizing inside with
  | nil => simp [List.prefix_nil]
  | cons c rest ih =>
      have opened := count_cons_singleton c '{'
      have closed := count_cons_singleton c '}'
      simp only [forall_start_cons, depthAfter?_cons, Option.bind_eq_some_iff,
        depthStep?_eq_some_iff, ih, opened rest, closed rest]
      constructor
      · rintro ⟨next, step, total, every⟩
        refine ⟨by omega, Nat.zero_le _, ?_⟩
        intro start front
        have bound := every start front
        rw [opened, closed]
        omega
      · rintro ⟨total, -, every⟩
        have first := every [] List.nil_prefix
        refine ⟨inside + [c].count '{' - [c].count '}', by omega, by omega, ?_⟩
        intro start front
        have bound := every start front
        rw [opened, closed] at bound
        omega

/-- A text is balanced when reading it closes exactly the blocks that it opens. -/
theorem balanced_iff_depthAfter? {text : Text} : Balanced text ↔ depthAfter? 0 text = some 0 := by
  rw [depthAfter?_eq_some_iff, Balanced]
  simp only [Nat.zero_add]

/-- A balanced text keeps every depth. -/
theorem Balanced.depthAfter? {text : Text} (balanced : Balanced text) (inside : Nat) :
    depthAfter? inside text = some inside := by
  have more := depthAfter?_add (balanced_iff_depthAfter?.mp balanced) inside
  rwa [Nat.zero_add] at more

theorem balanced_of_no_brace {text : Text} (noOpening : '{' ∉ text) (noClosing : '}' ∉ text) :
    Balanced text :=
  balanced_iff_depthAfter?.mpr (depthAfter?_of_no_brace noOpening noClosing 0)

theorem Balanced.append {first second : Text} (left : Balanced first) (right : Balanced second) :
    Balanced (first ++ second) := by
  rw [balanced_iff_depthAfter?, depthAfter?_append, left.depthAfter? 0]
  exact right.depthAfter? 0

/-- A character that is no brace in front of a balanced text. -/
theorem Balanced.cons {text : Text} (balanced : Balanced text) {c : Char} (noOpening : c ≠ '{')
    (noClosing : c ≠ '}') : Balanced (c :: text) := by
  have single : Balanced [c] := by
    apply balanced_of_no_brace
    · intro member
      exact noOpening (List.mem_singleton.mp member).symm
    · intro member
      exact noClosing (List.mem_singleton.mp member).symm
  exact single.append balanced

/-- A balanced text in braces is balanced. -/
theorem Balanced.braces {text : Text} (balanced : Balanced text) :
    Balanced ('{' :: (text ++ ['}'])) := by
  rw [balanced_iff_depthAfter?, depthAfter?_cons, depthStep?_opening, Option.bind_some,
    depthAfter?_append, balanced.depthAfter? 1]
  rfl

/-! ## The brace that closes a block -/

/-- The search for a closing brace goes on as long as the depth can be read. -/
theorem splitBlocks?_cons (inside : Nat) (c : Char) (rest : Text) :
    splitBlocks? inside (c :: rest) =
      match depthStep? inside c with
      | some depth => (splitBlocks? depth rest).map fun found => (c :: found.1, found.2)
      | none => some ([], rest) := by
  by_cases opening : c = '{'
  · subst opening
    rfl
  · by_cases closing : c = '}'
    · subst closing
      cases inside <;> rfl
    · rw [depthStep?_other inside opening closing]
      cases inside <;> simp [splitBlocks?, closing]

/-- **Passing over a text.** The search passes over a text that leads from one depth to another,
and goes on with the new depth. -/
theorem splitBlocks?_append {inside depth : Nat} {text : Text}
    (found : depthAfter? inside text = some depth) (rest : Text) :
    splitBlocks? inside (text ++ rest) =
      (splitBlocks? depth rest).map fun split => (text ++ split.1, split.2) := by
  induction text generalizing inside with
  | nil =>
      obtain rfl := Option.some.inj found
      cases h : splitBlocks? inside rest <;> simp [h]
  | cons c more ih =>
      obtain ⟨next, step, later⟩ := Option.bind_eq_some_iff.mp found
      rw [List.cons_append, splitBlocks?_cons, step]
      simp only [ih later, Option.map_map]
      rfl

/-- The text before the closing brace leads to no open block. -/
theorem depthAfter?_of_splitBlocks? {inside : Nat} {text body rest : Text}
    (found : splitBlocks? inside text = some (body, rest)) : depthAfter? inside body = some 0 := by
  induction text generalizing inside body with
  | nil => cases inside <;> cases found
  | cons c more ih =>
      rw [splitBlocks?_cons] at found
      cases step : depthStep? inside c with
      | some depth =>
          rw [step] at found
          obtain ⟨⟨body', rest'⟩, later, same⟩ := Option.map_eq_some_iff.mp found
          simp only [Prod.mk.injEq] at same
          obtain ⟨rfl, rfl⟩ := same
          rw [depthAfter?_cons, step]
          exact ih later
      | none =>
          rw [step] at found
          simp only [Option.some.injEq, Prod.mk.injEq] at found
          obtain ⟨rfl, rfl⟩ := found
          obtain ⟨outside, -⟩ := depthStep?_eq_none_iff.mp step
          rw [outside]
          rfl

/-- A block closes at the first brace after a balanced body. -/
theorem splitBlock?_of_balanced {body : Text} (balanced : Balanced body) (rest : Text) :
    splitBlock? (body ++ '}' :: rest) = some (body, rest) := by
  have split := splitBlocks?_append (balanced.depthAfter? 0) ('}' :: rest)
  simpa [splitBlock?, splitBlocks?_cons, depthStep?] using split

/-- The body of a block that closes is balanced. -/
theorem balanced_of_splitBlock? {text body rest : Text}
    (found : splitBlock? text = some (body, rest)) : Balanced body :=
  balanced_iff_depthAfter?.mpr (depthAfter?_of_splitBlocks? found)

/-- A block closes exactly when a balanced body and a closing brace begin the text. -/
theorem splitBlock?_eq_some_iff {text body rest : Text} :
    splitBlock? text = some (body, rest) ↔ text = body ++ '}' :: rest ∧ Balanced body := by
  constructor
  · intro found
    exact ⟨eq_append_of_splitBlocks? found, balanced_of_splitBlock? found⟩
  · rintro ⟨rfl, balanced⟩
    exact splitBlock?_of_balanced balanced rest

end Clavier
