import Clavier.Proofs.Braces

/-!
# Places of closing braces

A brace closes the block that opens just before a place if the text between the two is balanced
(`Closes`). The search for a closing brace finds that brace and no other, and finds none only
where there is none (`closingBrace?_eq_some_iff`).

Only the braces of the text between count, so that a balanced part of it may give way to another
one: the closing brace moves with the text behind the part (`Closes.replace`). Text without braces
neither closes a block nor keeps one open, and so blocks can be taken out of a text, one after the
other, without a change to the blocks around them (`closingBrace?_closes`).
-/

set_option autoImplicit false

namespace Clavier

/-- The brace at a place closes the block that opens just before another place: from there up to the
brace the text is balanced. -/
structure Closes (text : Text) (start place : Nat) : Prop where
  after : start ≤ place
  brace : text[place]? = some '}'
  balanced : Balanced ((text.take place).drop start)

section Search

variable {text : Text} {start place : Nat}

/-- A closing brace stands behind the body of its block. -/
theorem closes_iff_exists : Closes text start place ↔
    ∃ body rest, text.drop start = body ++ '}' :: rest ∧ Balanced body ∧
      place = start + body.length := by
  constructor
  · rintro ⟨after, brace, balanced⟩
    obtain ⟨width, rfl⟩ := Nat.exists_eq_add_of_le after
    obtain ⟨inside, same⟩ := List.getElem?_eq_some_iff.mp brace
    have split := List.take_append_drop width (text.drop start)
    rw [List.drop_drop, List.drop_eq_getElem_cons inside, same] at split
    rw [List.drop_take, Nat.add_sub_cancel_left] at balanced
    refine ⟨(text.drop start).take width, _, split.symm, balanced, ?_⟩
    rw [List.length_take, List.length_drop]
    omega
  · rintro ⟨body, rest, split, balanced, rfl⟩
    refine ⟨Nat.le_add_right _ _, ?_, ?_⟩
    · rw [← List.getElem?_drop, split, List.getElem?_append_right (Nat.le_refl _), Nat.sub_self]
      rfl
    · rw [List.drop_take, Nat.add_sub_cancel_left, split, List.take_left]
      exact balanced

/-- **The search for a closing brace** finds exactly the brace that closes the block. -/
theorem closingBrace?_eq_some_iff :
    closingBrace? text start = some place ↔ Closes text start place := by
  rw [closes_iff_exists, closingBrace?, Option.map_eq_some_iff, Prod.exists]
  refine exists_congr fun body => exists_congr fun rest => ?_
  rw [splitBlock?_eq_some_iff, and_assoc, eq_comm (a := start + body.length)]

theorem closingBrace?_eq_none_iff :
    closingBrace? text start = none ↔ ∀ place, ¬ Closes text start place := by
  simp only [Option.eq_none_iff_forall_ne_some, ne_eq, closingBrace?_eq_some_iff]

end Search

/-! ## Parts that give way to others -/

/-- A balanced part of a balanced text may give way to another one. -/
theorem Balanced.replace {front part back other : Text} (balanced : Balanced (front ++ (part ++ back)))
    (old : Balanced part) (new : Balanced other) : Balanced (front ++ (other ++ back)) := by
  simp only [balanced_iff_depthAfter?, depthAfter?_append, old.depthAfter?, new.depthAfter?,
    Option.bind_some] at balanced ⊢
  exact balanced

section Replacing

variable {front part back other : Text} {start : Nat}

theorem getElem?_behind (front part back : Text) (i : Nat) :
    (front ++ (part ++ back))[front.length + part.length + i]? = back[i]? := by
  rw [Nat.add_assoc, List.getElem?_append_right (Nat.le_add_right _ _), Nat.add_sub_cancel_left,
    List.getElem?_append_right (Nat.le_add_right _ _), Nat.add_sub_cancel_left]

theorem take_behind (front part back : Text) (i : Nat) :
    (front ++ (part ++ back)).take (front.length + part.length + i) =
      front ++ (part ++ back.take i) := by
  rw [Nat.add_assoc, List.take_length_add_append, List.take_length_add_append]

/-- Whether a brace closes a block does not depend on what follows it. -/
theorem Closes.of_front {place : Nat} (closes : Closes (front ++ back) start place)
    (before : place < front.length) (rest : Text) : Closes (front ++ rest) start place where
  after := closes.after
  brace := by
    rw [List.getElem?_append_left before, ← List.getElem?_append_left before]
    exact closes.brace
  balanced := by
    have body := closes.balanced
    rw [List.take_append_of_le_length (Nat.le_of_lt before)] at body ⊢
    exact body

variable (opens : start ≤ front.length)
include opens

/-- **Replacing a balanced part.** A brace behind the part closes the block after the exchange if it
did before; it has moved with the text behind the part. -/
theorem Closes.replace {i : Nat}
    (closes : Closes (front ++ (part ++ back)) start (front.length + part.length + i))
    (old : Balanced part) (new : Balanced other) :
    Closes (front ++ (other ++ back)) start (front.length + other.length + i) where
  after := by omega
  brace := by
    rw [getElem?_behind, ← getElem?_behind front part]
    exact closes.brace
  balanced := by
    have body := closes.balanced
    rw [take_behind, List.drop_append_of_le_length opens] at body ⊢
    exact body.replace old new

variable (balanced : Balanced part) (noOpening : '{' ∉ other) (noClosing : '}' ∉ other)
include balanced noOpening noClosing

/-- A block that does not close stays open when a balanced part of it gives way to text without
braces. -/
theorem not_closes_replace (open' : ∀ place, ¬ Closes (front ++ (part ++ back)) start place)
    (place : Nat) : ¬ Closes (front ++ (other ++ back)) start place := by
  intro closes
  rcases Nat.lt_or_ge place front.length with before | behind
  · exact open' place (closes.of_front before _)
  obtain ⟨i, rfl⟩ := Nat.exists_eq_add_of_le behind
  rcases Nat.lt_or_ge i other.length with within | behind
  · have brace := closes.brace
    rw [List.getElem?_append_right behind, Nat.add_sub_cancel_left,
      List.getElem?_append_left within] at brace
    exact noClosing (List.mem_of_getElem? brace)
  · obtain ⟨j, rfl⟩ := Nat.exists_eq_add_of_le behind
    rw [← Nat.add_assoc] at closes
    exact open' _ (closes.replace opens (balanced_of_no_brace noOpening noClosing) balanced)

end Replacing

/-- **Closing braces.** The search from a place of a text finds a brace exactly if it closes the
block that opens just before the place, and finds none exactly if no brace does. Where a balanced
part of the text from that place on gives way to text without braces, a closing brace behind the
part moves with the text behind it, and a block without closing brace still has none. -/
theorem closingBrace?_closes (text : Text) (start : Nat) :
    (∀ place, closingBrace? text start = some place ↔ Closes text start place) ∧
      (closingBrace? text start = none ↔ ∀ place, ¬ Closes text start place) ∧
      ∀ front part back other : Text, text = front ++ (part ++ back) → start ≤ front.length →
        Balanced part → '{' ∉ other → '}' ∉ other →
        (∀ place, closingBrace? text start = some place → front.length + part.length ≤ place →
          closingBrace? (front ++ (other ++ back)) start =
            some (place - part.length + other.length)) ∧
        (closingBrace? text start = none → closingBrace? (front ++ (other ++ back)) start = none) := by
  refine ⟨fun place => closingBrace?_eq_some_iff, closingBrace?_eq_none_iff, ?_⟩
  rintro front part back other rfl opens balanced noOpening noClosing
  refine ⟨fun place found behind => ?_, fun missing => ?_⟩
  · obtain ⟨i, rfl⟩ := Nat.exists_eq_add_of_le behind
    have moved := (closingBrace?_eq_some_iff.mp found).replace opens balanced
      (balanced_of_no_brace noOpening noClosing)
    have place : front.length + part.length + i - part.length + other.length =
        front.length + other.length + i := by omega
    rw [place]
    exact closingBrace?_eq_some_iff.mpr moved
  · exact closingBrace?_eq_none_iff.mpr (not_closes_replace opens balanced noOpening noClosing
      (closingBrace?_eq_none_iff.mp missing))

/-- A block inside of a block gives way to a word, once where the block around it closes, and once
where it does not. -/
theorem closingBrace?_closes_nested :
    let closed := "\x7b a \x7b b \x7d c \x7d d".toList
    let opened := "\x7b a \x7b b \x7d".toList
    (closingBrace? closed 1 = some 12 ∧ Closes closed 1 12 ∧
        closingBrace? "\x7b a xy c \x7d d".toList 1 = some 9) ∧
      closingBrace? opened 1 = none ∧ closingBrace? "\x7b a xy".toList 1 = none := by
  intro closed opened
  have block : Balanced "\x7b b \x7d".toList := balanced_iff_depthAfter?.mpr (by decide)
  have found : closingBrace? closed 1 = some 12 := by decide
  have missing : closingBrace? opened 1 = none := by decide
  obtain ⟨closing, -, replaced⟩ := closingBrace?_closes closed 1
  have moved := (replaced "\x7b a ".toList "\x7b b \x7d".toList " c \x7d d".toList "xy".toList rfl
    (by decide) block (by decide) (by decide)).1 12 found (by decide)
  obtain ⟨-, -, keeps⟩ := closingBrace?_closes opened 1
  have stays := (keeps "\x7b a ".toList "\x7b b \x7d".toList [] "xy".toList rfl
    (by decide) block (by decide) (by decide)).2 missing
  exact ⟨⟨found, (closing 12).mp found, moved⟩, missing, stays⟩

end Clavier
