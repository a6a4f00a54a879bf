import Clavier.Proofs.Braces
import Clavier.Proofs.Runs
import Clavier.Proofs.Scanning

/-!
# Texts without their comments

A comment begins with a percent sign and goes on to the end of its line. Induction over a text
goes from comment to comment (`comment_induction`).

Taking out the comments of a text and of what follows it gives the same as taking out the
comments of both together, provided that every comment of the text ends in it (`bare_append`).
Such a text keeps its last character, so its body stays the same when it is trimmed
(`trim_bare`). Comments without braces hide nothing from the search for a closing brace
(`splitBlock?_bare`).
-/

set_option autoImplicit false

namespace Clavier

/-- Only a percent sign begins a comment. -/
theorem commentAt_of_ne {c : Char} (other : c ≠ '%') (before : Option Char) (more : Text) :
    commentAt before (c :: more) = none := by
  unfold commentAt
  split
  · rename_i same
    exact absurd (List.cons.inj same).1 other
  · rfl

theorem commentAt_ahead : Text.LooksAhead commentAt := fun _ _ => rfl

namespace Text

/-! ## Comments -/

/-- A text without its comments. -/
def bare (text : Text) : Text := without commentAt text

/-- A percent sign and the rest of its line, and what follows them in a text. -/
structure HasComment (text inside after : Text) : Prop where
  place : '%' :: (inside ++ after) <:+ text
  line : '\n' ∉ inside
  stops : Stops (· ≠ '\n') after

/-- Every comment ends at a line end of the text. -/
def Ended (text : Text) : Prop := ∀ inside, ¬ HasComment text inside []

variable {text front rest inside after : Text}

/-- The rest of a line, and what follows it. -/
theorem exists_line (text : Text) :
    ∃ inside after, text = inside ++ after ∧ '\n' ∉ inside ∧ Stops (· ≠ '\n') after := by
  obtain ⟨same, line, stops⟩ := splitWhile_eq_iff.mp
    (rfl : splitWhile (· ≠ '\n') text = (text.takeWhile (· ≠ '\n'), text.dropWhile (· ≠ '\n')))
  exact ⟨_, _, same, not_mem_of_test line rfl, stops⟩

theorem splitWhile_line (line : '\n' ∉ inside) (stops : Stops (· ≠ '\n') after) :
    splitWhile (· ≠ '\n') (inside ++ after) = (inside, after) := by
  have passes : ∀ c ∈ inside, decide (c ≠ '\n') = true := by
    intro c member
    exact decide_eq_true (ne_of_mem_of_not_mem member line)
  exact splitWhile_eq_iff.mpr ⟨rfl, passes, stops⟩

/-- **Induction from comment to comment.** -/
@[elab_as_elim]
theorem comment_induction {motive : Text → Prop} (nil : motive [])
    (plain : ∀ c rest, c ≠ '%' → motive rest → motive (c :: rest))
    (comment : ∀ inside after, '\n' ∉ inside → Stops (· ≠ '\n') after → motive after →
      motive ('%' :: (inside ++ after)))
    (text : Text) : motive text := by
  induction length : text.length using Nat.strongRecOn generalizing text with
  | ind n ih =>
      cases text with
      | nil => exact nil
      | cons c rest =>
          by_cases sign : c = '%'
          · subst sign
            obtain ⟨inside, after, rfl, line, stops⟩ := exists_line rest
            refine comment inside after line stops (ih _ ?_ after rfl)
            simp only [List.length_cons, List.length_append] at length
            omega
          · refine plain c rest sign (ih _ ?_ rest rfl)
            rw [← length]
            exact Nat.lt_succ_self _

@[simp] theorem bare_nil : bare [] = [] := rfl

theorem bare_cons {c : Char} (other : c ≠ '%') (rest : Text) : bare (c :: rest) = c :: bare rest :=
  commentAt_ahead.without_cons (commentAt_of_ne other none rest)

theorem bare_comment (line : '\n' ∉ inside) (stops : Stops (· ≠ '\n') after) :
    bare ('%' :: (inside ++ after)) = bare after := by
  have split := splitWhile_line line stops
  have found : commentAt none (('%' :: inside) ++ after) = some ((), after) :=
    congrArg some (congrArg (((), ·)) (congrArg Prod.snd split))
  exact commentAt_ahead.without_item (List.cons_ne_nil _ _) found

/-- What is left holds no percent sign. -/
theorem not_mem_bare (text : Text) : '%' ∉ bare text := by
  induction text using comment_induction with
  | nil => exact List.not_mem_nil
  | plain c rest other ih =>
      rw [bare_cons other, List.mem_cons, not_or]
      exact ⟨Ne.symm other, ih⟩
  | comment inside after line stops ih =>
      rwa [bare_comment line stops]

theorem bare_of_not_mem (noComment : '%' ∉ text) : bare text = text :=
  without_eq fun before _ more member =>
    commentAt_of_ne (ne_of_mem_of_not_mem member noComment) before more

@[simp] theorem bare_bare (text : Text) : bare (bare text) = bare text :=
  bare_of_not_mem (not_mem_bare text)

theorem mem_of_mem_bare {c : Char} (member : c ∈ bare text) : c ∈ text := by
  obtain ⟨piece, inside, same⟩ := List.mem_filterMap.mp member
  cases piece with
  | plain d => exact mem_of_plain_mem (Option.some.inj same ▸ inside)
  | item value => cases same

theorem length_bare_le (text : Text) : (bare text).length ≤ text.length := by
  induction text using comment_induction with
  | nil => exact Nat.le_refl _
  | plain c rest other ih =>
      rw [bare_cons other]
      exact Nat.succ_le_succ ih
  | comment inside after line stops ih =>
      rw [bare_comment line stops, List.length_cons, List.length_append]
      omega

/-- What stops a run stops it without its comments too, if a line end stops it. -/
theorem stops_bare {test : Char → Bool} (lineEnd : test '\n' = false) (stops : Stops test text) :
    Stops test (bare text) := by
  induction text using comment_induction with
  | nil => exact stops_nil
  | plain c rest other ih =>
      rw [bare_cons other]
      exact stops_cons.mpr (stops_cons.mp stops)
  | comment inside after line stops' ih =>
      rw [bare_comment line stops']
      cases after with
      | nil => exact stops_nil
      | cons c more =>
          have same : c = '\n' := by simpa using stops_cons.mp stops'
          rw [same] at ih ⊢
          exact ih (stops_cons.mpr lineEnd)

/-! ## Comments that end -/

theorem HasComment.of_suffix (found : HasComment text inside after) (suffix : text <:+ front) :
    HasComment front inside after :=
  ⟨found.place.trans suffix, found.line, found.stops⟩

theorem Ended.suffix (ended : Ended front) (suffix : text <:+ front) : Ended text :=
  fun inside found => ended inside (found.of_suffix suffix)

theorem ended_of_not_mem (noComment : '%' ∉ text) : Ended text :=
  fun _ found => noComment (found.place.mem List.mem_cons_self)

theorem Ended.append (first : Ended front) (second : Ended rest) : Ended (front ++ rest) := by
  rintro inside ⟨⟨before, same⟩, line, stops⟩
  rw [List.append_nil] at same
  rcases List.append_eq_append_iff.mp same with ⟨tail, here, split⟩ | ⟨gap, -, later⟩
  · cases tail with
    | nil =>
        refine second inside ⟨?_, line, stops⟩
        rw [List.append_nil, split]
        exact List.suffix_refl _
    | cons c start =>
        obtain ⟨rfl, rfl⟩ := List.cons.inj split
        refine first start ⟨?_, fun member => line (List.mem_append_left _ member), stops_nil⟩
        rw [List.append_nil, here]
        exact List.suffix_append _ _
  · refine second inside ⟨?_, line, stops⟩
    rw [List.append_nil, later]
    exact List.suffix_append _ _

/-- What ends its comments after a line end does so with anything before the line end. -/
theorem Ended.after_line (ended : Ended rest) (front : Text) : Ended (front ++ '\n' :: rest) := by
  rintro inside ⟨⟨before, same⟩, line, stops⟩
  rw [List.append_nil] at same
  rcases List.append_eq_append_iff.mp same with ⟨tail, -, split⟩ | ⟨gap, -, later⟩
  · cases tail with
    | nil => cases split
    | cons c start =>
        refine line ?_
        rw [(List.cons.inj split).2]
        exact List.mem_append_right _ List.mem_cons_self
  · cases gap with
    | nil => cases later
    | cons c start =>
        refine ended inside ⟨?_, line, stops⟩
        rw [List.append_nil, (List.cons.inj later).2]
        exact List.suffix_append _ _

/-- A comment that ends in a text is a comment of every longer text. -/
theorem HasComment.append (found : HasComment front inside after) (nonempty : after ≠ [])
    (rest : Text) : HasComment (front ++ rest) inside (after ++ rest) := by
  obtain ⟨⟨before, rfl⟩, line, stops⟩ := found
  obtain ⟨c, more, rfl⟩ := List.exists_cons_of_ne_nil nonempty
  refine ⟨⟨before, ?_⟩, line, stops_cons.mpr (stops_cons.mp stops)⟩
  simp only [List.append_assoc, List.cons_append]

/-- The comments of a text end before a character that is no line end and stands in no comment. -/
theorem ended_of_append {c : Char} (other : c ≠ '\n')
    (absent : ∀ inside after, HasComment (front ++ c :: rest) inside after → c ∉ inside) :
    Ended front := by
  rintro inside ⟨⟨before, rfl⟩, line, -⟩
  obtain ⟨tail, after, same, line', stops⟩ := exists_line rest
  refine absent (inside ++ c :: tail) after ⟨⟨before, ?_⟩, ?_, stops⟩ ?_
  · simp only [same, List.append_assoc, List.cons_append, List.append_nil]
  · simp only [List.mem_append, List.mem_cons, not_or]
    exact ⟨line, Ne.symm other, line'⟩
  · exact List.mem_append_right _ List.mem_cons_self

/-- **Taking out comments part by part.** -/
theorem bare_append (ended : Ended front) (rest : Text) :
    bare (front ++ rest) = bare front ++ bare rest := by
  induction front using comment_induction with
  | nil => rfl
  | plain c more other ih =>
      rw [List.cons_append, bare_cons other, bare_cons other, ih (ended.suffix (List.suffix_cons c more))]
      rfl
  | comment inside after line stops ih =>
      have later : Ended after := ended.suffix ⟨'%' :: inside, rfl⟩
      cases after with
      | nil => exact absurd ⟨List.suffix_refl _, line, stops⟩ (ended inside)
      | cons c more =>
          have stops' : Stops (· ≠ '\n') (c :: more ++ rest) := stops
          rw [List.cons_append, List.append_assoc, bare_comment line stops', ih later,
            bare_comment line stops]

/-- A run of characters that stand in no comment is the same without the comments. -/
theorem splitWhile_bare {test : Char → Bool} (sign : test '%' = false) (lineEnd : test '\n' = false)
    {run : Text} (split : splitWhile test text = (run, rest)) :
    splitWhile test (bare text) = (run, bare rest) := by
  obtain ⟨rfl, passes, stops⟩ := splitWhile_eq_iff.mp split
  have noComment := not_mem_of_test passes sign
  rw [bare_append (ended_of_not_mem noComment), bare_of_not_mem noComment]
  exact splitWhile_eq_iff.mpr ⟨rfl, passes, stops_bare lineEnd stops⟩

/-- A text whose comments end keeps its last character. -/
theorem getLast?_bare (ended : Ended text) : (bare text).getLast? = text.getLast? := by
  induction text using comment_induction with
  | nil => rfl
  | plain c rest other ih =>
      rw [bare_cons other, List.getLast?_cons, List.getLast?_cons,
        ih (ended.suffix (List.suffix_cons c rest))]
  | comment inside after line stops ih =>
      cases after with
      | nil => exact absurd ⟨List.suffix_refl _, line, stops⟩ (ended inside)
      | cons c more =>
          rw [bare_comment line stops, ih (ended.suffix ⟨'%' :: inside, rfl⟩), ← List.cons_append,
            List.getLast?_append, List.getLast?_cons, Option.some_or]

/-- A text that begins with no comment keeps its first character. -/
theorem head?_bare (noComment : text.head? ≠ some '%') : (bare text).head? = text.head? := by
  cases text with
  | nil => rfl
  | cons c rest =>
      have other : c ≠ '%' := by
        rintro rfl
        exact noComment rfl
      rw [bare_cons other]
      rfl

/-- **Trimming around comments.** Where what is left of a text begins with no comment and ends all
of its comments, it is trimmed before its comments are taken out as it is after. -/
theorem trim_bare (ended : Ended (trim text)) (noComment : (trim text).head? ≠ some '%') :
    trim (bare text) = bare (trim text) := by
  obtain ⟨lead, trail, blank, blank', same, stops, stops'⟩ := exists_gaps_of_trim text
  have noSign : ∀ {gap}, AllBlank gap → '%' ∉ gap := fun blank => not_mem_of_test blank rfl
  have split : bare text = lead ++ (bare (trim text) ++ trail) := by
    refine (congrArg bare same).trans ?_
    rw [bare_append (ended_of_not_mem (noSign blank)), bare_append ended,
      bare_of_not_mem (noSign blank), bare_of_not_mem (noSign blank')]
  rw [split]
  refine trim_append blank blank' ?_ ?_
  · intro c first
    exact stops c (by rwa [head?_bare noComment] at first)
  · intro c first
    rw [List.head?_reverse, getLast?_bare ended, ← List.head?_reverse] at first
    exact stops' c first

end Text

/-! ## Braces around comments -/

/-- No comment of a text holds a brace. -/
def Text.BraceFree (text : Text) : Prop :=
  ∀ inside after, Text.HasComment text inside after → '{' ∉ inside ∧ '}' ∉ inside

section Braces

variable {text body rest : Text}

theorem Text.BraceFree.suffix {front : Text} (free : Text.BraceFree front) (suffix : text <:+ front) :
    Text.BraceFree text :=
  fun inside after found => free inside after (found.of_suffix suffix)

/-- Comments without braces hide no closing brace. -/
theorem splitBlocks?_bare (free : Text.BraceFree text) (depth : Nat) :
    splitBlocks? depth (Text.bare text) =
      (splitBlocks? depth text).map fun found => (Text.bare found.1, Text.bare found.2) := by
  induction text using Text.comment_induction generalizing depth with
  | nil => rfl
  | plain c rest other ih =>
      have later := ih (free.suffix (List.suffix_cons c rest))
      rw [Text.bare_cons other, splitBlocks?_cons, splitBlocks?_cons]
      cases depthStep? depth c with
      | none => rfl
      | some depth =>
          simp only [later, Option.map_map]
          refine congrArg (Option.map · _) (funext fun found => ?_)
          exact congrArg (·, Text.bare found.2) (Text.bare_cons other found.1).symm
  | comment inside after line stops ih =>
      have later := ih (free.suffix ⟨'%' :: inside, rfl⟩) depth
      obtain ⟨noOpening, noClosing⟩ := free inside after ⟨List.suffix_refl _, line, stops⟩
      have passed : depthAfter? depth ('%' :: inside) = some depth :=
        depthAfter?_of_no_brace (by simpa using noOpening) (by simpa using noClosing) depth
      rw [Text.bare_comment line stops, later, ← List.cons_append, splitBlocks?_append passed,
        Option.map_map]
      refine Option.map_congr fun found member => ?_
      have front : Text.Stops (· ≠ '\n') found.1 :=
        Text.stops_of_append (eq_append_of_splitBlocks? member ▸ stops)
      exact congrArg (·, Text.bare found.2) (Text.bare_comment line front).symm

/-- **Blocks around comments.** Without its comments, a block closes at the same brace. -/
theorem splitBlock?_bare (free : Text.BraceFree text) :
    splitBlock? (Text.bare text) =
      (splitBlock? text).map fun found => (Text.bare found.1, Text.bare found.2) :=
  splitBlocks?_bare free 0

/-- The comments in a block end before its closing brace. -/
theorem ended_of_closing (free : Text.BraceFree (body ++ '}' :: rest)) : Text.Ended body :=
  Text.ended_of_append (by decide) fun inside after found => (free inside after found).2

end Braces

end Clavier
