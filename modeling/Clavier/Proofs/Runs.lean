import Clavier.Voice.Scan
import Clavier.Voice.Block

/-!
# Maximal runs

Most recognisers read a run of characters of one kind and stop at the first character
of another kind. A run is maximal exactly when what follows it stops the run
(`splitWhile_eq_iff`), and the recognisers that are built on runs (`takeRun?`,
`dropBlanks?`, `dropOpening?`) get the same two-way description.
-/

set_option autoImplicit false

namespace Clavier

namespace Text

variable {test : Char → Bool}

/-- The text does not begin with a character that passes the test. -/
def Stops (test : Char → Bool) (text : Text) : Prop :=
  ∀ c, text.head? = some c → test c = false

@[simp] theorem stops_nil : Stops test [] := fun _ first => by cases first

@[simp] theorem stops_cons {c : Char} {rest : Text} :
    Stops test (c :: rest) ↔ test c = false := by
  simp [Stops]

instance decidableStops : (text : Text) → Decidable (Stops test text)
  | [] => .isTrue stops_nil
  | _ :: _ => decidable_of_iff _ stops_cons.symm

theorem stops_of_append {text rest : Text} (stops : Stops test (text ++ rest)) :
    Stops test text := by
  cases text with
  | nil => exact stops_nil
  | cons c more => exact stops

/-- A nonempty run of characters that fail a test stops it, whatever follows the run. -/
theorem stops_run {run : Text} (nonempty : run ≠ []) (fails : ∀ c ∈ run, test c = false)
    (rest : Text) : Stops test (run ++ rest) := by
  obtain ⟨c, more, rfl⟩ := List.exists_cons_of_ne_nil nonempty
  exact stops_cons.mpr (fails c List.mem_cons_self)

/-- What fails a test is not among characters that pass it. -/
theorem not_mem_of_test {text : Text} {c : Char} (all : ∀ d ∈ text, test d = true)
    (fails : test c = false) : c ∉ text := by
  intro member
  rw [all c member] at fails
  cases fails

/-- **Maximal runs.** A text splits into a run of characters that pass a test and a rest that
stops the run in exactly one way. -/
theorem splitWhile_eq_iff {text run rest : Text} :
    splitWhile test text = (run, rest) ↔
      text = run ++ rest ∧ (∀ c ∈ run, test c = true) ∧ Stops test rest := by
  constructor
  · intro split
    simp only [splitWhile, Prod.mk.injEq] at split
    obtain ⟨rfl, rfl⟩ := split
    refine ⟨List.takeWhile_append_dropWhile.symm, ?_, ?_⟩
    · intro c member
      exact List.all_eq_true.mp List.all_takeWhile c member
    · intro c first
      have stopped := List.head?_dropWhile_not test text
      rw [first] at stopped
      simpa using stopped
  · rintro ⟨rfl, all, stops⟩
    have empty : rest.takeWhile test = [] ∧ rest.dropWhile test = rest := by
      cases rest with
      | nil => exact ⟨rfl, rfl⟩
      | cons c more =>
          rw [stops_cons] at stops
          simp [stops]
    rw [splitWhile, List.takeWhile_append_of_pos all, List.dropWhile_append_of_pos all, empty.1,
      empty.2, List.append_nil]

/-! ## Blanks -/

/-- A text of blanks only. -/
def AllBlank (gap : Text) : Prop := ∀ c ∈ gap, isBlank c = true

theorem trimStart_append {gap rest : Text} (blank : AllBlank gap) (stops : Stops isBlank rest) :
    trimStart (gap ++ rest) = rest :=
  congrArg Prod.snd (splitWhile_eq_iff.mpr ⟨rfl, blank, stops⟩)

/-- Trimming splits off a gap of blanks. -/
theorem exists_gap_of_trimStart (text : Text) :
    ∃ gap, AllBlank gap ∧ text = gap ++ trimStart text ∧ Stops isBlank (trimStart text) := by
  obtain ⟨same, blank, stops⟩ := splitWhile_eq_iff.mp
    (rfl : splitWhile isBlank text = (text.takeWhile isBlank, trimStart text))
  exact ⟨_, blank, same, stops⟩

/-- A text without blanks is trimmed. -/
theorem trim_of_no_blank {text : Text} (noBlank : ∀ c ∈ text, isBlank c = false) :
    trim text = text := by
  have stays : ∀ rest : Text, (∀ c ∈ rest, isBlank c = false) → rest.dropWhile isBlank = rest := by
    intro rest none
    cases rest with
    | nil => rfl
    | cons c more => rw [List.dropWhile_cons_of_neg (by simp [none c List.mem_cons_self])]
  have backwards : ∀ c ∈ text.reverse, isBlank c = false := fun c member =>
    noBlank c (List.mem_reverse.mp member)
  rw [trim, trimStart, stays text noBlank, trimEnd, stays _ backwards, List.reverse_reverse]

/-- **Trimming.** A body that neither begins nor ends with a blank is what trimming leaves of it
between blanks. -/
theorem trim_append {body lead trail : Text} (blank : AllBlank lead) (blank' : AllBlank trail)
    (stops : Stops isBlank body) (stops' : Stops isBlank body.reverse) :
    trim (lead ++ (body ++ trail)) = body := by
  have finish : trimEnd (body ++ trail) = body := by
    have backwards : AllBlank trail.reverse := fun c member => blank' c (List.mem_reverse.mp member)
    have dropped := trimStart_append backwards stops'
    rw [trimStart] at dropped
    rw [trimEnd, List.reverse_append, dropped, List.reverse_reverse]
  cases body with
  | nil =>
      have all : AllBlank (lead ++ trail) := by
        intro c member
        exact (List.mem_append.mp member).elim (blank c) (blank' c)
      have dropped := trimStart_append all stops
      rw [List.append_nil] at dropped
      rw [trim, List.nil_append, dropped]
      rfl
  | cons c more =>
      have stops'' : Stops isBlank (c :: more ++ trail) := stops_cons.mpr (stops_cons.mp stops)
      rw [trim, trimStart_append blank stops'', finish]

/-- What trimming leaves stands between blanks and neither begins nor ends with one. -/
theorem exists_gaps_of_trim (text : Text) :
    ∃ lead trail, AllBlank lead ∧ AllBlank trail ∧ text = lead ++ (trim text ++ trail) ∧
      Stops isBlank (trim text) ∧ Stops isBlank (trim text).reverse := by
  obtain ⟨lead, blank, same, stops⟩ := exists_gap_of_trimStart text
  obtain ⟨trail, blank', same', stops'⟩ := exists_gap_of_trimStart (trimStart text).reverse
  have back : (trim text).reverse = trimStart (trimStart text).reverse := List.reverse_reverse _
  have finish : trimStart text = trim text ++ trail.reverse := by
    rw [← List.reverse_inj, same', List.reverse_append, List.reverse_reverse, back]
  refine ⟨lead, trail.reverse, blank, fun c member => blank' c (List.mem_reverse.mp member),
    ?_, ?_, ?_⟩
  · rw [← finish]
    exact same
  · rw [finish] at stops
    exact stops_of_append stops
  · rwa [back]

/-- One or more blanks are dropped exactly when a nonempty gap begins the text. -/
theorem dropBlanks?_eq_some_iff {text rest : Text} :
    dropBlanks? text = some rest ↔
      ∃ gap, gap ≠ [] ∧ AllBlank gap ∧ text = gap ++ rest ∧ Stops isBlank rest := by
  constructor
  · intro dropped
    cases text with
    | nil => cases dropped
    | cons c more =>
        cases first : isBlank c with
        | false => simp [dropBlanks?, first] at dropped
        | true =>
            simp only [dropBlanks?, first, if_true, Option.some.injEq] at dropped
            obtain ⟨gap, allBlank, same, stops⟩ := exists_gap_of_trimStart more
            rw [dropped] at same stops
            refine ⟨c :: gap, List.cons_ne_nil _ _, ?_, congrArg (c :: ·) same, stops⟩
            intro d member
            rcases List.mem_cons.mp member with rfl | later
            · exact first
            · exact allBlank d later
  · rintro ⟨gap, nonempty, blank, rfl, stops⟩
    obtain ⟨c, more, rfl⟩ := List.exists_cons_of_ne_nil nonempty
    have first : isBlank c = true := blank c List.mem_cons_self
    have trimmed := trimStart_append (fun d member => blank d (List.mem_cons_of_mem c member)) stops
    simp only [List.cons_append, dropBlanks?, first, if_true, trimmed]

end Text

/-- A nonempty run is taken exactly when it begins the text and what follows stops it. -/
theorem takeRun?_eq_some_iff {test : Char → Bool} {text run rest : Text} :
    takeRun? test text = some (run, rest) ↔
      run ≠ [] ∧ text = run ++ rest ∧ (∀ c ∈ run, test c = true) ∧ Text.Stops test rest := by
  rw [← Text.splitWhile_eq_iff]
  unfold takeRun?
  constructor
  · intro taken
    split at taken
    · cases taken
    · rename_i found notEmpty
      rw [Option.some.inj taken] at notEmpty ⊢
      refine ⟨?_, rfl⟩
      rintro rfl
      exact notEmpty rest rfl
  · rintro ⟨nonempty, split⟩
    rw [split]
    cases run with
    | nil => exact absurd rfl nonempty
    | cons c more => rfl

/-- An opening brace is dropped exactly when blanks and the brace begin the text. -/
theorem dropOpening?_eq_some_iff {text rest : Text} :
    dropOpening? text = some rest ↔ ∃ gap, Text.AllBlank gap ∧ text = gap ++ '{' :: rest := by
  have brace : Text.Stops Text.isBlank ('{' :: rest) := Text.stops_cons.mpr rfl
  unfold dropOpening?
  constructor
  · intro dropped
    split at dropped
    · rename_i inside trimmed
      obtain ⟨gap, blank, same, -⟩ := Text.exists_gap_of_trimStart text
      rw [trimmed, Option.some.inj dropped] at same
      exact ⟨gap, blank, same⟩
    · cases dropped
  · rintro ⟨gap, blank, rfl⟩
    rw [Text.trimStart_append blank brace]
    rfl

end Clavier
