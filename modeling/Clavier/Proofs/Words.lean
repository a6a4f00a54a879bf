import Clavier.Proofs.Braces
import Clavier.Proofs.Runs
import Clavier.Text.Word

/-!
# Words and blanks

No blank is a word character (`isWord_of_isBlank`), so a word ends at the first blank after
it and a run of blanks at the first word. The blanks are few enough to be looked through one
by one. No brace is a word character either (`balanced_of_isWord`).
-/

set_option autoImplicit false

namespace Clavier

/-- The code points of blanks. -/
def blankCodes : List Nat :=
  [9, 10, 11, 12, 13, 28, 29, 30, 31, 32, 0x85, 0xa0, 0x1680] ++
    (List.range 11).map (0x2000 + ·) ++ [0x2028, 0x2029, 0x202f, 0x205f, 0x3000]

theorem isWord_of_blankCodes : ∀ code ∈ blankCodes, Text.isWord (Char.ofNat code) = false := by
  decide +kernel

theorem mem_blankCodes {c : Char} (blank : Text.isBlank c = true) : c.toNat ∈ blankCodes := by
  simp only [Text.isBlank, Text.inRanges, Text.blankRanges, List.any_cons, List.any_nil,
    Bool.or_eq_true, Bool.and_eq_true, decide_eq_true_eq, Bool.or_false] at blank
  simp only [blankCodes, List.mem_append, List.mem_cons, List.mem_map, List.mem_range,
    List.not_mem_nil, or_false]
  rcases blank with ((rfl | ascii) | control) | ⟨-, wide⟩
  · decide
  · omega
  · omega
  · by_cases spaces : 0x2000 ≤ c.toNat ∧ c.toNat ≤ 0x200a
    · exact .inl (.inr ⟨c.toNat - 0x2000, by omega, by omega⟩)
    · omega

/-- Blanks are no word characters. -/
theorem isWord_of_isBlank {c : Char} (blank : Text.isBlank c = true) : Text.isWord c = false := by
  have known := isWord_of_blankCodes _ (mem_blankCodes blank)
  rwa [Char.ofNat_toNat] at known

/-- Word characters are no blanks. -/
theorem isBlank_of_isWord {c : Char} (word : Text.isWord c = true) : Text.isBlank c = false := by
  cases blank : Text.isBlank c with
  | false => rfl
  | true =>
      rw [isWord_of_isBlank blank] at word
      cases word

theorem isWord_equals : Text.isWord '=' = false := by decide +kernel

theorem isWord_newline : Text.isWord '\n' = false := by decide +kernel

theorem isWord_space : Text.isWord ' ' = false := by decide +kernel

/-- No brace is a word character, so words are balanced. -/
theorem balanced_of_isWord {text : Text} (word : ∀ c ∈ text, Text.isWord c = true) :
    Balanced text :=
  balanced_of_no_brace (Text.not_mem_of_test word (by decide +kernel))
    (Text.not_mem_of_test word (by decide +kernel))

theorem allBlank_space : Text.AllBlank [' '] := by
  intro c member
  rw [List.mem_singleton.mp member]
  rfl

/-- A single blank is dropped in front of a run without blanks. -/
theorem Text.dropBlanks?_space {run : Text} (nonempty : run ≠ [])
    (noBlank : ∀ c ∈ run, isBlank c = false) (rest : Text) :
    dropBlanks? (' ' :: (run ++ rest)) = some (run ++ rest) :=
  dropBlanks?_eq_some_iff.mpr ⟨[' '], List.cons_ne_nil _ _, allBlank_space, rfl,
    stops_run nonempty noBlank rest⟩

/-- With one more separator in front, words with a separator between them have one before each. -/
theorem Text.cons_joinWith (separator : Char) {words : List Text} (nonempty : words ≠ []) :
    separator :: joinWith [separator] words = words.flatMap (separator :: ·) := by
  obtain ⟨word, more, rfl⟩ := List.exists_cons_of_ne_nil nonempty
  induction more generalizing word with
  | nil => simp [joinWith]
  | cons next others ih =>
      rw [List.flatMap_cons, ← ih next (List.cons_ne_nil _ _)]
      simp [joinWith]

/-- A nonempty run of word characters. -/
structure Word where
  text : Text
  nonempty : text ≠ []
  word : ∀ c ∈ text, Text.isWord c = true

end Clavier
