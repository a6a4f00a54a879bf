import Clavier.Text.Basic

/-!
# Line ends

A document file may end its lines with a line feed, a carriage return, or both.
-/

set_option autoImplicit false

namespace Clavier.Text

/-- A text whose lines all end with a line feed. -/
def unifyLineEnds : Text → Text
  | [] => []
  | '\r' :: '\n' :: rest => '\n' :: unifyLineEnds rest
  | '\r' :: rest => '\n' :: unifyLineEnds rest
  | c :: rest => c :: unifyLineEnds rest

/-- A text without carriage returns is left as it is. -/
theorem unifyLineEnds_of_not_mem {text : Text} (absent : '\r' ∉ text) :
    unifyLineEnds text = text := by
  fun_induction unifyLineEnds text <;> simp_all

end Clavier.Text
