import Clavier.Text.Basic

/-!
# Replies

A reply is one line that says whether a request was done. A refusal can end with a
hint on a line of its own.
-/

set_option autoImplicit false

namespace Clavier

/-- The answer to a request. -/
inductive Reply where
  | done (message : Text)
  | refused (message : Text) (hint : Option Text)
  deriving DecidableEq

/-- The text of a reply. -/
def Reply.text : Reply → Text
  | .done message => '+' :: ' ' :: message
  | .refused message (some (c :: hint)) =>
      '!' :: ' ' :: (message ++ "\n  try: ".toList ++ c :: hint)
  | .refused message _ => '!' :: ' ' :: message

end Clavier
