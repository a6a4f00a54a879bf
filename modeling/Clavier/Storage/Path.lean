import Clavier.Text.Utf8

/-!
# Paths

A path is a text of names with slashes between them. Some operations use a path in
its normal form: without empty names and names of a single dot, and with at most
two slashes in front.
-/

set_option autoImplicit false

namespace Clavier.Path

/-- The name that stands for the folder itself. -/
def sameFolder : Text := ['.']

/-- The name that stands for the folder around. -/
def parentFolder : Text := ['.', '.']

/-- The names of a path, empty ones included. -/
def names (path : Text) : List Text := Text.splitOn '/' path

/-- The slashes that a path keeps in front: two if it begins with exactly two. -/
def root (path : Text) : Text :=
  match (path.takeWhile (· = '/')).length with
  | 0 => []
  | 2 => ['/', '/']
  | _ => ['/']

/-- The normal form of a path. -/
def normal (path : Text) : Text :=
  let kept := (names path).filter fun name => name ≠ [] ∧ name ≠ sameFolder
  match root path ++ Text.joinWith ['/'] kept with
  | [] => sameFolder
  | text => text

/-- The number of bytes of a text in a path. -/
def byteLength (text : Text) : Nat := (Utf8.encode text).length

/-- The largest number of bytes of a name. -/
def maxName : Nat := 255

/-- The largest number of bytes of a path. -/
def maxPath : Nat := 4095

end Clavier.Path
