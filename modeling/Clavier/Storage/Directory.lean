import Clavier.Storage.Path
import Clavier.Text.Quoted

/-!
# Directories

Documents and MIDI files are read from and written to a working folder. It holds
files in folders; a folder exists as long as a file is in it, and the working folder
and the folders around it always exist.

A place is a list of names from the working folder on. Places outside begin with
the name of the parent folder, or with a slash for an absolute path.
-/

set_option autoImplicit false

namespace Clavier

/-- A place in the file system, seen from the working folder. -/
abbrev Place := List Text

/-- The files of a working folder, each at its place. -/
structure Directory where
  files : List (Place × Bytes)
  deriving DecidableEq

/-- Why a file cannot be read or written. -/
inductive FileProblem where
  | noSuchFile
  | notADirectory
  | isADirectory
  | nameTooLong
  deriving DecidableEq

/-- The text that explains why the file of a path cannot be read or written. -/
def FileProblem.message (path : Text) : FileProblem → Text
  | .noSuchFile => "[Errno 2] No such file or directory: ".toList ++ Text.quoted path
  | .notADirectory => "[Errno 20] Not a directory: ".toList ++ Text.quoted path
  | .isADirectory => "[Errno 21] Is a directory: ".toList ++ Text.quoted path
  | .nameTooLong => "[Errno 36] File name too long: ".toList ++ Text.quoted path

namespace Directory

/-- A working folder without files. -/
def empty : Directory := ⟨[]⟩

/-- Whether a place is a folder. -/
def isFolder (directory : Directory) (place : Place) : Bool :=
  place.all (· = Path.parentFolder) || place = [['/']] ||
    directory.files.any fun file => place.isPrefixOf file.1 && place ≠ file.1

/-- The content of the file at a place. -/
def content? (directory : Directory) (place : Place) : Option Bytes :=
  directory.files.lookup place

/-- The folder around a folder. -/
def around (place : Place) : Place :=
  if place = [['/']] then place
  else if place.all (· = Path.parentFolder) then Path.parentFolder :: place
  else place.dropLast

/-- The place that a name leads to from a place. -/
def follow (directory : Directory) (place : Place) (name : Text) : Except FileProblem Place :=
  if !directory.isFolder place then .error .notADirectory
  else if name = [] ∨ name = Path.sameFolder then .ok place
  else if name = Path.parentFolder then .ok (around place)
  else if Path.maxName < Path.byteLength name then .error .nameTooLong
  else
    let next := place ++ [name]
    if directory.isFolder next || (directory.content? next).isSome then .ok next
    else .error .noSuchFile

/-- The place where a path begins. -/
def origin (path : Text) : Place := if path.head? = some '/' then [['/']] else []

/-- The place that some names lead to. -/
def followAll (directory : Directory) (place : Place) (names : List Text) :
    Except FileProblem Place :=
  names.foldlM directory.follow place

/-- Whether a path can be looked up at all. -/
def checkPath (path : Text) : Except FileProblem Unit :=
  if path = [] then .error .noSuchFile
  else if Path.maxPath < Path.byteLength path then .error .nameTooLong
  else .ok ()

/-- The content of the file of a path. -/
def read (directory : Directory) (path : Text) : Except FileProblem Bytes := do
  checkPath path
  let place ← directory.followAll (origin path) (Path.names path)
  match directory.content? place with
  | some content => .ok content
  | none => .error .isADirectory

/-- The directory with a file at a place. -/
def put (directory : Directory) (place : Place) (content : Bytes) : Directory :=
  ⟨(place, content) :: directory.files.filter (·.1 ≠ place)⟩

/-- The directory after the file of a path is written. A path that ends with a slash names
no file. -/
def write (directory : Directory) (path : Text) (content : Bytes) :
    Except FileProblem Directory := do
  checkPath path
  let names := Path.names path
  let named := (names.reverse.dropWhile (· = [])).reverse
  let folder ← directory.followAll (origin path) named.dropLast
  if !directory.isFolder folder then throw .notADirectory
  if named ≠ names then throw .isADirectory
  match directory.follow folder (named.getLast?.getD []) with
  | .ok place => if directory.isFolder place then .error .isADirectory
                 else .ok (directory.put place content)
  | .error .noSuchFile => .ok (directory.put (folder ++ [named.getLast?.getD []]) content)
  | .error problem => .error problem

end Directory

end Clavier
