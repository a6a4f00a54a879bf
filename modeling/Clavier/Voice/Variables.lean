import Clavier.Text.Scan
import Clavier.Text.Word
import Clavier.Voice.Block

/-!
# Variables of a document

A definition is a word, an equals sign and a block. Every definition of a document
counts, also inside the block of another one and inside a block that never
closes. The body of a variable is the trimmed text of its block; where a name is
defined more than once, the last definition stands.
-/

set_option autoImplicit false

namespace Clavier

/-- Names with their bodies; of two entries with one name the first stands. -/
abbrev Variables := List (Text × Text)

namespace Variables

/-- The body of a name. -/
def body? (table : Variables) (name : Text) : Option Text := table.lookup name

/-- The body of a name among bodies that are made from other entries. -/
theorem body?_map {α : Type} (known : List (Text × α)) (body : α → Text) (name : Text) :
    body? (known.map fun entry => (entry.1, body entry.2)) name =
      (known.lookup name).map body := by
  induction known with
  | nil => rfl
  | cons entry rest ih =>
      unfold body? at ih ⊢
      rw [List.map_cons, List.lookup_cons, List.lookup_cons, ih]
      split <;> rfl

theorem mem_of_lookup {α : Type} {known : List (Text × α)} {name : Text} {value : α}
    (found : known.lookup name = some value) : (name, value) ∈ known := by
  obtain ⟨before, after, same, -⟩ := List.lookup_eq_some_iff.mp found
  rw [same]
  exact List.mem_append_right before List.mem_cons_self

/-- The names without repetition, each with the body that stands. -/
def entries : Variables → Variables
  | [] => []
  | (name, body) :: rest => (name, body) :: (entries rest).filter (·.1 ≠ name)

/-- A name has the same body among the entries. -/
theorem body?_entries (table : Variables) (name : Text) :
    (entries table).body? name = table.body? name := by
  induction table with
  | nil => rfl
  | cons entry rest ih =>
      obtain ⟨defined, body⟩ := entry
      have others : (entries rest).lookup name = rest.lookup name := ih
      unfold body? entries
      rw [List.lookup_cons, List.lookup_cons]
      split
      · rfl
      · rename_i different
        rw [← others]
        generalize entries rest = found
        induction found with
        | nil => rfl
        | cons head tail step =>
            obtain ⟨other, content⟩ := head
            by_cases same : other = defined
            · subst same
              rw [List.lookup_cons, different, ← step]
              simp
            · simp only [List.filter_cons, ne_eq, same, not_false_eq_true, decide_true, if_true,
                List.lookup_cons]
              rw [step]

/-- The start of a definition: its name, and the text after its opening brace. -/
def definitionAt : Text.Recogniser (Text × Text) := fun _ text =>
  match Text.splitWhile Text.isWord text with
  | ([], _) => none
  | (name, rest) =>
      match Text.trimStart rest with
      | '=' :: rest => (dropOpening? rest).map fun inside => ((name, inside), inside)
      | _ => none

/-- The variables that a document defines. -/
def ofSource (source : Text) : Variables :=
  ((Text.items definitionAt source).filterMap fun (name, inside) =>
    (splitBlock? inside).map fun block => (name, Text.trim block.1)).reverse

end Variables

end Clavier
