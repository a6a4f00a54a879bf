import Clavier.Proofs.BlockReadings

/-!
# Title and composer among other fields

A header is made of fields, each with a name and a quoted value on a line of its own. The title and
the composer are looked for by their names, wherever these stand. What is found begins at the end of
the name of a line (`eq_of_fieldAt`), but it need not be the whole name: `subtitle` ends in `title`.
So the scan for a field finds the values of all fields whose names end in its name
(`items_headerText`), and the first of them is taken (`ofSource_headerText`).
-/

set_option autoImplicit false

namespace Clavier

/-- A field of any name with a quoted value. -/
structure HeaderField where
  name : Word
  value : Text
  nonempty : value ≠ []
  noQuote : '"' ∉ value
  noEquals : '=' ∉ value

namespace HeaderField

variable (field : HeaderField) (wanted : Field)

/-- What stands after the equals sign of a field. -/
def quoted : Text := ' ' :: '"' :: (field.value ++ ['"'])

/-- A field as it is written. -/
def text : Text := field.name.text ++ [' ', '='] ++ field.quoted

theorem noEquals_quoted : '=' ∉ field.quoted := by
  simp only [quoted, List.mem_cons, List.mem_append, List.not_mem_nil, or_false, not_or]
  exact ⟨by decide, by decide, field.noEquals, by decide⟩

/-- Whether the name of a field ends in the name of a wanted field. -/
def EndsIn : Prop := wanted.name <:+ field.name.text

instance : Decidable (field.EndsIn wanted) :=
  inferInstanceAs (Decidable (wanted.name <:+ field.name.text))

/-- Whether a field has the name of a wanted field. -/
def IsNamed : Prop := field.name.text = wanted.name

instance : Decidable (field.IsNamed wanted) :=
  inferInstanceAs (Decidable (field.name.text = wanted.name))

variable {field wanted} in
theorem IsNamed.endsIn (named : field.IsNamed wanted) : field.EndsIn wanted :=
  ⟨[], named.symm⟩

end HeaderField

/-- Some fields, each on a line of its own. -/
def headerText (fields : List HeaderField) : Text :=
  Text.joinWith ['\n'] (fields.map HeaderField.text)

/-- Some fields, each on a new line. -/
def newLines (fields : List HeaderField) : Text := fields.flatMap fun field => '\n' :: field.text

theorem beginsLine_newLines (fields : List HeaderField) : BeginsLine (newLines fields) := by
  cases fields with
  | nil => exact .done
  | cons field rest =>
      have line := BeginsLine.line field.name (field.quoted ++ newLines rest)
      rw [newLines, List.flatMap_cons, HeaderField.text, List.cons_append, List.append_assoc,
        List.append_assoc]
      exact line

/-! ## What is found in a line -/

section Lines

variable {wanted : Field}

theorem looksAhead_fieldAt (name : Text) : Text.LooksAhead (fieldAt name) := fun _ _ => rfl

/-- What is found up to the equals sign of a field begins with the end of its name. -/
theorem eq_of_fieldAt {field : HeaderField} {c : Char} {more rest : Text} {found : Text × Text}
    (here : fieldAt wanted.name none (c :: (more ++ rest)) = some found)
    (place : c :: more <:+ field.name.text ++ [' ', '=']) :
    field.EndsIn wanted ∧ c :: more = wanted.name ++ [' ', '='] := by
  obtain ⟨value, -, assigns, -⟩ := exists_assignsAt_of_fieldAt here
  obtain ⟨suffix, same, -⟩ := assigns.of_line field.name place
  exact ⟨suffix, same⟩

/-- Nothing is found after the equals sign of a field. -/
theorem fieldAt_quoted (field : HeaderField) {tail : Text} (line : BeginsLine tail) {c : Char}
    {more : Text} (place : c :: more <:+ field.quoted) :
    fieldAt wanted.name none (c :: (more ++ tail)) = none := by
  cases here : fieldAt wanted.name none (c :: (more ++ tail)) with
  | none => rfl
  | some found =>
      obtain ⟨value, -, assigns, -⟩ := exists_assignsAt_of_fieldAt here
      have clean : '=' ∉ c :: more := fun member => field.noEquals_quoted (place.mem member)
      exact absurd assigns (not_assignsAt_stretch clean line)

/-- Nothing is found in a name before the wanted name at its end. -/
theorem fieldAt_front {field : HeaderField} {front : Text}
    (name : front ++ wanted.name = field.name.text) {c : Char} {more : Text}
    (place : c :: more <:+ front) (rest : Text) :
    fieldAt wanted.name none (c :: (more ++ (wanted.name ++ [' ', '='] ++ rest))) = none := by
  cases here : fieldAt wanted.name none
      (c :: (more ++ (wanted.name ++ [' ', '='] ++ rest))) with
  | none => rfl
  | some found =>
      obtain ⟨before, same⟩ := place
      have inLine : c :: (more ++ (wanted.name ++ [' ', '='])) <:+ field.name.text ++ [' ', '='] :=
        ⟨before, by rw [← name, ← same, List.append_assoc, List.append_assoc, List.cons_append]⟩
      rw [← List.append_assoc] at here
      -- what is found there is just the wanted name, but the whole name is still to come
      have lengths := congrArg List.length (eq_of_fieldAt here inLine).2
      rw [List.length_cons, List.length_append] at lengths
      omega

/-- A field whose name ends in the wanted name is found by that end, with its value. -/
theorem items_line_of_endsIn {field : HeaderField} (ends : field.EndsIn wanted) (tail : Text) :
    Text.items (fieldAt wanted.name) (field.text ++ tail) =
      field.value :: Text.items (fieldAt wanted.name) tail := by
  obtain ⟨front, name⟩ := ends
  have whole : field.text ++ tail =
      front ++ (wanted.name ++ [' ', '='] ++ field.quoted ++ tail) := by
    simp only [HeaderField.text, ← name, List.append_assoc]
  have here : fieldAt wanted.name none (wanted.name ++ [' ', '='] ++ field.quoted ++ tail) =
      some (field.value, tail) := by
    refine fieldAt_eq_some_iff.mpr ⟨field.nonempty, field.noQuote, [' '], [' '], allBlank_space,
      allBlank_space, ?_⟩
    simp [HeaderField.quoted]
  have missing : ∀ c more, c :: more <:+ front → fieldAt wanted.name none
      (c :: (more ++ (wanted.name ++ [' ', '='] ++ field.quoted ++ tail))) = none := by
    intro c more place
    rw [List.append_assoc _ field.quoted]
    exact fieldAt_front name place (field.quoted ++ tail)
  have nonempty : wanted.name ++ [' ', '='] ++ field.quoted ≠ [] := by simp
  rw [whole, (looksAhead_fieldAt _).items_append_plain missing,
    (looksAhead_fieldAt _).items_of_item nonempty here]

/-- A field whose name does not end in the wanted name is not found. -/
theorem items_line_of_not_endsIn {field : HeaderField} (other : ¬field.EndsIn wanted) {tail : Text}
    (line : BeginsLine tail) :
    Text.items (fieldAt wanted.name) (field.text ++ tail) =
      Text.items (fieldAt wanted.name) tail := by
  refine (looksAhead_fieldAt _).items_append_plain fun c more place => ?_
  obtain ⟨front, whole⟩ := place
  rcases List.append_eq_append_iff.mp whole with ⟨later, name, rest⟩ | ⟨later, -, rest⟩
  · cases later with
    | nil => exact fieldAt_quoted field line ⟨[], rest⟩
    | cons d more' =>
        obtain ⟨rfl, rfl⟩ := List.cons.inj rest
        cases here : fieldAt wanted.name none (c :: (more' ++ field.quoted ++ tail)) with
        | none => rfl
        | some found =>
            rw [List.append_assoc] at here
            exact absurd (eq_of_fieldAt here ⟨front, name.symm⟩).1 other
  · exact fieldAt_quoted field line ⟨later, rest.symm⟩

/-- No field begins at the end of a line. -/
theorem items_newline (text : Text) :
    Text.items (fieldAt wanted.name) ('\n' :: text) = Text.items (fieldAt wanted.name) text := by
  have missing : fieldAt wanted.name none ('\n' :: text) = none := by
    cases here : fieldAt wanted.name none ('\n' :: text) with
    | none => rfl
    | some found =>
        obtain ⟨value, -, assigns, -⟩ := exists_assignsAt_of_fieldAt here
        exact absurd assigns.head_isWord (isWord_newline ▸ Bool.false_ne_true)
  rw [Text.items, (looksAhead_fieldAt _).pieces_of_none missing]
  rfl

theorem items_newLines (wanted : Field) (fields : List HeaderField) :
    Text.items (fieldAt wanted.name) (newLines fields) =
      (fields.filter fun field => field.EndsIn wanted).map HeaderField.value := by
  induction fields with
  | nil => rfl
  | cons field rest ih =>
      rw [newLines, List.flatMap_cons, List.cons_append, items_newline, List.filter_cons]
      by_cases ends : field.EndsIn wanted
      · rw [if_pos (decide_eq_true ends), List.map_cons, ← ih]
        exact items_line_of_endsIn ends (newLines rest)
      · rw [if_neg (by rwa [decide_eq_true_eq]), ← ih]
        exact items_line_of_not_endsIn ends (beginsLine_newLines rest)

/-- **Scanning a header.** The scan for a field finds the values of the fields whose names end in
its name, in their order. -/
theorem items_headerText (wanted : Field) (fields : List HeaderField) :
    Text.items (fieldAt wanted.name) (headerText fields) =
      (fields.filter fun field => field.EndsIn wanted).map HeaderField.value := by
  rw [← items_newLines]
  cases fields with
  | nil => rfl
  | cons field rest =>
      have lines := Text.cons_joinWith '\n'
        (List.cons_ne_nil field.text (rest.map HeaderField.text))
      rw [← List.map_cons, List.flatMap_map] at lines
      rw [newLines, ← lines, items_newline]
      rfl

end Lines

/-! ## Title and composer -/

/-- The value of the first field whose name ends in the name of a wanted field. -/
def firstEnding? (wanted : Field) (fields : List HeaderField) : Option Text :=
  (fields.find? fun field => field.EndsIn wanted).map HeaderField.value

/-- The value of the field that has the name of a wanted field. -/
def firstNamed? (wanted : Field) (fields : List HeaderField) : Option Text :=
  (fields.find? fun field => field.IsNamed wanted).map HeaderField.value

theorem firstField?_headerText (wanted : Field) (fields : List HeaderField) :
    firstField? wanted.name (headerText fields) = firstEnding? wanted fields := by
  rw [firstField?, Text.firstItem?_fst, items_headerText, List.head?_map, List.head?_filter]
  rfl

/-- **Title and composer of a header.** The title is the value of the first field whose name ends in
`title`, and the composer that of the first whose name ends in `composer`. Either is the value of
the field that is named just so, and absent without such a field, if no other name ends in the
word. -/
theorem ofSource_headerText (fields : List HeaderField) :
    Metadata.ofSource (headerText fields) =
        ⟨firstEnding? .title fields, firstEnding? .composer fields⟩ ∧
      ∀ wanted : Field, (∀ field ∈ fields, field.EndsIn wanted → field.IsNamed wanted) →
        firstEnding? wanted fields = firstNamed? wanted fields := by
  refine ⟨?_, fun wanted clear => ?_⟩
  · rw [← firstField?_headerText, ← firstField?_headerText]
    rfl
  · have same : ∀ field ∈ fields, decide (field.EndsIn wanted) = decide (field.IsNamed wanted) := by
      intro field member
      exact decide_eq_decide.mpr ⟨clear field member, HeaderField.IsNamed.endsIn⟩
    rw [firstEnding?, firstNamed?, ← List.head?_filter, ← List.head?_filter, List.filter_congr same]

/-- A subtitle before the fields of a piece. -/
def subtitled : List HeaderField :=
  [⟨⟨"subtitle".toList, by decide, List.all_eq_true.mp (by decide)⟩, "First Book".toList,
      by decide, by decide, by decide⟩,
    ⟨⟨"composer".toList, by decide, List.all_eq_true.mp (by decide)⟩, "Bach".toList,
      by decide, by decide, by decide⟩,
    ⟨⟨"title".toList, by decide, List.all_eq_true.mp (by decide)⟩, "Minuet".toList,
      by decide, by decide, by decide⟩]

theorem ofSource_subtitled :
    Metadata.ofSource (headerText subtitled) = ⟨"First Book".toList, "Bach".toList⟩ ∧
      (∀ field ∈ subtitled, field.EndsIn .composer → field.IsNamed .composer) ∧
        firstNamed? .composer subtitled = some "Bach".toList := by
  obtain ⟨found, named⟩ := ofSource_headerText subtitled
  have clear : ∀ field ∈ subtitled, field.EndsIn .composer → field.IsNamed .composer := by decide
  exact ⟨found, clear, (named .composer clear).symm⟩

/-- Not every header has the title and the composer that its fields name. -/
theorem not_forall_ofSource_headerText :
    ¬∀ fields : List HeaderField, (fields.map fun field => field.name.text).Nodup →
      Metadata.ofSource (headerText fields) =
        ⟨firstNamed? .title fields, firstNamed? .composer fields⟩ := by
  intro exact
  have named := congrArg Metadata.title (exact subtitled (by decide))
  have found := firstField?_headerText .title subtitled
  exact absurd (found.symm.trans named) (by decide)

end Clavier
