import Clavier.Text.Scan

/-!
# Scanning part by part

A scan looks at every place of a text, so a text can only be scanned in parts where
no item crosses the border between them.

A stretch in which nothing is recognised yields its own characters
(`piecesFrom_append_plain`). A separator is a character that no item contains and
that looks like the start of the text to whatever follows it; what a scan finds
before a separator and after it is what it finds in the two parts
(`Separates.pieces_append`).
-/

set_option autoImplicit false

namespace Clavier.Text

variable {α : Type} {recognise : Recogniser α}

/-! ## Stretches without items -/

/-- A scan depends on the character before it only through the first place. -/
theorem piecesFrom_before {first second : Option Char} {text : Text}
    (same : recognise first text = recognise second text) :
    piecesFrom recognise first 0 text = piecesFrom recognise second 0 text := by
  cases text with
  | nil => rfl
  | cons c rest => simp only [piecesFrom, same]

/-- **Scanning past a stretch.** Where no place of a stretch begins an item, the scan yields the
characters of the stretch and goes on after it. -/
theorem piecesFrom_append_plain {run rest : Text} (before : Option Char)
    (missing : ∀ before c more, c :: more <:+ run → recognise before (c :: (more ++ rest)) = none) :
    piecesFrom recognise before 0 (run ++ rest) =
      run.map .plain ++ piecesFrom recognise (run.getLast?.or before) 0 rest := by
  induction run generalizing before with
  | nil => rfl
  | cons c more ih =>
      have here := missing before c more (List.suffix_refl _)
      have later := ih (some c) fun before d tail suffix =>
        missing before d tail (suffix.trans (List.suffix_cons c more))
      have last : more.getLast?.or (some c) = (c :: more).getLast?.or before := by
        cases more with
        | nil => rfl
        | cons d tail => simp [List.getLast?_cons]
      rw [List.cons_append, piecesFrom_of_none here, later, last]
      rfl

/-- A text in which no place begins an item yields its characters. -/
theorem pieces_eq_map_plain {text : Text}
    (missing : ∀ before c more, c :: more <:+ text → recognise before (c :: more) = none) :
    pieces recognise text = text.map .plain := by
  have whole : piecesFrom recognise none 0 (text ++ []) =
      text.map .plain ++ piecesFrom recognise (text.getLast?.or none) 0 [] :=
    piecesFrom_append_plain none fun before c more suffix => by
      simpa using missing before c more suffix
  simpa [pieces, piecesFrom] using whole

/-! ## Recognisers that only look ahead -/

/-- A recogniser that does not look at the character before a place. -/
def LooksAhead (recognise : Recogniser α) : Prop :=
  ∀ before text, recognise before text = recognise none text

namespace LooksAhead

variable (ahead : LooksAhead recognise)
include ahead

theorem piecesFrom_eq (before : Option Char) (text : Text) :
    piecesFrom recognise before 0 text = pieces recognise text :=
  piecesFrom_before (ahead before text)

theorem pieces_of_none {c : Char} {rest : Text} (missing : recognise none (c :: rest) = none) :
    pieces recognise (c :: rest) = .plain c :: pieces recognise rest := by
  rw [pieces, piecesFrom_of_none missing, ahead.piecesFrom_eq]

theorem pieces_of_item {source rest : Text} {value : α} (nonempty : source ≠ [])
    (found : recognise none (source ++ rest) = some (value, rest)) :
    pieces recognise (source ++ rest) = .item value :: pieces recognise rest := by
  obtain ⟨c, taken, rfl⟩ := List.exists_cons_of_ne_nil nonempty
  rw [pieces, piecesFrom_of_item found, ahead.piecesFrom_eq]

/-- A stretch in which no character begins an item, whatever follows it. -/
theorem pieces_stretch {run : Text} (missing : ∀ c ∈ run, ∀ more, recognise none (c :: more) = none)
    (rest : Text) : pieces recognise (run ++ rest) = run.map .plain ++ pieces recognise rest := by
  induction run with
  | nil => rfl
  | cons c more ih =>
      rw [List.cons_append, ahead.pieces_of_none (missing c List.mem_cons_self _),
        ih fun d member => missing d (List.mem_cons_of_mem c member)]
      rfl

end LooksAhead

/-! ## What a scan yields -/

theorem mem_filterMap_item? {pieces : List (Piece α)} {value : α} :
    value ∈ pieces.filterMap Piece.item? ↔ .item value ∈ pieces := by
  rw [List.mem_filterMap]
  constructor
  · rintro ⟨piece, member, same⟩
    cases piece with
    | plain c => cases same
    | item other => cases same; exact member
  · intro member
    exact ⟨_, member, rfl⟩

/-- Every item of a scan is recognised at some place of the text. -/
theorem exists_suffix_of_item_mem {before : Option Char} {skip : Nat} {text : Text} {value : α}
    (member : .item value ∈ piecesFrom recognise before skip text) :
    ∃ before rest after, rest <:+ text ∧ recognise before rest = some (value, after) := by
  fun_induction piecesFrom recognise before skip text with
  | case1 => cases member
  | case2 _ _ c rest ih =>
      obtain ⟨before, place, after, suffix, here⟩ := ih member
      exact ⟨before, place, after, suffix.trans (List.suffix_cons c rest), here⟩
  | case3 before c rest found after here ih =>
      rcases List.mem_cons.mp member with same | later
      · cases same
        exact ⟨before, c :: rest, after, List.suffix_refl _, here⟩
      · obtain ⟨before, place, after, suffix, here⟩ := ih later
        exact ⟨before, place, after, suffix.trans (List.suffix_cons c rest), here⟩
  | case4 before c rest _ ih =>
      rcases List.mem_cons.mp member with same | later
      · cases same
      · obtain ⟨before, place, after, suffix, here⟩ := ih later
        exact ⟨before, place, after, suffix.trans (List.suffix_cons c rest), here⟩

theorem exists_of_item_mem {before : Option Char} {skip : Nat} {text : Text} {value : α}
    (member : .item value ∈ piecesFrom recognise before skip text) :
    ∃ before rest after, recognise before rest = some (value, after) := by
  obtain ⟨before, rest, after, -, here⟩ := exists_suffix_of_item_mem member
  exact ⟨before, rest, after, here⟩

/-- Every plain character of a scan stands in the text. -/
theorem mem_of_plain_mem {before : Option Char} {skip : Nat} {text : Text} {c : Char}
    (member : .plain c ∈ piecesFrom recognise before skip text) : c ∈ text := by
  fun_induction piecesFrom recognise before skip text with
  | case1 => cases member
  | case2 _ _ _ _ ih => exact List.mem_cons_of_mem _ (ih member)
  | case3 _ _ _ _ _ _ ih =>
      rcases List.mem_cons.mp member with same | later
      · cases same
      · exact List.mem_cons_of_mem _ (ih later)
  | case4 _ _ _ _ ih =>
      rcases List.mem_cons.mp member with same | later
      · cases same
        exact List.mem_cons_self
      · exact List.mem_cons_of_mem _ (ih later)

/-- The plain characters of a stretch are the stretch. -/
theorem filterMap_plain?_stretch (run : Text) :
    (run.map .plain : List (Piece α)).filterMap Piece.plain? = run := by
  rw [List.filterMap_map]
  exact List.filterMap_some

/-- A stretch holds no items. -/
theorem filterMap_item?_stretch (run : Text) :
    (run.map .plain : List (Piece α)).filterMap Piece.item? = [] := by
  rw [List.filterMap_map]
  exact List.filterMap_eq_nil_iff.mpr fun _ _ => rfl

namespace LooksAhead

variable (ahead : LooksAhead recognise)
include ahead

/-- The items after a stretch in which no place begins an item. -/
theorem items_append_plain {run rest : Text}
    (missing : ∀ c more, c :: more <:+ run → recognise none (c :: (more ++ rest)) = none) :
    items recognise (run ++ rest) = items recognise rest := by
  have scan := piecesFrom_append_plain none fun before c more place =>
    (ahead before (c :: (more ++ rest))).trans (missing c more place)
  rw [items, pieces, scan, List.filterMap_append, filterMap_item?_stretch, List.nil_append,
    ahead.piecesFrom_eq]
  rfl

/-- The items of a text that begins with an item. -/
theorem items_of_item {source rest : Text} {value : α} (nonempty : source ≠ [])
    (found : recognise none (source ++ rest) = some (value, rest)) :
    items recognise (source ++ rest) = value :: items recognise rest := by
  rw [items, ahead.pieces_of_item nonempty found]
  rfl

/-- An item is left out. -/
theorem without_item {source rest : Text} {value : α} (nonempty : source ≠ [])
    (found : recognise none (source ++ rest) = some (value, rest)) :
    without recognise (source ++ rest) = without recognise rest := by
  rw [without, ahead.pieces_of_item nonempty found]
  rfl

/-- A character at which no item begins stays. -/
theorem without_cons {c : Char} {rest : Text} (missing : recognise none (c :: rest) = none) :
    without recognise (c :: rest) = c :: without recognise rest := by
  rw [without, ahead.pieces_of_none missing]
  rfl

/-- A stretch stays in which no character begins an item, whatever follows it. -/
theorem without_stretch {run : Text}
    (missing : ∀ c ∈ run, ∀ more, recognise none (c :: more) = none) (rest : Text) :
    without recognise (run ++ rest) = run ++ without recognise rest := by
  rw [without, ahead.pieces_stretch missing, List.filterMap_append, filterMap_plain?_stretch]
  rfl

end LooksAhead

/-- A text in which no character begins an item stays when its items are left out. -/
theorem without_eq {text : Text}
    (missing : ∀ before c more, c ∈ text → recognise before (c :: more) = none) :
    without recognise text = text := by
  have scan : pieces recognise text = text.map .plain :=
    pieces_eq_map_plain fun before c more suffix =>
      missing before c more (suffix.mem List.mem_cons_self)
  rw [without, scan, filterMap_plain?_stretch]

/-- The first item of a text is the first of its items. -/
theorem firstItemFrom?_fst (recognise : Recogniser α) (before : Option Char) (text : Text) :
    (firstItemFrom? recognise before text).map Prod.fst =
      ((piecesFrom recognise before 0 text).filterMap Piece.item?).head? := by
  induction text generalizing before with
  | nil => rfl
  | cons c rest ih =>
      cases here : recognise before (c :: rest) with
      | some found => simp [firstItemFrom?, piecesFrom, here, Piece.item?]
      | none =>
          rw [piecesFrom_of_none here]
          simp only [firstItemFrom?, here]
          exact ih (some c)

/-- The first item of a text is recognised at some place of it. -/
theorem exists_suffix_of_firstItem? {text : Text} {found : α × Text}
    (first : firstItem? recognise text = some found) :
    ∃ before rest, rest <:+ text ∧ recognise before rest = some found := by
  unfold firstItem? at first
  generalize (none : Option Char) = before at first
  fun_induction firstItemFrom? recognise before text with
  | case1 => cases first
  | case2 before c rest other here =>
      obtain rfl := Option.some.inj first
      exact ⟨before, c :: rest, List.suffix_refl _, here⟩
  | case3 _ c rest _ ih =>
      obtain ⟨before, place, suffix, here⟩ := ih first
      exact ⟨before, place, suffix.trans (List.suffix_cons c rest), here⟩

theorem firstItem?_fst (recognise : Recogniser α) (text : Text) :
    (firstItem? recognise text).map Prod.fst = (items recognise text).head? :=
  firstItemFrom?_fst recognise none text

/-- An item that begins a text is the first. -/
theorem firstItem?_of_found {text : Text} (nonempty : text ≠ []) {found : α × Text}
    (here : recognise none text = some found) : firstItem? recognise text = some found := by
  obtain ⟨c, rest, rfl⟩ := List.exists_cons_of_ne_nil nonempty
  simp only [firstItem?, firstItemFrom?, here]

/-! ## Writing items anew -/

/-- The text of one piece, with a way to write items. -/
def Piece.write (write : α → Text) : Piece α → Text
  | .plain c => [c]
  | .item value => write value

/-- The text of some pieces, with a way to write items. -/
def writePieces (write : α → Text) (pieces : List (Piece α)) : Text :=
  pieces.flatMap (Piece.write write)

theorem replacing_eq_writePieces (write : α → Text) (text : Text) :
    replacing recognise write text = writePieces write (pieces recognise text) := rfl

@[simp] theorem writePieces_nil (write : α → Text) : writePieces write [] = [] := rfl

@[simp] theorem writePieces_plain (write : α → Text) (c : Char) (rest : List (Piece α)) :
    writePieces write (.plain c :: rest) = c :: writePieces write rest := rfl

@[simp] theorem writePieces_item (write : α → Text) (value : α) (rest : List (Piece α)) :
    writePieces write (.item value :: rest) = write value ++ writePieces write rest := rfl

@[simp] theorem writePieces_append (write : α → Text) (first second : List (Piece α)) :
    writePieces write (first ++ second) = writePieces write first ++ writePieces write second :=
  List.flatMap_append

@[simp] theorem writePieces_map_plain (write : α → Text) (run : Text) :
    writePieces write (run.map .plain) = run := by
  induction run with
  | nil => rfl
  | cons c rest ih => rw [List.map_cons, writePieces_plain, ih]

/-! ## Separators -/

/-- A character that belongs to no item, ends every item before it, and stands for the start of
a text to every item after it. -/
structure Separates (recognise : Recogniser α) (separator : Char) : Prop where
  empty : ∀ before, recognise before [] = none
  ends : ∀ before text rest, recognise before (text ++ separator :: rest) =
    (recognise before text).map fun found => (found.1, found.2 ++ separator :: rest)
  starts : ∀ text, recognise (some separator) text = recognise none text

namespace Separates

variable {separator : Char} (separates : Separates recognise separator)
include separates

/-- No item begins at a separator. -/
theorem none_at (before : Option Char) (rest : Text) :
    recognise before (separator :: rest) = none := by
  have found := separates.ends before [] rest
  rwa [separates.empty, Option.map_none] at found

/-- A scan that still has to skip some characters of the part before a separator. -/
theorem piecesFrom_append (before : Option Char) (skip : Nat) (text rest : Text)
    (inside : skip ≤ text.length) :
    piecesFrom recognise before skip (text ++ separator :: rest) =
      piecesFrom recognise before skip text ++ .plain separator :: pieces recognise rest := by
  induction text generalizing before skip with
  | nil =>
      obtain rfl : skip = 0 := Nat.le_zero.mp inside
      rw [List.nil_append, piecesFrom_of_none (separates.none_at before rest),
        piecesFrom_before (separates.starts rest)]
      rfl
  | cons c more ih =>
      cases skip with
      | succ skip => exact ih (some c) skip (Nat.le_of_succ_le_succ inside)
      | zero =>
          have found := separates.ends before (c :: more) rest
          cases here : recognise before (c :: more) with
          | none =>
              rw [here, Option.map_none, List.cons_append] at found
              rw [List.cons_append, piecesFrom_of_none found, piecesFrom_of_none here,
                ih (some c) 0 (Nat.zero_le _)]
              rfl
          | some item =>
              obtain ⟨value, after⟩ := item
              rw [here, Option.map_some, List.cons_append] at found
              have width : (more ++ separator :: rest).length -
                  (after ++ separator :: rest).length = more.length - after.length := by
                simp only [List.length_append, List.length_cons]
                omega
              simp only [List.cons_append, piecesFrom, found, here, width]
              rw [ih (some c) _ (Nat.sub_le _ _)]

/-- **Scanning around a separator.** -/
theorem pieces_append (text rest : Text) :
    pieces recognise (text ++ separator :: rest) =
      pieces recognise text ++ .plain separator :: pieces recognise rest :=
  separates.piecesFrom_append none 0 text rest (Nat.zero_le _)

/-- Items on both sides of a separator. -/
theorem items_append (text rest : Text) :
    items recognise (text ++ separator :: rest) = items recognise text ++ items recognise rest := by
  unfold items
  rw [separates.pieces_append, List.filterMap_append]
  rfl

/-- Writing items anew on both sides of a separator. -/
theorem replacing_append (write : α → Text) (text rest : Text) :
    replacing recognise write (text ++ separator :: rest) =
      replacing recognise write text ++ separator :: replacing recognise write rest := by
  rw [replacing_eq_writePieces, replacing_eq_writePieces, replacing_eq_writePieces,
    separates.pieces_append, writePieces_append, writePieces_plain]

end Separates

end Clavier.Text
