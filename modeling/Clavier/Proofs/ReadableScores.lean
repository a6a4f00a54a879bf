import Clavier.Practice.Studio
import Clavier.Proofs.Markers

/-!
# Scores read back from JSON

A reader takes something off the front of a text and returns what follows it. Every printer of the
JSON of scores has a reader that undoes it before any text without a digit at its front
(`ReadsBack`): strings whatever characters they hold (`readsBack_string`), integers of any size
(`readsBack_integer`), rows of items (`readsBack_row`), and the entries of objects. A note and the
title and composer of a piece are known from the entries of their objects, because an entry that is
left out is not found (`Note.ofEntries?_entries`, `Metadata.ofEntries_entries`).

So a score is read back from its JSON (`readScore?_ofScore`), and the answer to the score query
tells different scores apart (`score_query_lossless`).
-/

set_option autoImplicit false

namespace Clavier

namespace Json

/-! ## Readers -/

/-- Takes something off the front of a text and returns what follows it. -/
abbrev Reader (α : Type) := Text → Option (α × Text)

/-- The value of a lower case hexadecimal digit. -/
def hexDigitValue (c : Char) : Nat := if c.isDigit then c.toNat - 0x30 else c.toNat - 0x57

/-- The character that a letter stands for after a backslash. -/
def escapeLetter? : Char → Option Char
  | '"' => some '"'
  | '\\' => some '\\'
  | 'n' => some '\n'
  | 'r' => some '\r'
  | 't' => some '\t'
  | 'b' => some '\x08'
  | 'f' => some '\x0c'
  | _ => none

/-- The characters of a string up to the quote that ends it. -/
def readChars? : Reader Text
  | [] => none
  | '"' :: rest => some ([], rest)
  | '\\' :: 'u' :: p :: q :: r :: s :: rest =>
      let code := [p, q, r, s].foldl (fun value c => 16 * value + hexDigitValue c) 0
      (readChars? rest).map fun found => (.ofNat code :: found.1, found.2)
  | '\\' :: letter :: rest =>
      match escapeLetter? letter with
      | some c => (readChars? rest).map fun found => (c :: found.1, found.2)
      | none => none
  | c :: rest => (readChars? rest).map fun found => (c :: found.1, found.2)

/-- A string. -/
def readString? (text : Text) : Option (Text × Text) := do
  let inside ← Text.dropStart? ['"'] text
  readChars? inside

/-- A natural number of any size. -/
def readNatural? (text : Text) : Option (Nat × Text) := do
  let (digits, rest) := Text.splitWhile Text.isDigit text
  let n ← Text.readNatUpTo? digits.length digits
  return (n, rest)

/-- An integer of any size. -/
def readInteger? (text : Text) : Option (Int × Text) :=
  match Text.dropStart? ['-'] text with
  | some digits => (readNatural? digits).map fun found => (-(found.1 : Int), found.2)
  | none => (readNatural? text).map fun found => ((found.1 : Int), found.2)

/-- Items with separators between them, and the mark that closes their row. -/
def readItems? {α : Type} (read : Reader α) (closing : Char) (text : Text) :
    Option (List α × Text) := do
  let (item, rest) ← read text
  if rest.head? = some closing then return ([item], rest.tail)
  else
    let more ← Text.dropStart? [',', ' '] rest
    -- a reader that has not moved on has read no item
    if more.length < text.length then
      let (others, last) ← readItems? read closing more
      return (item :: others, last)
    else none
termination_by text.length

/-- A row of items between two marks. -/
def readRow? {α : Type} (read : Reader α) (opening closing : Char) (text : Text) :
    Option (List α × Text) := do
  let inside ← Text.dropStart? [opening] text
  if inside.head? = some closing then return ([], inside.tail)
  else readItems? read closing inside

/-! ## Entries of objects -/

/-- The value of an entry that is neither a list nor an object. -/
inductive Scalar where
  | number (n : Int)
  | text (value : Text)

/-- A scalar as it is written. -/
def Scalar.written : Scalar → Text
  | .number n => Text.ofInt n
  | .text value => string value

/-- An entry of an object as it is written. -/
def writeEntry (entry : Text × Scalar) : Text := field entry.1 entry.2.written

/-- A string or an integer. -/
def readScalar? (text : Text) : Option (Scalar × Text) :=
  match readString? text with
  | some (value, rest) => some (.text value, rest)
  | none => (readInteger? text).map fun found => (.number found.1, found.2)

/-- An entry of an object. -/
def readEntry? (text : Text) : Option ((Text × Scalar) × Text) := do
  let (name, named) ← readString? text
  let value ← Text.dropStart? [':', ' '] named
  let (scalar, rest) ← readScalar? value
  return ((name, scalar), rest)

/-- The entries of an object. -/
def readObject? : Reader (List (Text × Scalar)) := readRow? readEntry? '{' '}'

/-- The text of an entry. -/
def text? (name : Text) (entries : List (Text × Scalar)) : Option Text :=
  match entries.lookup name with
  | some (.text value) => some value
  | _ => none

/-- The number of an entry. -/
def number? (name : Text) (entries : List (Text × Scalar)) : Option Int :=
  match entries.lookup name with
  | some (.number n) => some n
  | _ => none

/-- The entry of a text that may be left out. -/
def optionalEntry (name : Text) (value : Option Text) : List (Text × Scalar) :=
  (value.map fun text => (name, .text text)).toList

end Json

open Json

/-- The entries of the object of a note. -/
def Note.entries (note : Note) : List (Text × Scalar) :=
  ("midiNumber".toList, .number note.key) :: ("noteName".toList, .text note.name) ::
    optionalEntry "originalNotation".toList note.spelling

/-- The note that has some entries. -/
def Note.ofEntries? (entries : List (Text × Scalar)) : Option Note := do
  let key ← number? "midiNumber".toList entries
  let name ← text? "noteName".toList entries
  return ⟨key, name, text? "originalNotation".toList entries⟩

/-- A note is known from its entries. -/
theorem Note.ofEntries?_entries (note : Note) : Note.ofEntries? note.entries = some note := by
  obtain ⟨key, name, spelling⟩ := note
  cases spelling <;> rfl

/-- The entries of the object of a title and a composer. -/
def Metadata.entries (metadata : Metadata) : List (Text × Scalar) :=
  optionalEntry "title".toList metadata.title ++
    optionalEntry "composer".toList metadata.composer

/-- The title and the composer that have some entries. -/
def Metadata.ofEntries (entries : List (Text × Scalar)) : Metadata :=
  ⟨text? "title".toList entries, text? "composer".toList entries⟩

/-- A title and a composer are known from their entries, also which of them is left out. -/
theorem Metadata.ofEntries_entries (metadata : Metadata) :
    Metadata.ofEntries metadata.entries = metadata := by
  obtain ⟨title, composer⟩ := metadata
  cases title <;> cases composer <;> rfl

namespace Json

/-! ## The reader of scores -/

/-- A note. -/
def readNote? (text : Text) : Option (Note × Text) := do
  let (entries, rest) ← readObject? text
  let note ← Note.ofEntries? entries
  return (note, rest)

/-- The notes of a voice. -/
def readVoice? : Reader (List Note) := readRow? readNote? '[' ']'

/-- A field of an object whose name is known. -/
def readField? {α : Type} (name : Text) (read : Reader α) (text : Text) : Option (α × Text) := do
  let value ← Text.dropStart? (string name ++ [':', ' ']) text
  read value

/-- The score that a text is the JSON of. -/
def readScore? (text : Text) : Option Score := do
  let inside ← Text.dropStart? ['{'] text
  let (upper, rest) ← readField? "upper".toList readVoice? inside
  let next ← Text.dropStart? [',', ' '] rest
  let (lower, rest) ← readField? "lower".toList readVoice? next
  let next ← Text.dropStart? [',', ' '] rest
  let (entries, rest) ← readField? "metadata".toList readObject? next
  if rest = ['}'] then return ⟨upper, lower, Metadata.ofEntries entries⟩ else none

/-! ## Reading back -/

/-- A reader undoes a printer before every text without a digit at its front. -/
def ReadsBack {α : Type} (read : Reader α) (write : α → Text) : Prop :=
  ∀ (value : α) (rest : Text), Text.Stops Text.isDigit rest →
    read (write value ++ rest) = some (value, rest)

theorem dropStart?_append (start rest : Text) : Text.dropStart? start (start ++ rest) = some rest :=
  Text.dropStart?_eq_some_iff.mpr rfl

/-! ### Strings -/

theorem hexDigitValue_digitChar : ∀ n < 16, hexDigitValue n.digitChar = n := by decide

theorem hexadecimal_control :
    ∀ n < 32, Text.hexadecimal 4 n = ['0', '0', (n / 16).digitChar, (n % 16).digitChar] := by
  decide

/-- An escaped character is read back as the character. -/
theorem readChars?_escapedChar (c : Char) (rest : Text) :
    readChars? (escapedChar c ++ rest) =
      (readChars? rest).map fun found => (c :: found.1, found.2) := by
  by_cases letter : c ∈ ['"', '\\', '\n', '\r', '\t', '\x08', '\x0c']
  · simp only [List.mem_cons, List.not_mem_nil, or_false] at letter
    rcases letter with rfl | rfl | rfl | rfl | rfl | rfl | rfl <;> rfl
  · simp only [List.mem_cons, List.not_mem_nil, or_false, not_or] at letter
    simp only [escapedChar, letter, if_false]
    split
    · rename_i control
      have zero : hexDigitValue '0' = 0 := rfl
      have value : 16 * (c.toNat / 16) + c.toNat % 16 = c.toNat := Nat.div_add_mod _ _
      simp only [hexadecimal_control _ control, List.cons_append, List.nil_append, readChars?,
        List.foldl_cons, List.foldl_nil, zero, hexDigitValue_digitChar (c.toNat / 16) (by omega),
        hexDigitValue_digitChar (c.toNat % 16) (by omega), Nat.mul_zero, Nat.zero_add, value,
        Char.ofNat_toNat]
    · rw [List.singleton_append, readChars?]
      all_goals grind

theorem readChars?_flatMap (text rest : Text) :
    readChars? (text.flatMap escapedChar ++ '"' :: rest) = some (text, rest) := by
  induction text with
  | nil => rfl
  | cons c more ih =>
      rw [List.flatMap_cons, List.append_assoc, readChars?_escapedChar, ih]
      rfl

theorem readsBack_string : ReadsBack readString? string := by
  intro text rest _
  have quoted : string text ++ rest = ['"'] ++ (text.flatMap escapedChar ++ '"' :: rest) := by
    simp [string]
  rw [quoted, readString?, dropStart?_append, ← readChars?_flatMap]
  rfl

/-! ### Integers -/

theorem readNatural?_ofNat (n : Nat) {rest : Text} (stops : Text.Stops Text.isDigit rest) :
    readNatural? (Text.ofNat n ++ rest) = some (n, rest) := by
  have split : Text.splitWhile Text.isDigit (Text.ofNat n ++ rest) = (Text.ofNat n, rest) :=
    Text.splitWhile_eq_iff.mpr ⟨rfl, fun _ => Text.isDigit_of_mem_ofNat, stops⟩
  simp only [readNatural?, split, Text.readNatUpTo?_ofNat (Nat.le_refl _)]
  rfl

/-- A numeral begins with a digit. -/
theorem exists_ofNat_eq_cons (n : Nat) :
    ∃ c more, Text.ofNat n = c :: more ∧ Text.isDigit c = true := by
  obtain ⟨c, more, written⟩ := List.exists_cons_of_ne_nil (Nat.toDigits_ne_nil (n := n) (b := 10))
  have member : c ∈ Text.ofNat n := by
    rw [Text.ofNat, written]
    exact List.mem_cons_self
  exact ⟨c, more, written, Text.isDigit_of_mem_ofNat member⟩

/-- No mark other than a digit stands before a numeral. -/
theorem dropStart?_ofNat {mark : Char} (other : Text.isDigit mark = false) (n : Nat) (rest : Text) :
    Text.dropStart? [mark] (Text.ofNat n ++ rest) = none := by
  obtain ⟨c, more, written, digit⟩ := exists_ofNat_eq_cons n
  have different : c ≠ mark := by
    rintro rfl
    rw [digit] at other
    cases other
  rw [written, List.cons_append, Text.dropStart?, if_neg different]

theorem readsBack_integer : ReadsBack readInteger? Text.ofInt := by
  intro n rest stops
  cases n with
  | ofNat n =>
      have unsigned : Text.dropStart? ['-'] (Text.ofNat n ++ rest) = none :=
        dropStart?_ofNat (by decide) n rest
      simp only [readInteger?, Text.ofInt, unsigned, readNatural?_ofNat n stops]
      rfl
  | negSucc n =>
      have signed : Text.dropStart? ['-'] (Text.ofInt (.negSucc n) ++ rest) =
          some (Text.ofNat (n + 1) ++ rest) := rfl
      simp only [readInteger?, signed, readNatural?_ofNat (n + 1) stops]
      rfl

/-! ### Rows -/

section Rows

variable {α : Type} {read : Reader α} {write : α → Text} {opening closing : Char}

theorem readItems?_last {text rest : Text} {item : α}
    (found : read text = some (item, closing :: rest)) :
    readItems? read closing text = some ([item], rest) := by
  rw [readItems?, found]
  simp

theorem readItems?_more {text more : Text} {item : α}
    (found : read text = some (item, ',' :: ' ' :: more)) (other : closing ≠ ',')
    (shorter : more.length < text.length) :
    readItems? read closing text =
      (readItems? read closing more).map fun found => (item :: found.1, found.2) := by
  have separated : Text.dropStart? [',', ' '] (',' :: ' ' :: more) = some more :=
    dropStart?_append [',', ' '] more
  rw [readItems?, found]
  simp only [bind, pure, Option.bind_some, List.head?_cons, Option.some.injEq, Ne.symm other,
    if_false, separated, shorter, if_true, Option.map_eq_bind]
  rfl

theorem readItems?_joinWith (back : ReadsBack read write) (mark : Text.isDigit closing = false)
    (other : closing ≠ ',') {items : List α} (nonempty : items ≠ []) (rest : Text) :
    readItems? read closing (Text.joinWith [',', ' '] (items.map write) ++ closing :: rest) =
      some (items, rest) := by
  induction items with
  | nil => exact absurd rfl nonempty
  | cons item more ih =>
      cases more with
      | nil => exact readItems?_last (back item _ (Text.stops_cons.mpr mark))
      | cons second others =>
          have front : Text.joinWith [',', ' '] ((item :: second :: others).map write) ++
                closing :: rest =
              write item ++ ',' :: ' ' ::
                (Text.joinWith [',', ' '] ((second :: others).map write) ++ closing :: rest) := by
            simp [Text.joinWith]
          rw [front, readItems?_more (back item _ (Text.stops_cons.mpr (by decide))) other,
            ih (List.cons_ne_nil _ _)]
          · rfl
          · simp only [List.length_append, List.length_cons]
            omega

/-- **Rows** of items are read back, if no item begins like the end of the row. -/
theorem readsBack_row (back : ReadsBack read write) (mark : Text.isDigit closing = false)
    (other : closing ≠ ',') (opens : ∀ item, ∃ c, c ≠ closing ∧ ∃ more, write item = c :: more) :
    ReadsBack (readRow? read opening closing) fun items =>
      opening :: (Text.joinWith [',', ' '] (items.map write) ++ [closing]) := by
  intro items rest _
  have opened : Text.dropStart? [opening]
      (opening :: (Text.joinWith [',', ' '] (items.map write) ++ [closing]) ++ rest) =
        some (Text.joinWith [',', ' '] (items.map write) ++ closing :: rest) := by
    simp [Text.dropStart?]
  rw [readRow?, opened]
  cases items with
  | nil => simp [Text.joinWith]
  | cons item others =>
      have inside := readItems?_joinWith back mark other (List.cons_ne_nil item others) rest
      obtain ⟨c, different, more, written⟩ := opens item
      have first : (Text.joinWith [',', ' '] ((item :: others).map write) ++
          closing :: rest).head? = some c := by
        cases others <;> simp [Text.joinWith, written]
      simp only [bind, Option.bind_some, first, Option.some.injEq, different, if_false, inside]

end Rows

/-! ### Objects -/

/-- No string begins like an integer. -/
theorem readString?_ofInt (n : Int) (rest : Text) : readString? (Text.ofInt n ++ rest) = none := by
  cases n with
  | ofNat n =>
      have unquoted : Text.dropStart? ['"'] (Text.ofInt (.ofNat n) ++ rest) = none :=
        dropStart?_ofNat (by decide) n rest
      rw [readString?, unquoted]
      rfl
  | negSucc n => rfl

theorem readsBack_scalar : ReadsBack readScalar? Scalar.written := by
  intro scalar rest stops
  cases scalar with
  | text value => rw [readScalar?, Scalar.written, readsBack_string value rest stops]
  | number n =>
      rw [readScalar?, Scalar.written, readString?_ofInt, readsBack_integer n rest stops]
      rfl

theorem readsBack_entry : ReadsBack readEntry? writeEntry := by
  rintro ⟨name, scalar⟩ rest stops
  have written : writeEntry (name, scalar) ++ rest =
      string name ++ ([':', ' '] ++ (scalar.written ++ rest)) := by
    simp [writeEntry, field]
  have colon : Text.Stops Text.isDigit ([':', ' '] ++ (scalar.written ++ rest)) :=
    Text.stops_cons.mpr (by decide)
  rw [written, readEntry?, readsBack_string name _ colon]
  simp only [bind, Option.bind_some, dropStart?_append, readsBack_scalar scalar rest stops, pure]

theorem readsBack_object : ReadsBack readObject? fun entries => object (entries.map writeEntry) :=
  readsBack_row readsBack_entry (by decide) (by decide) fun _ => ⟨'"', by decide, _, rfl⟩

theorem map_writeEntry_optionalEntry (name : Text) (value : Option Text) :
    (optionalEntry name value).map writeEntry = optionalField name value := by
  cases value <;> rfl

theorem ofNote_eq (note : Note) : ofNote note = object (note.entries.map writeEntry) := by
  rw [Note.entries, List.map_cons, List.map_cons, map_writeEntry_optionalEntry]
  rfl

theorem ofMetadata_eq (metadata : Metadata) :
    ofMetadata metadata = object (metadata.entries.map writeEntry) := by
  rw [Metadata.entries, List.map_append, map_writeEntry_optionalEntry,
    map_writeEntry_optionalEntry]
  rfl

/-! ### Scores -/

theorem readsBack_note : ReadsBack readNote? ofNote := by
  intro note rest stops
  rw [ofNote_eq, readNote?, readsBack_object note.entries rest stops]
  simp only [bind, Option.bind_some, Note.ofEntries?_entries, pure]

theorem readsBack_voice : ReadsBack readVoice? fun notes => list (notes.map ofNote) :=
  readsBack_row readsBack_note (by decide) (by decide) fun _ => ⟨'{', by decide, _, rfl⟩

theorem readsBack_field {α : Type} {read : Reader α} {write : α → Text}
    (back : ReadsBack read write) (name : Text) :
    ReadsBack (readField? name read) fun value => field name (write value) := by
  intro value rest stops
  have written : field name (write value) ++ rest =
      (string name ++ [':', ' ']) ++ (write value ++ rest) := by
    simp [field]
  rw [written, readField?, dropStart?_append]
  exact back value rest stops

/-- **A score is read back** from its JSON. -/
theorem readScore?_ofScore (score : Score) : readScore? (ofScore score) = some score := by
  have written : ofScore score = ['{'] ++ (field "upper".toList (list (score.upper.map ofNote)) ++
      ([',', ' '] ++ (field "lower".toList (list (score.lower.map ofNote)) ++
        ([',', ' '] ++ (field "metadata".toList (object (score.metadata.entries.map writeEntry)) ++
          ['}']))))) := by
    rw [← ofMetadata_eq]
    simp [ofScore, object, Text.joinWith]
  have comma (rest : Text) : Text.Stops Text.isDigit ([',', ' '] ++ rest) :=
    Text.stops_cons.mpr (by decide)
  have closed : Text.Stops Text.isDigit ['}'] := Text.stops_cons.mpr (by decide)
  rw [written, readScore?]
  simp only [bind, dropStart?_append, Option.bind_some,
    readsBack_field readsBack_voice _ _ _ (comma _), readsBack_field readsBack_object _ _ _ closed,
    if_true, Metadata.ofEntries_entries, pure]

end Json

/-! ## The score query -/

theorem Studio.query_score (loaded : Loaded) (directory : Directory) :
    (⟨some loaded, directory⟩ : Studio).query "score".toList = Json.ofScore loaded.score := by
  rfl

/-- **The score query is lossless.** Its answer is read back as the score that is loaded, whatever
keys, names, spellings, title and composer the score holds. In particular it is the same in two
studios exactly if the same score is loaded in them. -/
theorem Studio.score_query_lossless :
    (∀ (loaded : Loaded) (directory : Directory),
      Json.readScore? ((⟨some loaded, directory⟩ : Studio).query "score".toList) =
        some loaded.score) ∧
    ∀ (first second : Loaded) (here there : Directory),
      (⟨some first, here⟩ : Studio).query "score".toList =
          (⟨some second, there⟩ : Studio).query "score".toList ↔
        first.score = second.score := by
  have reads (loaded : Loaded) (directory : Directory) :
      Json.readScore? ((⟨some loaded, directory⟩ : Studio).query "score".toList) =
        some loaded.score := by
    rw [query_score, Json.readScore?_ofScore]
  refine ⟨reads, fun first second here there => ⟨fun same => ?_, fun same => ?_⟩⟩
  · have read := reads first here
    rw [same, reads second there] at read
    exact (Option.some.inj read).symm
  · rw [query_score, query_score, same]

end Clavier
