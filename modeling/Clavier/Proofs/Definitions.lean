import Clavier.Proofs.VoiceHeaders

/-!
# Definitions of a document

A definition stands at a place of a document where a whole word, an equals sign and a block that
closes stand, with blanks between them (`DefinesAt`). It does not matter whether the place is inside
of another block, or behind a brace that never closes.

A scan for definitions looks at every place but those in the headers that it finds, and no header
begins inside of another one: behind the first character of a header a place either goes on with
the word before it or begins with no word character. So the scan finds a header wherever one stands,
in the order of the places (`items_definitionAt`), and the table has every name that is defined
anywhere, each with the body of its last definition (`body?_iff_definesAt`).
-/

set_option autoImplicit false

namespace Clavier

namespace Variables

/-! ## Headers place by place -/

/-- The header that begins a text, unless the text goes on with the word before it. -/
def headerBehind? (front text : Text) : Option (Text × Text) :=
  if front.getLast?.any Text.isWord then none else (definitionAt none text).map Prod.fst

/-- The header at a place of a document: its name, and the text after its opening brace. -/
def headerAt? (source : Text) (place : Nat) : Option (Text × Text) :=
  headerBehind? (source.take place) (source.drop place)

/-- The headers at all places of a text that stands behind another one. -/
def headersBehind (front text : Text) : List (Text × Text) :=
  (List.range' front.length text.length).filterMap (headerAt? (front ++ text))

theorem looksAhead_definitionAt : Text.LooksAhead definitionAt := fun _ _ => rfl

theorem headersBehind_cons (front : Text) (c : Char) (rest : Text) :
    headersBehind front (c :: rest) =
      (headerBehind? front (c :: rest)).toList ++ headersBehind (front ++ [c]) rest := by
  have here : headerAt? (front ++ c :: rest) front.length = headerBehind? front (c :: rest) := by
    rw [headerAt?, List.take_left, List.drop_left]
  have later : headersBehind (front ++ [c]) rest =
      (List.range' (front.length + 1) rest.length).filterMap (headerAt? (front ++ c :: rest)) := by
    rw [headersBehind, List.length_append, List.append_assoc]
    rfl
  rw [later, headersBehind, List.length_cons, List.range'_succ, List.filterMap_cons, here]
  cases headerBehind? front (c :: rest) <;> rfl

/-! ## Inside of a header -/

section Stretches

variable {front : Text} {c : Char} {rest : Text}

/-- No header begins at a character that is no word character. -/
theorem definitionAt_of_not_isWord (noWord : Text.isWord c = false) :
    definitionAt none (c :: rest) = none := by
  cases found : definitionAt none (c :: rest) with
  | none => rfl
  | some item =>
      obtain ⟨name, value, assigns⟩ := assignsAt_of_definitionAt found
      rw [assigns.head_isWord] at noWord
      cases noWord

/-- A header with one more word character in front is a header of a longer name. -/
theorem definitionAt_cons {text name inside : Text} (word : Text.isWord c = true)
    (found : definitionAt none text = some ((name, inside), inside)) :
    definitionAt none (c :: text) = some ((c :: name, inside), inside) := by
  obtain ⟨-, rest, -, gap, gap', blank, blank', rfl⟩ := definitionAt_eq_some_iff.mp found
  exact definitionAt_eq_some_iff.mpr ⟨List.cons_ne_nil c name,
    List.forall_mem_cons.mpr ⟨word, rest⟩, rfl, gap, gap', blank, blank', rfl⟩

/-- No header begins in a word behind its first character. -/
theorem headersBehind_word {run : Text} (word : ∀ d ∈ run, Text.isWord d = true)
    (before : front.getLast?.any Text.isWord = true) (rest : Text) :
    headersBehind front (run ++ rest) = headersBehind (front ++ run) rest := by
  induction run generalizing front with
  | nil => rw [List.append_nil, List.nil_append]
  | cons d more ih =>
      obtain ⟨first, others⟩ := List.forall_mem_cons.mp word
      have missing : headerBehind? front (d :: (more ++ rest)) = none := if_pos before
      have last : (front ++ [d]).getLast?.any Text.isWord = true := by
        rw [List.getLast?_concat]
        exact first
      rw [List.cons_append, headersBehind_cons, missing, ih others last, List.append_assoc]
      rfl

/-- No header begins in a run without word characters. -/
theorem headersBehind_gap {run : Text} (noWord : ∀ d ∈ run, Text.isWord d = false)
    (front rest : Text) :
    headersBehind front (run ++ rest) = headersBehind (front ++ run) rest := by
  induction run generalizing front with
  | nil => rw [List.append_nil, List.nil_append]
  | cons d more ih =>
      obtain ⟨first, others⟩ := List.forall_mem_cons.mp noWord
      have missing : headerBehind? front (d :: (more ++ rest)) = none := by
        rw [headerBehind?, definitionAt_of_not_isWord first, Option.map_none, ite_self]
      rw [List.cons_append, headersBehind_cons, missing, ih others, List.append_assoc]
      rfl

end Stretches

theorem isWord_opening : Text.isWord '{' = false := by decide +kernel

/-- The header of a definition, from its name to its opening brace. -/
def headerText (name gap gap' : Text) : Text := name ++ (gap ++ '=' :: (gap' ++ ['{']))

section Headers

variable {name gap gap' : Text}

theorem headerText_append (inside : Text) : headerText name gap gap' ++ inside =
    name ++ (gap ++ '=' :: (gap' ++ '{' :: inside)) := by
  simp [headerText]

theorem getLast?_headerText (front : Text) :
    (front ++ headerText name gap gap').getLast? = some '{' := by
  simp [headerText, List.getLast?_cons]

variable (nonempty : name ≠ []) (word : ∀ c ∈ name, Text.isWord c = true)
  (blank : Text.AllBlank gap) (blank' : Text.AllBlank gap')
include nonempty word blank blank'

theorem definitionAt_headerText (before : Option Char) (inside : Text) :
    definitionAt before (headerText name gap gap' ++ inside) = some ((name, inside), inside) :=
  definitionAt_eq_some_iff.mpr
    ⟨nonempty, word, rfl, gap, gap', blank, blank', headerText_append inside⟩

/-- **Places of a header.** A header begins at the first place of a header, and none at the places
behind it: each of them goes on with the name or begins with no word character. -/
theorem headersBehind_headerText {front : Text}
    (free : front.getLast?.any Text.isWord = false) (inside : Text) :
    headersBehind front (headerText name gap gap' ++ inside) =
      (name, inside) :: headersBehind (front ++ headerText name gap gap') inside := by
  have here : headerBehind? front (headerText name gap gap' ++ inside) = some (name, inside) := by
    rw [headerBehind?, free, definitionAt_headerText nonempty word blank blank']
    rfl
  have noWord : ∀ d ∈ gap ++ '=' :: (gap' ++ ['{']), Text.isWord d = false := by
    simp only [List.forall_mem_append, List.forall_mem_cons]
    exact ⟨fun d member => isWord_of_isBlank (blank d member), isWord_equals,
      fun d member => isWord_of_isBlank (blank' d member), isWord_opening, List.forall_mem_nil _⟩
  obtain ⟨c, more, rfl⟩ := List.exists_cons_of_ne_nil nonempty
  obtain ⟨first, others⟩ := List.forall_mem_cons.mp word
  have last : (front ++ [c]).getLast?.any Text.isWord = true := by
    rw [List.getLast?_concat]
    exact first
  have parts : headerText (c :: more) gap gap' ++ inside =
      c :: (more ++ ((gap ++ '=' :: (gap' ++ ['{'])) ++ inside)) := by
    rw [headerText, List.append_assoc]
    rfl
  rw [parts] at here ⊢
  rw [headersBehind_cons, here, headersBehind_word others last, headersBehind_gap noWord,
    headerText, List.append_assoc, List.append_assoc]
  rfl

end Headers

/-! ## The scan -/

/-- No header runs from the last word of a text into the text behind it. -/
def NoneAcross (front text : Text) : Prop :=
  ∀ c, front.getLast? = some c → Text.isWord c = true → definitionAt none (c :: text) = none

/-- A header that does not begin before the end of a text is not preceded by a word. -/
theorem NoneAcross.no_word_before {front text name inside : Text} (clear : NoneAcross front text)
    (found : definitionAt none text = some ((name, inside), inside)) :
    front.getLast?.any Text.isWord = false := by
  cases last : front.getLast? with
  | none => rfl
  | some c =>
      rw [Option.any_some, ← Bool.not_eq_true]
      intro word
      cases (clear c last word).symm.trans (definitionAt_cons word found)

/-- **Scanning for definitions** finds the headers at all places, from left to right. The induction
is on the text behind a front that no header runs out of; a header leads to the text behind it. -/
theorem items_behind (front text : Text) (clear : NoneAcross front text) :
    Text.items definitionAt text = headersBehind front text := by
  cases text with
  | nil => rfl
  | cons c rest =>
      cases found : definitionAt none (c :: rest) with
      | none =>
          have missing : headerBehind? front (c :: rest) = none := by
            rw [headerBehind?, found, Option.map_none, ite_self]
          have clear' : NoneAcross (front ++ [c]) rest := by
            intro d last _
            rw [List.getLast?_concat] at last
            obtain rfl := Option.some.inj last
            exact found
          rw [headersBehind_cons, missing, ← items_behind (front ++ [c]) rest clear', Text.items,
            looksAhead_definitionAt.pieces_of_none found]
          rfl
      | some item =>
          obtain ⟨⟨name, after⟩, inside⟩ := item
          obtain ⟨nonempty, word, rfl, gap, gap', blank, blank', same⟩ :=
            definitionAt_eq_some_iff.mp found
          have free := clear.no_word_before found
          have clear' : NoneAcross (front ++ headerText name gap gap') inside := by
            intro d last isWord
            rw [getLast?_headerText] at last
            obtain rfl := Option.some.inj last
            rw [isWord_opening] at isWord
            cases isWord
          rw [← headerText_append] at same
          have shorter : inside.length < (c :: rest).length := by
            simp [same, headerText]
            omega
          rw [same] at found ⊢
          rw [looksAhead_definitionAt.items_of_item (by simp [headerText]) found,
            headersBehind_headerText nonempty word blank blank' free,
            ← items_behind _ inside clear']
termination_by text.length

/-- The headers of a document are those at all of its places, from left to right. -/
theorem items_definitionAt (source : Text) :
    Text.items definitionAt source =
      (List.range source.length).filterMap (headerAt? source) := by
  have clear : NoneAcross [] source := fun c last => by cases last
  rw [items_behind [] source clear, List.range_eq_range']
  rfl

/-! ## Definitions -/

/-- A definition stands at a place of a document: a whole word, blanks, an equals sign, blanks, an
opening brace, a body with balanced braces, and the closing brace. -/
structure DefinesAt (source : Text) (place : Nat) (name body : Text) : Prop where
  nonempty : name ≠ []
  word : ∀ c ∈ name, Text.isWord c = true
  whole : ∀ c, (source.take place).getLast? = some c → Text.isWord c = false
  balanced : Balanced body
  written : ∃ gap gap' rest, Text.AllBlank gap ∧ Text.AllBlank gap' ∧
    source.drop place = name ++ (gap ++ '=' :: (gap' ++ '{' :: (body ++ '}' :: rest)))

/-- The definition at a place of a document: its name and its body. -/
def definedAt? (source : Text) (place : Nat) : Option (Text × Text) :=
  (headerAt? source place).bind fun header =>
    (splitBlock? header.2).map fun block => (header.1, block.1)

section Places

variable {source name body : Text} {place : Nat}

theorem any_isWord_eq_false_iff {before : Option Char} :
    before.any Text.isWord = false ↔ ∀ c, before = some c → Text.isWord c = false := by
  cases before <;> simp

theorem headerAt?_eq_some_iff {inside : Text} :
    headerAt? source place = some (name, inside) ↔
      (∀ c, (source.take place).getLast? = some c → Text.isWord c = false) ∧
        definitionAt none (source.drop place) = some ((name, inside), inside) := by
  rw [headerAt?, headerBehind?, ← any_isWord_eq_false_iff]
  cases (source.take place).getLast?.any Text.isWord with
  | true => simp
  | false =>
      rw [if_neg Bool.false_ne_true, Option.map_eq_some_iff, eq_self, true_and]
      constructor
      · rintro ⟨⟨header, rest⟩, found, rfl⟩
        obtain ⟨-, -, rfl, -⟩ := definitionAt_eq_some_iff.mp found
        exact found
      · intro found
        exact ⟨_, found, rfl⟩

/-- A definition is found at a place exactly if it stands there. -/
theorem definedAt?_eq_some_iff :
    definedAt? source place = some (name, body) ↔ DefinesAt source place name body := by
  rw [definedAt?, Option.bind_eq_some_iff]
  constructor
  · rintro ⟨⟨name', inside⟩, header, closed⟩
    obtain ⟨⟨body', rest⟩, split, same⟩ := Option.map_eq_some_iff.mp closed
    obtain ⟨rfl, rfl⟩ := Prod.mk.inj same
    obtain ⟨whole, found⟩ := headerAt?_eq_some_iff.mp header
    obtain ⟨nonempty, word, -, gap, gap', blank, blank', written⟩ :=
      definitionAt_eq_some_iff.mp found
    obtain ⟨rfl, balanced⟩ := splitBlock?_eq_some_iff.mp split
    exact ⟨nonempty, word, whole, balanced, gap, gap', rest, blank, blank', written⟩
  · rintro ⟨nonempty, word, whole, balanced, gap, gap', rest, blank, blank', written⟩
    refine ⟨(name, body ++ '}' :: rest), headerAt?_eq_some_iff.mpr ⟨whole, ?_⟩, ?_⟩
    · exact definitionAt_eq_some_iff.mpr
        ⟨nonempty, word, rfl, gap, gap', blank, blank', written⟩
    · rw [splitBlock?_of_balanced balanced rest]
      rfl

theorem DefinesAt.inside (defines : DefinesAt source place name body) :
    place < source.length := by
  obtain ⟨gap, gap', rest, -, -, written⟩ := defines.written
  have width := congrArg List.length written
  have name := List.length_pos_iff.mpr defines.nonempty
  rw [List.length_drop, List.length_append] at width
  omega

end Places

/-- The blocks of a document are its definitions at all places. -/
theorem definedBlocks_eq (source : Text) :
    definedBlocks source =
      ((List.range source.length).filterMap (definedAt? source)).reverse := by
  rw [definedBlocks, items_definitionAt, List.filterMap_filterMap]
  rfl

/-- Of some entries at the places below a bound, the last one of a name is looked up. -/
theorem lookup_reverse_filterMap {α : Type} (entryAt : Nat → Option (Text × α)) (bound : Nat)
    (name : Text) (value : α) :
    ((List.range bound).filterMap entryAt).reverse.lookup name = some value ↔
      ∃ place < bound, entryAt place = some (name, value) ∧
        ∀ later < bound, ∀ other, entryAt later = some (name, other) → later ≤ place := by
  induction bound with
  | zero => simp
  | succ bound ih =>
      rw [List.range_succ, List.filterMap_append, List.reverse_append, List.lookup_append]
      by_cases here : ∃ other, entryAt bound = some (name, other)
      · obtain ⟨last, here⟩ := here
        have first : ([bound].filterMap entryAt).reverse.lookup name = some last := by
          simp [here]
        rw [first, Option.some_or]
        constructor
        · rintro ⟨⟩
          exact ⟨bound, Nat.lt_succ_self bound, here, fun later below _ _ => Nat.le_of_lt_succ below⟩
        · rintro ⟨place, below, found, greatest⟩
          have same := Nat.le_antisymm (Nat.le_of_lt_succ below)
            (greatest bound (Nat.lt_succ_self bound) last here)
          rw [same, here] at found
          cases found
          rfl
      · have none : ([bound].filterMap entryAt).reverse.lookup name = none := by
          cases entry : entryAt bound with
          | none => simp [entry]
          | some found =>
              have different : found.1 ≠ name := by
                rintro rfl
                exact here ⟨found.2, entry⟩
              simp [entry, different.symm]
        have earlier : ∀ place other, entryAt place = some (name, other) → place < bound + 1 →
            place < bound := by
          intro place other entry below
          refine Nat.lt_of_le_of_ne (Nat.le_of_lt_succ below) ?_
          rintro rfl
          exact here ⟨other, entry⟩
        rw [none, Option.none_or, ih]
        constructor
        · rintro ⟨place, below, found, greatest⟩
          exact ⟨place, Nat.lt_succ_of_lt below, found, fun later below other entry =>
            greatest later (earlier later other entry below) other entry⟩
        · rintro ⟨place, below, found, greatest⟩
          exact ⟨place, earlier place value found below, found, fun later below =>
            greatest later (Nat.lt_succ_of_lt below)⟩

/-! ## The table of a document -/

/-- **The last definition.** The block of a name is the body of the last definition of the name. -/
theorem lookup_definedBlocks {source name body : Text} :
    (definedBlocks source).lookup name = some body ↔
      ∃ place, DefinesAt source place name body ∧
        ∀ later other, DefinesAt source later name other → later ≤ place := by
  simp only [definedBlocks_eq, lookup_reverse_filterMap, definedAt?_eq_some_iff]
  constructor
  · rintro ⟨place, -, defines, greatest⟩
    exact ⟨place, defines, fun later other defines => greatest later defines.inside other defines⟩
  · rintro ⟨place, defines, greatest⟩
    exact ⟨place, defines.inside, defines, fun later _ => greatest later⟩

/-- A name has a block exactly if it is defined somewhere. -/
theorem isSome_lookup_definedBlocks {source name : Text} :
    ((definedBlocks source).lookup name).isSome = true ↔
      ∃ place body, DefinesAt source place name body := by
  simp only [List.lookup_isSome_iff, definedBlocks_eq, List.mem_reverse, List.mem_filterMap,
    List.mem_range, beq_iff_eq]
  constructor
  · rintro ⟨⟨_, body⟩, ⟨place, -, found⟩, rfl⟩
    exact ⟨place, body, definedAt?_eq_some_iff.mp found⟩
  · rintro ⟨place, body, defines⟩
    exact ⟨(name, body), ⟨place, defines.inside, definedAt?_eq_some_iff.mpr defines⟩, rfl⟩

/-- **Definitions of a document.** The table has a name exactly if a definition of the name stands
anywhere in the document. Its body is then the trimmed body of the last of these definitions. -/
theorem body?_iff_definesAt (source name : Text) :
    (((ofSource source).body? name).isSome = true ↔
        ∃ place body, DefinesAt source place name body) ∧
      ∀ value, (ofSource source).body? name = some value ↔
        ∃ place body, DefinesAt source place name body ∧
          (∀ later other, DefinesAt source later name other → later ≤ place) ∧
          value = Text.trim body := by
  rw [body?_ofSource, Option.isSome_map]
  refine ⟨isSome_lookup_definedBlocks, fun value => ?_⟩
  rw [Option.map_eq_some_iff]
  constructor
  · rintro ⟨body, found, rfl⟩
    obtain ⟨place, defines, greatest⟩ := lookup_definedBlocks.mp found
    exact ⟨place, body, defines, greatest, rfl⟩
  · rintro ⟨place, body, defines, greatest, rfl⟩
    exact ⟨body, lookup_definedBlocks.mpr ⟨place, defines, greatest⟩, rfl⟩

/-- Definitions inside of a body and behind a brace that never closes; the inner one of `m` is the
last of its name. -/
example : (ofSource "m = \x7b m=\x7b d \x7d \x7d x = \x7b n =\x7be\n\x7d".toList).entries =
    [("n".toList, "e".toList), ("m".toList, "d".toList)] := by
  decide +kernel

end Variables

end Clavier
