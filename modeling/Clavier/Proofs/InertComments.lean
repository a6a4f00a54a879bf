import Clavier.Proofs.Comments
import Clavier.Proofs.OnePass
import Clavier.Proofs.VoiceHeaders
import Mathlib.Data.List.Infix

/-!
# Inert comments

A scan overlooks the comments of a text when nothing is recognised inside of them, and when
what is recognised outside of them is recognised in the text without comments as well
(`Overlooks`). The two scans then yield the same items and the same characters outside of
comments (`Overlooks.bared`).

Comments are inert when they hold neither braces nor commands and no header stands partly in
a comment, nor would stand in the text if the comments were taken out (`Inert`). Definitions, voices
and what is cut out of a body are then found as they are without the comments
(`Inert.overlooks_blocks`, `Inert.overlooks_cuts`).
-/

set_option autoImplicit false

namespace Clavier

namespace Text

/-! ## Scans that overlook comments -/

variable {α β : Type} {change : α → β} {recognise : Recogniser α} {recognise' : Recogniser β}
variable {text : Text}

/-- The pieces of a text and the pieces of the text without its comments. -/
inductive Bared (change : α → β) : List (Piece α) → List (Piece β) → Prop where
  | nil : Bared change [] []
  | plain {c : Char} {pieces : List (Piece α)} {pieces' : List (Piece β)} (other : c ≠ '%')
      (later : Bared change pieces pieces') : Bared change (.plain c :: pieces) (.plain c :: pieces')
  | item {value : α} {pieces : List (Piece α)} {pieces' : List (Piece β)}
      (later : Bared change pieces pieces') :
      Bared change (.item value :: pieces) (.item (change value) :: pieces')
  | line {inside : Text} {pieces : List (Piece α)} {pieces' : List (Piece β)} (line : '\n' ∉ inside)
      (later : Bared change pieces pieces') :
      Bared change (('%' :: inside).map .plain ++ .plain '\n' :: pieces) (.plain '\n' :: pieces')
  | last {inside : Text} (line : '\n' ∉ inside) : Bared change (('%' :: inside).map .plain) []

/-- The items of a text without comments. -/
theorem Bared.items {pieces : List (Piece α)} {pieces' : List (Piece β)}
    (bared : Bared change pieces pieces') :
    pieces'.filterMap Piece.item? = (pieces.filterMap Piece.item?).map change := by
  induction bared with
  | nil => rfl
  | plain _ _ ih => exact ih
  | item _ ih => exact congrArg (_ :: ·) ih
  | line _ _ ih =>
      rw [List.filterMap_append, filterMap_item?_stretch]
      exact ih
  | last _ =>
      rw [filterMap_item?_stretch]
      rfl

/-- A recogniser finds nothing inside of the comments of a text, and outside of them what another
one finds in the text without comments. -/
structure Overlooks (recognise : Recogniser α) (recognise' : Recogniser β) (change : α → β)
    (text : Text) : Prop where
  comment : ∀ {inside after}, HasComment text inside after → ∀ before start, start ≠ [] →
    start <:+ '%' :: inside → recognise before (start ++ after) = none
  lineEnd : ∀ before rest, recognise before ('\n' :: rest) = none
  same : ∀ before rest, rest <:+ text → rest.head? ≠ some '%' →
    recognise' before (bare rest) =
      (recognise before rest).map fun found => (change found.1, bare found.2)
  item : ∀ {before rest value after}, rest <:+ text → recognise before rest = some (value, after) →
    ∃ taken, taken ≠ [] ∧ Ended taken ∧ rest = taken ++ after

namespace Overlooks

theorem suffix (overlooks : Overlooks recognise recognise' change text) {rest : Text}
    (place : rest <:+ text) : Overlooks recognise recognise' change rest where
  comment found := overlooks.comment (found.of_suffix place)
  lineEnd := overlooks.lineEnd
  same before more inside := overlooks.same before more (inside.trans place)
  item inside := overlooks.item (inside.trans place)

/-- A scan passes over the comment that begins a text, up to the next line. -/
theorem bared_comment {inside after : Text}
    (overlooks : Overlooks recognise recognise' change ('%' :: (inside ++ after)))
    (line : '\n' ∉ inside) (stops : Stops (· ≠ '\n') after) (before : Option Char)
    (later : ∀ more, after = '\n' :: more → Bared change
      (piecesFrom recognise (some '\n') 0 more) (piecesFrom recognise' (some '\n') 0 (bare more))) :
    Bared change (piecesFrom recognise before 0 ('%' :: (inside ++ after)))
      (piecesFrom recognise' before 0 (bare ('%' :: (inside ++ after)))) := by
  have missing : ∀ before d more, d :: more <:+ '%' :: inside →
      recognise before (d :: (more ++ after)) = none := by
    intro before d more place
    exact overlooks.comment ⟨List.suffix_refl _, line, stops⟩ before (d :: more)
      (List.cons_ne_nil _ _) place
  rw [← List.cons_append, piecesFrom_append_plain before missing, List.cons_append,
    bare_comment line stops]
  cases after with
  | nil =>
      rw [piecesFrom, List.append_nil]
      exact .last line
  | cons d more =>
      obtain rfl : d = '\n' := by simpa using stops_cons.mp stops
      have noItem := overlooks.same before ('\n' :: more) ⟨'%' :: inside, rfl⟩ (by simp)
      rw [overlooks.lineEnd, bare_cons (by decide), Option.map_none] at noItem
      rw [piecesFrom_of_none (overlooks.lineEnd _ more), bare_cons (by decide),
        piecesFrom_of_none noItem]
      exact .line line (later more rfl)

/-- A scan goes on after an item whose comments end. -/
theorem bared_item {before : Option Char} {c : Char} {more after : Text} {value : α}
    (found : recognise before (c :: more ++ after) = some (value, after))
    (same : recognise' before (bare (c :: more ++ after)) = some (change value, bare after))
    (sign : c ≠ '%') (ended : Ended (c :: more))
    (later : ∀ before, Bared change (piecesFrom recognise before 0 after)
      (piecesFrom recognise' before 0 (bare after))) :
    Bared change (piecesFrom recognise before 0 (c :: more ++ after))
      (piecesFrom recognise' before 0 (bare (c :: more ++ after))) := by
  have parts : bare (c :: more ++ after) = c :: bare more ++ bare after := by
    rw [bare_append ended, bare_cons sign]
  have last : (c :: bare more).getLast (by simp) = (c :: more).getLast (by simp) := by
    have kept := getLast?_bare ended
    rw [bare_cons sign] at kept
    simpa only [List.getLast?_eq_some_getLast (List.cons_ne_nil _ _), Option.some.injEq] using kept
  rw [parts] at same
  rw [piecesFrom_of_item found, parts, piecesFrom_of_item same, last]
  exact .item (later _)

/-- **Scanning without comments.** A scan that overlooks comments yields the pieces of the text
without them. The induction is on the length, because an item can be as long as the text. -/
theorem bared (overlooks : Overlooks recognise recognise' change text) (before : Option Char) :
    Bared change (piecesFrom recognise before 0 text) (piecesFrom recognise' before 0 (bare text)) := by
  induction length : text.length using Nat.strongRecOn generalizing text before with
  | ind n ih =>
      have later : ∀ {c taken after}, text = c :: taken ++ after → ∀ before,
          Bared change (piecesFrom recognise before 0 after)
            (piecesFrom recognise' before 0 (bare after)) := by
        intro c taken after same before
        have shorter : after.length < n := by
          rw [← length, same]
          simp only [List.cons_append, List.length_cons, List.length_append]
          omega
        exact ih _ shorter (overlooks.suffix ⟨c :: taken, same.symm⟩) before rfl
      cases text with
      | nil => exact .nil
      | cons c rest =>
          by_cases sign : c = '%'
          · subst sign
            obtain ⟨inside, after, rfl, line, stops⟩ := exists_line rest
            refine overlooks.bared_comment line stops before ?_
            rintro more rfl
            exact later (congrArg (_ :: ·) (List.append_cons inside '\n' more)) _
          · have same := overlooks.same before (c :: rest) (List.suffix_refl _) (by simpa using sign)
            cases found : recognise before (c :: rest) with
            | none =>
                rw [found, Option.map_none, bare_cons sign] at same
                rw [piecesFrom_of_none found, bare_cons sign, piecesFrom_of_none same]
                exact .plain sign (later (List.append_cons [] c rest) (some c))
            | some item =>
                obtain ⟨value, after⟩ := item
                obtain ⟨taken, nonempty, ended, split⟩ := overlooks.item (List.suffix_refl _) found
                obtain ⟨d, more, rfl⟩ := List.exists_cons_of_ne_nil nonempty
                obtain rfl : c = d := (List.cons.inj split).1
                rw [found] at same
                rw [split] at found same ⊢
                exact bared_item found same sign ended (later split)

/-- The items of a text are those of the text without comments. -/
theorem items_bare (overlooks : Overlooks recognise recognise' change text) :
    items recognise' (bare text) = (items recognise text).map change :=
  (overlooks.bared none).items

/-- Every item of the text without comments is one of the text. -/
theorem exists_item (overlooks : Overlooks recognise recognise' change text) {value' : β}
    (member : .item value' ∈ pieces recognise' (bare text)) :
    ∃ value, .item value ∈ pieces recognise text ∧ change value = value' := by
  have found : value' ∈ items recognise' (bare text) := mem_filterMap_item?.mpr member
  rw [overlooks.items_bare] at found
  obtain ⟨value, inside, same⟩ := List.mem_map.mp found
  exact ⟨value, mem_filterMap_item?.mp inside, same⟩

end Overlooks

end Text

/-! ## Inert comments -/

/-- Comments that hold neither braces nor commands, and that are apart from every header: none begins
inside of a comment, and none stands in the text without comments that does not stand in the
text. -/
structure Inert (text : Text) : Prop where
  plain : ∀ {inside after}, Text.HasComment text inside after →
    '{' ∉ inside ∧ '}' ∉ inside ∧ '\\' ∉ inside
  outside : ∀ {inside after}, Text.HasComment text inside after → ∀ {start header}, start ≠ [] →
    start <:+ inside → IsHeader header → ¬ header <+: start ++ after
  whole : ∀ {rest header}, rest <:+ text → IsHeader header → header <+: Text.bare rest →
    header <+: rest

namespace Inert

variable {text front rest body : Text}

theorem braceFree (inert : Inert text) : Text.BraceFree text := by
  intro inside after found
  exact ⟨(inert.plain found).1, (inert.plain found).2.1⟩

theorem suffix (inert : Inert text) (place : rest <:+ text) : Inert rest where
  plain found := inert.plain (found.of_suffix place)
  outside found := inert.outside (found.of_suffix place)
  whole inside := inert.whole (inside.trans place)

/-- The comments in front of a text are inert if they end before it. -/
theorem of_append (inert : Inert (front ++ rest)) (ended : Text.Ended front) : Inert front := by
  have longer : ∀ {inside after}, Text.HasComment front inside after →
      Text.HasComment (front ++ rest) inside (after ++ rest) := by
    intro inside after found
    refine found.append ?_ rest
    rintro rfl
    exact ended inside found
  refine ⟨fun found => inert.plain (longer found), ?_, ?_⟩
  · intro inside after found start header nonempty suffix isHeader begins
    refine inert.outside (longer found) nonempty suffix isHeader (begins.trans ?_)
    rw [← List.append_assoc]
    exact List.prefix_append _ _
  · intro place header suffix isHeader begins
    have inText : place ++ rest <:+ front ++ rest := by
      obtain ⟨before, rfl⟩ := suffix
      exact ⟨before, (List.append_assoc _ _ _).symm⟩
    have begins' : header <+: place ++ rest := by
      refine inert.whole inText isHeader (begins.trans ?_)
      rw [Text.bare_append (ended.suffix suffix)]
      exact List.prefix_append _ _
    exact List.prefix_of_prefix_length_le begins' (List.prefix_append _ _)
      (Nat.le_trans begins.length_le (Text.length_bare_le place))

/-- The comments in a block that closes are inert. -/
theorem of_closing (inert : Inert (body ++ '}' :: rest)) : Inert body :=
  inert.of_append (ended_of_closing inert.braceFree)

/-- **Blocks that a header opens** are found in the text without comments as they are in the text. -/
theorem overlooks_blocks (inert : Inert text) {recognise : Text.Recogniser (Text × Text)}
    (finds : FindsBlocks recognise) :
    Text.Overlooks recognise recognise (fun found => (found.1, Text.bare found.2)) text where
  comment := by
    intro inside after found before start nonempty suffix
    refine Option.eq_none_iff_forall_ne_some.mpr ?_
    rintro ⟨⟨label, block⟩, rest⟩ here
    obtain ⟨header, opens, same, -⟩ := finds here
    have begins : header <+: start ++ after := ⟨block, same.symm⟩
    rcases List.suffix_cons_iff.mp suffix with rfl | inComment
    · exact opens.isHeader.not_begins_comment _ begins
    · exact inert.outside found nonempty inComment opens.isHeader begins
  lineEnd := by
    intro before rest
    refine Option.eq_none_iff_forall_ne_some.mpr ?_
    rintro ⟨⟨label, block⟩, after⟩ here
    obtain ⟨header, opens, same, -⟩ := finds here
    exact opens.isHeader.not_begins_line rest ⟨block, same.symm⟩
  same := by
    intro before rest suffix _
    cases here : recognise before rest with
    | some item =>
        obtain ⟨⟨label, block⟩, after⟩ := item
        obtain ⟨header, opens, rfl, rfl⟩ := finds here
        rw [Text.bare_append (Text.ended_of_not_mem opens.isHeader.noComment),
          Text.bare_of_not_mem opens.isHeader.noComment, opens.found]
        rfl
    | none =>
        refine Option.eq_none_iff_forall_ne_some.mpr ?_
        rintro ⟨⟨label, block⟩, after⟩ there
        obtain ⟨header, opens, same, -⟩ := finds there
        obtain ⟨inside, rfl⟩ := inert.whole suffix opens.isHeader ⟨block, same.symm⟩
        rw [opens.found] at here
        cases here
  item := by
    intro before rest value after _ here
    obtain ⟨label, block⟩ := value
    obtain ⟨header, opens, rfl, rfl⟩ := finds here
    exact ⟨header, opens.isHeader.ne_nil, Text.ended_of_not_mem opens.isHeader.noComment, rfl⟩

end Inert

/-! ## Checking that comments are inert -/

/-- A test that every header passes. -/
def passesForHeader (text : Text) : Bool :=
  (Variables.definitionAt none text).isSome ||
    Hand.all.any (fun hand => (declarationAt hand none text).isSome) ||
    (transposedBlockAt none (text ++ ['}'])).isSome

/-- What stands up to the first opening brace of a text, if it passes for a header. -/
def header? (text : Text) : Option Text :=
  let header := text.takeWhile (· ≠ '{') ++ ['{']
  if header.isPrefixOf text && passesForHeader header then some header else none

theorem IsHeader.passes {header : Text} (isHeader : IsHeader header) :
    passesForHeader header = true := by
  simp only [passesForHeader, Bool.or_eq_true, List.any_eq_true]
  cases isHeader with
  | @definition name gap gap' nonempty word blank blank' =>
      have found : Variables.definitionAt none (name ++ (gap ++ '=' :: (gap' ++ ['{']))) =
          some ((name, []), []) :=
        definitionAt_eq_some_iff.mpr ⟨nonempty, word, rfl, gap, gap', blank, blank', rfl⟩
      exact .inl (.inl (by rw [found]; rfl))
  | @voice hand gap gap' header blank blank' =>
      have found : declarationAt hand none
          (hand.voiceName ++ (gap ++ '=' :: (gap' ++ header.text))) =
          some ((header.anchor.text, []), []) :=
        declarationAt_eq_some_iff.mpr
          ⟨rfl, rfl, gap, gap', header, blank, blank', rfl, by rw [List.append_nil]⟩
      exact .inl (.inr ⟨hand, by cases hand <;> decide, by rw [found]; rfl⟩)
  | transposed header =>
      have found := transposedBlockAt_written none header (balanced_of_no_brace
        List.not_mem_nil List.not_mem_nil) []
      exact .inr (by rw [← List.nil_append ['}'], found]; rfl)

/-- The header that begins a text is found. -/
theorem header?_of_begins {header text : Text} (isHeader : IsHeader header)
    (begins : header <+: text) : header? text = some header := by
  have passes := isHeader.passes
  obtain ⟨front, rfl, chars⟩ := isHeader.exists_front
  obtain ⟨rest, rfl⟩ := begins
  have noBrace : ∀ c ∈ front, decide (c ≠ '{') = true := by
    intro c member
    refine decide_eq_true ?_
    rintro rfl
    exact absurd (chars '{' member) (by decide +kernel)
  have front' : (front ++ ['{'] ++ rest).takeWhile (· ≠ '{') = front := by
    rw [List.append_assoc, List.takeWhile_append_of_pos noBrace]
    exact List.append_nil front
  have begins : (front ++ ['{']).isPrefixOf (front ++ ['{'] ++ rest) = true :=
    List.isPrefixOf_iff_prefix.mpr (List.prefix_append _ _)
  simp only [header?, front', begins, passes, Bool.and_self, if_true]

/-- Whether a comment is inert before the text that follows it. -/
def isInertBefore (inside after : Text) : Bool :=
  inside.all (fun c => c ≠ '{' && c ≠ '}' && c ≠ '\\') &&
    inside.tails.all fun start => start.isEmpty || (header? (start ++ after)).isNone

/-- Whether the comments of a text are inert. -/
def isInert (text : Text) : Bool :=
  text.tails.all fun rest =>
    (header? (Text.bare rest)).all (·.isPrefixOf rest) &&
      match rest with
      | '%' :: line =>
          isInertBefore (line.takeWhile (· ≠ '\n')) (line.dropWhile (· ≠ '\n'))
      | _ => true

/-- **A check for inert comments.** -/
theorem inert_of_isInert {text : Text} (checked : isInert text = true) : Inert text := by
  have places := List.all_eq_true.mp checked
  have comments : ∀ {inside after}, Text.HasComment text inside after →
      isInertBefore inside after = true := by
    intro inside after found
    have place := places _ ((List.mem_tails _ _).mpr found.place)
    have split := Text.splitWhile_line found.line found.stops
    rw [Text.splitWhile, Prod.mk.injEq] at split
    have atSign : isInertBefore ((inside ++ after).takeWhile (· ≠ '\n'))
        ((inside ++ after).dropWhile (· ≠ '\n')) = true := (Bool.and_eq_true_iff.mp place).2
    rwa [split.1, split.2] at atSign
  refine ⟨?_, ?_, ?_⟩
  · intro inside after found
    have chars := List.all_eq_true.mp (Bool.and_eq_true_iff.mp (comments found)).1
    have absent : ∀ c, (c ≠ '{' && c ≠ '}' && c ≠ '\\') = false → c ∉ inside := by
      intro c fails
      exact Text.not_mem_of_test chars fails
    exact ⟨absent '{' rfl, absent '}' rfl, absent '\\' rfl⟩
  · intro inside after found start header nonempty suffix isHeader begins
    have starts := List.all_eq_true.mp (Bool.and_eq_true_iff.mp (comments found)).2
    have none := starts start ((List.mem_tails _ _).mpr suffix)
    rw [header?_of_begins isHeader begins] at none
    simp [nonempty] at none
  · intro rest header suffix isHeader begins
    have place := (Bool.and_eq_true_iff.mp (places rest ((List.mem_tails _ _).mpr suffix))).1
    rw [header?_of_begins isHeader begins] at place
    exact List.isPrefixOf_iff_prefix.mp place

/-! ## Cuts without comments -/

/-- A cut without the comments inside of it. -/
def Cut.bare : Cut → Cut
  | .block found => .block { found with body := Text.bare found.body }
  | .reference body => .reference (Text.bare body)

/-- A segment without its comments. -/
def Segment.bare : Segment → Segment
  | .stretch text => .stretch (Text.bare text)
  | .cut found => .cut found.bare

/-- The second table has the bodies of the first one without their comments. -/
def Variables.Bares (table table' : Variables) : Prop :=
  ∀ name, table'.body? name = (table.body? name).map Text.bare

section Cuts

variable {table table' : Variables} {text : Text}

theorem cutAt_of_ne {c : Char} (other : c ≠ '\\') (table : Variables) (before : Option Char)
    (more : Text) : cutAt table before (c :: more) = none := by
  have block : transposedBlockAt before (c :: more) = none := transposedBlockAt_of_ne other more
  have reference : referenceAt table before (c :: more) = none :=
    referenceAt_of_ne other table more
  rw [cutAt, block, reference]
  rfl

theorem takeRun?_bare {test : Char → Bool} (sign : test '%' = false) (lineEnd : test '\n' = false)
    (text : Text) :
    takeRun? test (Text.bare text) =
      (takeRun? test text).map fun found => (found.1, Text.bare found.2) := by
  obtain ⟨run, rest, split⟩ : ∃ run rest, Text.splitWhile test text = (run, rest) := ⟨_, _, rfl⟩
  rw [takeRun?, takeRun?, split, Text.splitWhile_bare sign lineEnd split]
  cases run <;> rfl

theorem referenceAt_bare (bares : table.Bares table') (before : Option Char)
    (noComment : text.head? ≠ some '%') :
    referenceAt table' before (Text.bare text) =
      (referenceAt table before text).map fun found => (Text.bare found.1, Text.bare found.2) := by
  cases text with
  | nil => rfl
  | cons c rest =>
      have sign : c ≠ '%' := by simpa using noComment
      rw [Text.bare_cons sign]
      by_cases command : c = '\\'
      · subst command
        have word : Text.isWord '%' = false := by decide +kernel
        simp only [referenceAt, bind, takeRun?_bare word isWord_newline]
        cases takeRun? Text.isWord rest with
        | none => rfl
        | some run =>
            simp only [Option.map_some, Option.bind_some, bares run.1]
            cases table.body? run.1 <;> rfl
      · have missing : ∀ table more, referenceAt table before (c :: more) = none :=
          referenceAt_of_ne command
        rw [missing, missing]
        rfl

theorem Inert.transposedBlockAt_bare (inert : Inert text) (before : Option Char) :
    transposedBlockAt before (Text.bare text) =
      (transposedBlockAt before text).map fun found =>
        ({ found.1 with body := Text.bare found.1.body }, Text.bare found.2) := by
  by_cases begins : ∃ header : TransposeHeader, header.text <+: text
  · obtain ⟨header, inside, rfl⟩ := begins
    have noComment := (IsHeader.transposed header).noComment
    have closing := splitBlock?_bare (inert.suffix ⟨header.text, rfl⟩).braceFree
    rw [Text.bare_append (Text.ended_of_not_mem noComment), Text.bare_of_not_mem noComment,
      transposedBlockAt_append, transposedBlockAt_append, closing, Option.map_map, Option.map_map]
    rfl
  · have missing : ∀ text', (∀ header : TransposeHeader, ¬ header.text <+: text') →
        transposedBlockAt before text' = none := by
      intro text' none
      refine Option.eq_none_iff_forall_ne_some.mpr ?_
      rintro ⟨block, rest⟩ found
      obtain ⟨header, same, -⟩ := transposedBlockAt_eq_some_iff.mp found
      exact none header ⟨_, same.symm⟩
    rw [missing text (not_exists.mp begins), missing (Text.bare text)]
    · rfl
    · intro header here
      exact begins ⟨header, inert.whole (List.suffix_refl _) (.transposed header) here⟩

/-- **What is cut out of a body** is cut out of the body without comments. -/
theorem Inert.overlooks_cuts (inert : Inert text) (bares : table.Bares table') :
    Text.Overlooks (cutAt table) (cutAt table') Cut.bare text where
  comment := by
    intro inside after found before start nonempty suffix
    obtain ⟨c, more, rfl⟩ := List.exists_cons_of_ne_nil nonempty
    refine cutAt_of_ne ?_ table before _
    rintro rfl
    rcases List.mem_cons.mp (suffix.mem List.mem_cons_self) with same | member
    · cases same
    · exact (inert.plain found).2.2 member
  lineEnd := cutAt_of_ne (by decide) table
  same := by
    intro before rest suffix noComment
    have block := (inert.suffix suffix).transposedBlockAt_bare before
    have reference := referenceAt_bare bares before noComment
    rw [cutAt, cutAt, block, reference]
    cases transposedBlockAt before rest with
    | some found => rfl
    | none => cases referenceAt table before rest <;> rfl
  item := by
    intro before rest value after suffix found
    unfold cutAt at found
    cases block : transposedBlockAt before rest with
    | some item =>
        rw [block] at found
        cases found
        obtain ⟨header, rfl, -⟩ := transposedBlockAt_eq_some_iff.mp block
        have closing := (inert.suffix suffix).suffix ⟨header.text, rfl⟩
        refine ⟨header.text ++ (item.1.body ++ ['}']), by simp [TransposeHeader.text], ?_, ?_⟩
        · exact (Text.ended_of_not_mem (IsHeader.transposed header).noComment).append
            ((ended_of_closing closing.braceFree).append (Text.ended_of_not_mem (by decide)))
        · simp only [List.append_assoc, List.cons_append, List.nil_append]
    | none =>
        rw [block] at found
        obtain ⟨⟨body, rest'⟩, reference, same⟩ := Option.map_eq_some_iff.mp found
        cases same
        obtain ⟨name, rfl, -, word, -, -⟩ := referenceAt_eq_some_iff.mp reference
        refine ⟨'\\' :: name, List.cons_ne_nil _ _, Text.ended_of_not_mem ?_, rfl⟩
        rw [List.mem_cons, not_or]
        exact ⟨by decide, Text.not_mem_of_test word (by decide +kernel)⟩

theorem joinStretches_append (run text : Text) (pieces : List (Text.Piece Cut)) :
    joinStretches run (text.map .plain ++ pieces) = joinStretches (run ++ text) pieces := by
  induction text generalizing run with
  | nil => rw [List.append_nil]; rfl
  | cons c more ih =>
      have later := ih (run ++ [c])
      rwa [List.append_assoc] at later

/-- **The segments of a body without comments** are its segments without comments. -/
theorem joinStretches_bare {pieces pieces' : List (Text.Piece Cut)}
    (bared : Text.Bared Cut.bare pieces pieces') {run : Text} (ended : Text.Ended run) :
    joinStretches (Text.bare run) pieces' = (joinStretches run pieces).map Segment.bare := by
  induction bared generalizing run with
  | nil => rfl
  | @plain c pieces pieces' other _ ih =>
      have single : '%' ∉ [c] := by simpa [eq_comm] using other
      have later := ih (ended.append (Text.ended_of_not_mem single))
      rwa [Text.bare_append ended, Text.bare_of_not_mem single] at later
  | @item value _ _ _ ih =>
      have later := ih (Text.ended_of_not_mem List.not_mem_nil)
      exact congrArg (.stretch (Text.bare run) :: .cut value.bare :: ·) later
  | @line inside pieces pieces' line _ ih =>
      have lines : Text.Ended ('%' :: (inside ++ ['\n'])) :=
        (Text.ended_of_not_mem List.not_mem_nil).after_line ('%' :: inside)
      have later := ih (ended.append lines)
      rw [Text.bare_append ended, Text.bare_comment line (Text.stops_cons.mpr rfl)] at later
      rw [joinStretches_append]
      change joinStretches (Text.bare run ++ ['\n']) pieces' =
        (joinStretches (run ++ '%' :: inside ++ ['\n']) pieces).map Segment.bare
      rw [List.append_assoc]
      exact later
  | @last inside line =>
      have comment := Text.bare_comment line Text.stops_nil
      rw [List.append_nil] at comment
      have whole := joinStretches_append run ('%' :: inside) []
      rw [List.append_nil] at whole
      rw [whole]
      simp only [joinStretches, List.map_cons, List.map_nil, Segment.bare]
      rw [Text.bare_append ended, comment, Text.bare_nil, List.append_nil]

/-- The comments in a stretch of a cut body end before the cut that follows it. -/
theorem Cuts.ended_of_stretch {pieces : List (Text.Piece Cut)} (cuts : Cuts table text pieces)
    {run stretch : Text}
    (plain : ∀ inside after, Text.HasComment (run ++ text) inside after → '\\' ∉ inside)
    (ended : Text.Ended (run ++ text)) (member : .stretch stretch ∈ joinStretches run pieces) :
    Text.Ended stretch := by
  induction cuts generalizing run with
  | nil =>
      obtain rfl : stretch = run := by simpa [joinStretches] using member
      rwa [List.append_nil] at ended
  | @plain c rest pieces _ _ _ ih =>
      have split : run ++ c :: rest = run ++ [c] ++ rest := List.append_cons run c rest
      rw [split] at plain ended
      exact ih plain ended member
  | @block rest pieces header body _ _ ih =>
      rcases List.mem_cons.mp member with same | later
      · cases same
        exact Text.ended_of_append (by decide) plain
      · have place : [] ++ rest <:+ run ++ (header.text ++ (body ++ '}' :: rest)) :=
          ⟨run ++ (header.text ++ (body ++ ['}'])), by simp⟩
        have member' : .stretch stretch ∈ joinStretches [] pieces := by simpa using later
        exact ih (fun inside after found => plain inside after (found.of_suffix place))
          (ended.suffix place) member'
  | @reference name _ rest pieces _ _ _ _ _ _ ih =>
      rcases List.mem_cons.mp member with same | later
      · cases same
        exact Text.ended_of_append (by decide) plain
      · have place : [] ++ rest <:+ run ++ '\\' :: (name ++ rest) := ⟨run ++ '\\' :: name, by simp⟩
        have member' : .stretch stretch ∈ joinStretches [] pieces := by simpa using later
        exact ih (fun inside after found => plain inside after (found.of_suffix place))
          (ended.suffix place) member'

end Cuts

end Clavier
