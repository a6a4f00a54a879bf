import Clavier.Practice.Studio
import Clavier.Proofs.ForgedMarkers
import Clavier.Proofs.MidiTexts
import Clavier.Proofs.VoiceHeaders

/-!
# Trimmed documents

Blanks around a document are not read. Whatever is looked for in a document begins and ends with
a character that is no blank (`PassesBlanks`), so a scan finds the same items with blanks around
the text as without, and blanks at its end only lengthen what follows the last header
(`PassesBlanks.items_between`). There they neither open nor close a block
(`splitBlock?_append_blank`). A trimmed document therefore has the same score, whether its
blocks close or not (`Score.ofSource_trim`).

This is why a studio can take a document from a file, which is read as it is, or as an argument,
which is trimmed: both ways lead to the same score, exercise and reply.
-/

set_option autoImplicit false

namespace Clavier

namespace Text

/-! ## Scans between blanks -/

/-- A part that ends with no blank ends before the blanks at the end of a text. -/
theorem exists_rest_of_append_blank {text trail front rest : Text} {c : Char}
    (blank : AllBlank trail) (noBlank : isBlank c = false)
    (same : text ++ trail = front ++ c :: rest) :
    ∃ shorter, text = front ++ c :: shorter ∧ rest = shorter ++ trail := by
  have outside : ∀ {tail : Text}, c :: tail <:+ trail → False := fun suffix => by
    rw [blank c (suffix.mem List.mem_cons_self)] at noBlank
    cases noBlank
  rcases List.append_eq_append_iff.mp same with ⟨part, rfl, trailing⟩ | ⟨part, rfl, after⟩
  · exact absurd ⟨part, trailing.symm⟩ outside
  · cases part with
    | nil => exact absurd ⟨[], after⟩ outside
    | cons d shorter =>
        obtain ⟨rfl, rfl⟩ := List.cons.inj after
        exact ⟨shorter, rfl, rfl⟩

variable {α : Type} {recognise : Recogniser α} {lengthen : Text → α → α}

/-- A recogniser that takes nothing from blanks: no item begins with one, a blank before an item is
like the start of the text, and blanks at the end of a text only lengthen what an item says of
the text after it. -/
structure PassesBlanks (recognise : Recogniser α) (lengthen : Text → α → α) : Prop where
  none_at : ∀ {c : Char}, isBlank c = true → ∀ before rest, recognise before (c :: rest) = none
  starts : ∀ {c : Char}, isBlank c = true → ∀ text, recognise (some c) text = recognise none text
  ends : ∀ {trail : Text}, AllBlank trail → ∀ before text, recognise before (text ++ trail) =
    (recognise before text).map fun found => (lengthen trail found.1, found.2 ++ trail)

namespace PassesBlanks

/-- Items with a text of their own, which neither begins nor ends with a blank and is found before
any other text, take nothing from blanks. -/
theorem of_found
    (starts : ∀ {c : Char}, isBlank c = true →
      ∀ text, recognise (some c) text = recognise none text)
    (found : ∀ {before text value rest}, recognise before text = some (value, rest) →
      Stops isBlank text ∧ ∃ front last, isBlank last = false ∧ text = front ++ last :: rest ∧
        (∀ other, (recognise before (front ++ last :: other)).isSome = true) ∧
        ∀ trail, recognise before (text ++ trail) = some (lengthen trail value, rest ++ trail)) :
    PassesBlanks recognise lengthen where
  none_at := by
    intro c blank before rest
    cases here : recognise before (c :: rest) with
    | none => rfl
    | some item =>
        have noBlank := stops_cons.mp (found here).1
        rw [blank] at noBlank
        cases noBlank
  starts := starts
  ends := by
    intro trail blank before text
    cases here : recognise before text with
    | some item =>
        obtain ⟨-, -, -, -, -, -, longer⟩ := found here
        exact longer trail
    | none =>
        cases longer : recognise before (text ++ trail) with
        | none => rfl
        | some item =>
            obtain ⟨-, front, last, noBlank, same, every, -⟩ := found longer
            obtain ⟨shorter, rfl, -⟩ := exists_rest_of_append_blank blank noBlank same
            have again := every shorter
            rw [here] at again
            cases again

variable (passes : PassesBlanks recognise lengthen)
include passes

/-- A scan finds nothing in blanks. -/
theorem piecesFrom_blanks {gap : Text} (blank : AllBlank gap) (before : Option Char) (text : Text) :
    piecesFrom recognise before 0 (gap ++ text) =
      gap.map .plain ++ piecesFrom recognise (gap.getLast?.or before) 0 text :=
  piecesFrom_append_plain before fun before c _ suffix =>
    passes.none_at (blank c (suffix.mem List.mem_cons_self)) before _

/-- After blanks a scan goes on as at the start of a text. -/
theorem pieces_lead {lead : Text} (blank : AllBlank lead) (text : Text) :
    pieces recognise (lead ++ text) = lead.map .plain ++ pieces recognise text := by
  rw [pieces, passes.piecesFrom_blanks blank]
  refine congrArg _ (piecesFrom_before ?_)
  cases last : lead.getLast? with
  | none => rfl
  | some c => exact passes.starts (blank c (List.mem_of_getLast? last)) text

/-- A stretch without items and a blank before a text leave its items as they are. -/
theorem items_after_stretch {run text : Text} {c : Char} (blank : isBlank c = true)
    (missing : ∀ before d more, d :: more <:+ run →
      recognise before (d :: (more ++ c :: text)) = none) :
    items recognise (run ++ c :: text) = items recognise text := by
  rw [items, pieces, piecesFrom_append_plain none missing, List.filterMap_append,
    filterMap_item?_stretch, List.nil_append, piecesFrom_of_none (passes.none_at blank _ _),
    piecesFrom_before (passes.starts blank text)]
  rfl

/-- The items of a text before blanks, while some characters of the text are still to be skipped. -/
theorem items_trail {trail : Text} (blank : AllBlank trail) (before : Option Char) (skip : Nat)
    (text : Text) (inside : skip ≤ text.length) :
    (piecesFrom recognise before skip (text ++ trail)).filterMap Piece.item? =
      ((piecesFrom recognise before skip text).filterMap Piece.item?).map (lengthen trail) := by
  induction text generalizing before skip with
  | nil =>
      obtain rfl : skip = 0 := Nat.le_zero.mp inside
      have scan := passes.piecesFrom_blanks blank before []
      rw [List.append_nil] at scan
      rw [List.nil_append, scan, List.filterMap_append, filterMap_item?_stretch]
      rfl
  | cons c more ih =>
      cases skip with
      | succ skip => exact ih (some c) skip (Nat.le_of_succ_le_succ inside)
      | zero =>
          have found := passes.ends blank before (c :: more)
          rw [List.cons_append] at found ⊢
          cases here : recognise before (c :: more) with
          | none =>
              rw [here, Option.map_none] at found
              rw [piecesFrom_of_none found, piecesFrom_of_none here]
              exact ih (some c) 0 (Nat.zero_le _)
          | some item =>
              obtain ⟨value, after⟩ := item
              rw [here, Option.map_some] at found
              have width : (more ++ trail).length - (after ++ trail).length =
                  more.length - after.length := by
                simp only [List.length_append]
                omega
              simp only [piecesFrom, found, here, width]
              exact congrArg (lengthen trail value :: ·) (ih (some c) _ (Nat.sub_le _ _))

/-- **Scanning between blanks** finds the items of the text. -/
theorem items_between {lead trail : Text} (blank : AllBlank lead) (blank' : AllBlank trail)
    (text : Text) :
    items recognise (lead ++ (text ++ trail)) = (items recognise text).map (lengthen trail) := by
  rw [items, passes.pieces_lead blank, List.filterMap_append, filterMap_item?_stretch]
  exact passes.items_trail blank' none 0 text (Nat.zero_le _)

end PassesBlanks

end Text

/-! ## What is looked for in a document -/

/-- A header neither begins nor ends with a blank. -/
theorem FindsBlocks.passesBlanks {recognise : Text.Recogniser (Text × Text)}
    (finds : FindsBlocks recognise)
    (starts : ∀ {c : Char}, Text.isBlank c = true →
      ∀ text, recognise (some c) text = recognise none text) :
    Text.PassesBlanks recognise fun trail found => (found.1, found.2 ++ trail) := by
  refine .of_found starts fun {before text value rest} found => ?_
  obtain ⟨label, inside⟩ := value
  obtain ⟨header, opens, rfl, rfl⟩ := finds found
  obtain ⟨front, rfl, -⟩ := opens.isHeader.exists_front
  have every : ∀ other,
      recognise before (front ++ '{' :: other) = some ((label, other), other) := by
    intro other
    rw [List.append_cons]
    exact opens.found other
  refine ⟨?_, front, '{', rfl, (List.append_cons front '{' rest).symm, ?_, ?_⟩
  · obtain ⟨c, more, same⟩ := List.exists_cons_of_ne_nil opens.isHeader.ne_nil
    have stops := opens.isHeader.stops_isBlank
    rw [same] at stops ⊢
    exact Text.stops_cons.mpr (Text.stops_cons.mp stops)
  · exact fun other => Option.isSome_iff_exists.mpr ⟨_, every other⟩
  · intro trail
    rw [List.append_assoc]
    exact opens.found (rest ++ trail)

theorem passesBlanks_definitionAt : Text.PassesBlanks Variables.definitionAt
    fun trail found => (found.1, found.2 ++ trail) :=
  findsBlocks_definitionAt.passesBlanks fun _ _ => rfl

theorem passesBlanks_declarationAt (hand : Hand) : Text.PassesBlanks (declarationAt hand)
    fun trail found => (found.1, found.2 ++ trail) := by
  refine (findsBlocks_declarationAt hand).passesBlanks fun blank text => ?_
  simp only [declarationAt, Option.any_some, Option.any_none, isWord_of_isBlank blank]

theorem passesBlanks_fieldAt (field : Field) :
    Text.PassesBlanks (fieldAt field.name) fun _ value => value := by
  refine .of_found (fun _ _ => rfl) fun {before text value rest} found => ?_
  obtain ⟨nonempty, noQuote, gap, gap', blank, blank', rfl⟩ := fieldAt_eq_some_iff.mp found
  have every : ∀ other, fieldAt field.name before
      (field.name ++ (gap ++ '=' :: (gap' ++ '"' :: (value ++ '"' :: other)))) =
        some (value, other) := fun other =>
    fieldAt_eq_some_iff.mpr ⟨nonempty, noQuote, gap, gap', blank, blank', rfl⟩
  have split : ∀ other, field.name ++ (gap ++ '=' :: (gap' ++ '"' :: value)) ++ '"' :: other =
      field.name ++ (gap ++ '=' :: (gap' ++ '"' :: (value ++ '"' :: other))) := by
    simp only [List.append_assoc, List.cons_append, implies_true]
  refine ⟨by cases field <;> exact Text.stops_cons.mpr rfl, _, '"', rfl, (split rest).symm, ?_, ?_⟩
  · intro other
    rw [split, every]
    rfl
  · intro trail
    rw [← split, List.append_assoc, List.cons_append, split, every]

/-! ## Blocks before blanks -/

/-- Blanks at the end of a text neither close a block nor keep one open. -/
theorem splitBlock?_append_blank {trail : Text} (blank : Text.AllBlank trail) (text : Text) :
    splitBlock? (text ++ trail) =
      (splitBlock? text).map fun block => (block.1, block.2 ++ trail) := by
  cases closes : splitBlock? text with
  | some block =>
      obtain ⟨rfl, balanced⟩ := splitBlock?_eq_some_iff.mp closes
      rw [List.append_assoc, List.cons_append]
      exact splitBlock?_of_balanced balanced (block.2 ++ trail)
  | none =>
      rw [Option.map_none, ← Option.not_isSome_iff_eq_none]
      intro longer
      obtain ⟨⟨body, rest⟩, closes'⟩ := Option.isSome_iff_exists.mp longer
      obtain ⟨same, balanced⟩ := splitBlock?_eq_some_iff.mp closes'
      obtain ⟨shorter, rfl, -⟩ := Text.exists_rest_of_append_blank blank rfl same
      cases closes.symm.trans (splitBlock?_of_balanced balanced shorter)

/-! ## Documents between blanks -/

/-- The voice of a hand is read off its first declaration. -/
theorem declaredVoice_eq_head? (source : Text) (table : Variables) (hand : Hand) :
    declaredVoice source table hand =
      match (Text.items (declarationAt hand) source).head? with
      | none => .ok []
      | some (anchor, inside) =>
          match splitBlock? inside with
          | none => .ok []
          | some (body, _) => resolveVoice table defaultBudget (some anchor) body := by
  rw [← Text.firstItem?_fst, declaredVoice]
  cases Text.firstItem? (declarationAt hand) source <;> rfl

section Documents

variable {lead trail : Text} (blank : Text.AllBlank lead) (blank' : Text.AllBlank trail)
  (source : Text)
include blank blank'

theorem Variables.ofSource_between :
    Variables.ofSource (lead ++ (source ++ trail)) = .ofSource source := by
  rw [Variables.ofSource, passesBlanks_definitionAt.items_between blank blank', List.filterMap_map,
    Variables.ofSource]
  refine congrArg List.reverse (List.filterMap_congr fun found _ => ?_)
  simp only [Function.comp_apply, splitBlock?_append_blank blank', Option.map_map]
  rfl

theorem declaredVoice_between (table : Variables) (hand : Hand) :
    declaredVoice (lead ++ (source ++ trail)) table hand = declaredVoice source table hand := by
  rw [declaredVoice_eq_head?, declaredVoice_eq_head?,
    (passesBlanks_declarationAt hand).items_between blank blank', List.head?_map]
  cases (Text.items (declarationAt hand) source).head? with
  | none => rfl
  | some found =>
      simp only [Option.map_some, splitBlock?_append_blank blank']
      cases splitBlock? found.2 <;> rfl

theorem firstField?_between (field : Field) :
    firstField? field.name (lead ++ (source ++ trail)) = firstField? field.name source := by
  rw [firstField?, firstField?, Text.firstItem?_fst, Text.firstItem?_fst,
    (passesBlanks_fieldAt field).items_between blank blank', List.map_id']

/-- Blanks around a document do not change its score. -/
theorem Score.ofSource_between :
    Score.ofSource (lead ++ (source ++ trail)) = Score.ofSource source := by
  have metadata : Metadata.ofSource (lead ++ (source ++ trail)) = .ofSource source := by
    have title := firstField?_between blank blank' source .title
    have composer := firstField?_between blank blank' source .composer
    exact congrArg₂ Metadata.mk title composer
  simp only [Score.ofSource, Variables.ofSource_between blank blank',
    declaredVoice_between blank blank', metadata]

end Documents

/-- **Trimming** a document does not change its score. -/
theorem Score.ofSource_trim (source : Text) :
    Score.ofSource (Text.trim source) = Score.ofSource source := by
  obtain ⟨lead, trail, blank, blank', same, -, -⟩ := Text.exists_gaps_of_trim source
  have between := Score.ofSource_between blank blank' (Text.trim source)
  rwa [← same, eq_comm] at between

/-! ## Two ways to take a document -/

/-- Trimming leaves something of a text that is not all blanks. -/
theorem Text.trim_ne_nil {text : Text} (notBlank : ∃ c ∈ text, isBlank c = false) :
    trim text ≠ [] := by
  obtain ⟨c, member, noBlank⟩ := notBlank
  obtain ⟨lead, trail, blank, blank', same, -, -⟩ := exists_gaps_of_trim text
  intro empty
  rw [same, empty, List.nil_append] at member
  have blank := (List.mem_append.mp member).elim (blank c) (blank' c)
  rw [noBlank] at blank
  cases blank

/-- A text that neither begins nor ends with a blank stays as it is. -/
theorem Text.trim_of_stops {text : Text} (stops : Stops isBlank text)
    (stops' : Stops isBlank text.reverse) : trim text = text := by
  have whole := trim_append (List.forall_mem_nil _) (List.forall_mem_nil _) stops stops'
  rwa [List.nil_append, List.append_nil] at whole

section FirstWord

variable {word text : Text} (nonempty : word ≠ [])
  (noBlank : ∀ c ∈ word, Text.isBlank c = false)
include nonempty noBlank

/-- The first word of a text is cut off with the blanks after it. -/
theorem Text.cutFirstWord_append {gap rest : Text} (someGap : gap ≠ []) (blank : AllBlank gap)
    (stops : Stops isBlank rest) : cutFirstWord (word ++ (gap ++ rest)) = (word, rest) := by
  have front : trimStart (word ++ (gap ++ rest)) = word ++ (gap ++ rest) :=
    trimStart_append (List.forall_mem_nil _) (stops_run nonempty noBlank _)
  have split : splitWhile (fun c => !isBlank c) (word ++ (gap ++ rest)) = (word, gap ++ rest) := by
    obtain ⟨d, others, rfl⟩ := List.exists_cons_of_ne_nil someGap
    refine splitWhile_eq_iff.mpr ⟨rfl, fun c member => ?_, stops_cons.mpr ?_⟩
    · rw [noBlank c member]
      rfl
    · rw [blank d List.mem_cons_self]
      rfl
  simp only [cutFirstWord, front, split, trimStart_append blank stops]

/-- Blanks around the two words of an action are not read. -/
theorem Studio.parseAction_between {lead gap argument trail : Text}
    (blankLead : Text.AllBlank lead) (someGap : gap ≠ []) (blankGap : Text.AllBlank gap)
    (nonempty' : argument ≠ []) (stops : Text.Stops Text.isBlank argument)
    (stops' : Text.Stops Text.isBlank argument.reverse) (blankTrail : Text.AllBlank trail) :
    parseAction (lead ++ (word ++ (gap ++ (argument ++ trail)))) =
      (.ofWord (Text.lower word), argument) := by
  have ends : Text.Stops Text.isBlank (word ++ (gap ++ argument)).reverse := by
    obtain ⟨c, more, last⟩ := List.exists_cons_of_ne_nil (mt List.reverse_eq_nil_iff.mp nonempty')
    rw [last] at stops'
    rw [List.reverse_append, List.reverse_append, last]
    exact Text.stops_cons.mpr (Text.stops_cons.mp stops')
  have trimmed := Text.trim_append blankLead blankTrail (Text.stops_run nonempty noBlank _) ends
  have cut := Text.cutFirstWord_append nonempty noBlank someGap blankGap stops
  simp only [List.append_assoc] at trimmed
  simp only [parseAction, trimmed, cut, Text.trim_of_stops stops stops']

/-- An action that is a word and a text is the command of the word with the trimmed text. -/
theorem Studio.parseAction_word (notBlank : ∃ c ∈ text, Text.isBlank c = false) :
    parseAction (word ++ ' ' :: text) = (.ofWord (Text.lower word), Text.trim text) := by
  obtain ⟨gap, trail, blank, blank', same, stops, stops'⟩ := Text.exists_gaps_of_trim text
  have parsed := parseAction_between nonempty noBlank (List.forall_mem_nil _)
    (List.cons_ne_nil ' ' gap) (List.forall_mem_cons.mpr ⟨rfl, blank⟩)
    (Text.trim_ne_nil notBlank) stops stops' blank'
  rwa [List.nil_append, List.cons_append, ← same] at parsed

end FirstWord

namespace Studio

/-- The reply of a command that succeeds is the reply to its action. -/
theorem act_of_perform [MidiLibrary] {studio next : Studio} {action : Text} {reply : Reply}
    (performed : studio.perform (parseAction action).2 (parseAction action).1 = (.ok reply, next)) :
    studio.act action = (.ok reply, next) := by
  unfold act
  dsimp only
  rw [performed]

/-- A studio takes up a score with a reply that the score determines. -/
theorem exists_take (score : Score) : ∃ message, ∀ studio : Studio,
    studio.take score =
      (.ok (.done message), { studio with loaded := some ⟨score, .ofScore score⟩ }) :=
  ⟨_, fun _ => rfl⟩

/-- A file whose lines end with line feeds is taken as the text that it holds. -/
theorem load_eq_take {studio : Studio} {argument path text : Text} {score : Score}
    (named : singlePath "load".toList argument = .ok path) (noNul : '\x00' ∉ path)
    (content : studio.directory.read (Path.normal path) = .ok (Utf8.encode text))
    (noReturn : '\r' ∉ text) (found : Score.ofSource text = .ok score) :
    studio.load argument = studio.take score := by
  have loads : loadDocument studio.directory path = .ok score := by
    rw [loadDocument, checkedPath, if_neg noNul]
    simp only [bind, Except.bind, content, Utf8.decode_encode,
      Text.unifyLineEnds_of_not_mem noReturn, found]
    rfl
  rw [load, named]
  simp only [bind, Except.bind, loads]

/-- A source text is taken without the blanks around it, as the same document. -/
theorem source_trim_eq_take {text : Text} {score : Score} (studio : Studio)
    (notBlank : ∃ c ∈ text, Text.isBlank c = false) (found : Score.ofSource text = .ok score) :
    studio.source (Text.trim text) = studio.take score := by
  have nonempty : (Text.trim text).isEmpty = false :=
    List.isEmpty_eq_false_iff.mpr (Text.trim_ne_nil notBlank)
  rw [source, nonempty, Score.ofSource_trim, found]
  rfl

/-- **Two ways to take a document.** A text without carriage returns that is not all blanks can be
loaded from a file that holds its bytes, or given as a source text to any other studio. Both
ways the studio replies the same, and then holds the same score with a new exercise over it; it
is the score of the text, with the blanks around it or without them. -/
theorem act_load_eq_act_source [MidiLibrary] {studio other : Studio} {action path text : Text}
    (command : (parseAction action).1 = .load)
    (named : singlePath "load".toList (parseAction action).2 = .ok path) (noNulPath : '\x00' ∉ path)
    (content : studio.directory.read (Path.normal path) = .ok (Utf8.encode text))
    (notBlank : ∃ c ∈ text, Text.isBlank c = false) (noReturn : '\r' ∉ text)
    (noNul : '\x00' ∉ text) :
    ∃ score message,
      (Score.ofSource text = .ok score ∧ Score.ofSource (Text.trim text) = .ok score) ∧
      studio.act action =
        (.ok (.done message), { studio with loaded := some ⟨score, .ofScore score⟩ }) ∧
      other.act ("source ".toList ++ text) =
        (.ok (.done message), { other with loaded := some ⟨score, .ofScore score⟩ }) := by
  obtain ⟨score, found⟩ := exists_ofSource_of_unforged (unforged_of_not_mem noNul)
  obtain ⟨message, takes⟩ := exists_take score
  have noBlank : ∀ c ∈ "source".toList, Text.isBlank c = false := fun c member =>
    Bool.eq_false_iff.mpr (List.any_eq_false.mp rfl c member)
  have parsed : parseAction ("source ".toList ++ text) = (.source, Text.trim text) :=
    @parseAction_word "source".toList text (List.cons_ne_nil _ _) noBlank notBlank
  refine ⟨score, message, ⟨found, (Score.ofSource_trim text).trans found⟩, ?_, ?_⟩
  · apply act_of_perform
    rw [command, perform, load_eq_take named noNulPath content noReturn found, takes]
  · apply act_of_perform
    rw [parsed, perform, source_trim_eq_take other notBlank found, takes]

/-- A document with blanks around it, a block that never closes and a comment that ends with the
text, in a folder; the other studio holds another score. -/
theorem act_load_eq_act_source_unclosed :
    let text := ("\n\u00a0 upper = \\relative c \x7b c d \x7d\ntitle = \x22Air\x22\n" ++
      "lower = \\relative c \x7b % e\t").toList
    let studio : Studio := ⟨none, ⟨[(["scores".toList, "air.ly".toList], Utf8.encode text)]⟩⟩
    let other := ((start .empty).act "source x".toList).2
    ∃ score message,
      (Score.ofSource text = .ok score ∧ Score.ofSource (Text.trim text) = .ok score) ∧
      studio.act " Load \x27scores/./air.ly\x27 ".toList =
        (.ok (.done message), { studio with loaded := some ⟨score, .ofScore score⟩ }) ∧
      other.act ("source ".toList ++ text) =
        (.ok (.done message), { other with loaded := some ⟨score, .ofScore score⟩ }) := by
  intro text studio other
  exact act_load_eq_act_source (by decide +kernel)
    (toOption_eq_some_iff.mp (by decide +kernel : _ = some "scores/./air.ly".toList))
    (by decide +kernel) (toOption_eq_some_iff.mp (by decide +kernel))
    ⟨'u', by decide +kernel, by decide +kernel⟩ (by decide +kernel) (by decide +kernel)

end Studio

end Clavier
