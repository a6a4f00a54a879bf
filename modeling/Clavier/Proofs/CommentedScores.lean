import Clavier.Proofs.ForgedMarkers
import Clavier.Proofs.InertComments

/-!
# Scores of commented documents

Comments are taken out of a voice only when its notes are scanned. When they are inert, every step
before leaves them where they are: moving notes keeps the line ends that close them
(`Text.Ended.moveNotes`), the expansion of a body without comments is the expansion of the body
without comments (`expand_bare`), and the variables of a document without comments have the bodies
of its variables without comments, unless trimming leaves a comment at an edge of a body
(`bares_ofSource`). A document where it leaves none has the same voices without its comments
(`voice_bare`).
-/

set_option autoImplicit false

namespace Clavier

/-! ## Moving notes around comments -/

namespace Text

variable {text run inside more : Text}

/-- A text up to the end of its first comment. -/
theorem bare_line (free : '%' ∉ run) (line : '\n' ∉ inside) (more : Text) :
    bare (run ++ '%' :: (inside ++ '\n' :: more)) = run ++ '\n' :: bare more := by
  rw [bare_append (ended_of_not_mem free), bare_of_not_mem free,
    bare_comment line (stops_cons.mpr rfl), bare_cons (by decide)]

theorem Ended.line (ended : Ended more) (run inside : Text) :
    Ended (run ++ '%' :: (inside ++ '\n' :: more)) := by
  have lines := ended.after_line (run ++ '%' :: inside)
  rwa [List.append_assoc] at lines

/-- A text whose comments end has no comments, or goes on after its first one. -/
theorem Ended.exists_line (ended : Ended text) (sign : '%' ∈ text) :
    ∃ run inside more, text = run ++ '%' :: (inside ++ '\n' :: more) ∧ '%' ∉ run ∧
      '\n' ∉ inside ∧ Ended more := by
  obtain ⟨run, rest, rfl, free⟩ := List.eq_append_cons_of_mem sign
  obtain ⟨inside, after, rfl, line, stops⟩ := Text.exists_line rest
  cases after with
  | nil => exact absurd ⟨List.suffix_append _ _, line, stops⟩ (ended inside)
  | cons c more =>
      obtain rfl : c = '\n' := by simpa using stops_cons.mp stops
      refine ⟨run, inside, more, rfl, free, line, ended.suffix ⟨run ++ '%' :: (inside ++ ['\n']), ?_⟩⟩
      simp only [List.append_assoc, List.cons_append, List.nil_append]

/-- **Moving notes around comments.** Percent signs and line ends separate notes, so the notes
outside of comments move as they do without the comments. -/
theorem Ended.moveNotes (ended : Ended text) (interval : Int) :
    Ended (moveNotes interval text) ∧
      bare (Clavier.moveNotes interval text) = Clavier.moveNotes interval (bare text) := by
  induction length : text.length using Nat.strongRecOn generalizing text with
  | ind n ih =>
      by_cases sign : '%' ∈ text
      · obtain ⟨run, inside, more, rfl, free, line, endedMore⟩ := ended.exists_line sign
        have shorter : more.length < n := by
          rw [← length]
          simp only [List.length_append, List.length_cons]
          omega
        obtain ⟨endedMoved, bareMoved⟩ := ih _ shorter endedMore rfl
        have free' := not_mem_moveNotes separatesNotes_percent interval free
        have line' := not_mem_moveNotes separatesNotes_newline interval line
        rw [bare_line free line, moveNotes_append separatesNotes_percent,
          moveNotes_append separatesNotes_newline, moveNotes_append separatesNotes_newline,
          bare_line free' line', bareMoved]
        exact ⟨endedMoved.line _ _, rfl⟩
      · have free := not_mem_moveNotes separatesNotes_percent interval sign
        exact ⟨ended_of_not_mem free, by rw [bare_of_not_mem free, bare_of_not_mem sign]⟩

/-- Texts whose comments end are joined with their comments as they are without them. -/
theorem bare_flatMap {α : Type} {write write' : α → Text} {parts : List α}
    (each : ∀ part ∈ parts, Ended (write part) ∧ write' part = bare (write part)) :
    Ended (parts.flatMap write) ∧ parts.flatMap write' = bare (parts.flatMap write) := by
  induction parts with
  | nil => exact ⟨ended_of_not_mem List.not_mem_nil, rfl⟩
  | cons part rest ih =>
      obtain ⟨ended, same⟩ := each part List.mem_cons_self
      obtain ⟨endedRest, sameRest⟩ := ih fun other member => each other (List.mem_cons_of_mem _ member)
      rw [List.flatMap_cons, List.flatMap_cons, bare_append ended, same, sameRest]
      exact ⟨ended.append endedRest, rfl⟩

end Text

/-! ## Expansion -/

/-- A table whose bodies have inert comments that end. -/
def Variables.Inert (table : Variables) : Prop :=
  ∀ name body, table.body? name = some body → Clavier.Inert body ∧ Text.Ended body

section Expansion

variable {table table' : Variables} {body : Text}

/-- The comments inside of what is cut out of a body are inert and end there. -/
theorem Cuts.inert {pieces : List (Text.Piece Cut)} (cuts : Cuts table body pieces)
    (inertTable : table.Inert) (inert : Inert body) {cut : Cut} (member : .item cut ∈ pieces) :
    Inert cut.inner ∧ Text.Ended cut.inner := by
  induction cuts with
  | nil => cases member
  | @plain c rest _ _ _ _ ih =>
      exact ih (inert.suffix (List.suffix_cons c rest)) (List.mem_of_ne_of_mem (by simp) member)
  | @block rest _ header inner _ _ ih =>
      have closing : Inert (inner ++ '}' :: rest) := inert.suffix (List.suffix_append _ _)
      rcases List.mem_cons.mp member with same | later
      · cases same
        exact ⟨closing.of_closing, ended_of_closing closing.braceFree⟩
      · exact ih (closing.suffix ⟨inner ++ ['}'], by simp⟩) later
  | @reference name _ rest _ _ _ _ _ known _ ih =>
      rcases List.mem_cons.mp member with same | later
      · cases same
        exact inertTable name _ known
      · exact ih (inert.suffix ⟨'\\' :: name, rfl⟩) later

/-- Every segment of a body expands without its comments to its expansion without comments. -/
theorem Cuts.result_bare {pieces : List (Text.Piece Cut)} (cuts : Cuts table body pieces)
    (inert : Inert body) (ended : Text.Ended body)
    (cleanPlain : ∀ c, .plain c ∈ pieces → c ≠ markerEdge) (interval : Int)
    {expanded expanded' : Cut → Text}
    (each : ∀ cut, .item cut ∈ pieces →
      Text.Ended (expanded cut) ∧ expanded' cut.bare = Text.bare (expanded cut)) :
    ∀ segment ∈ joinStretches [] pieces, Text.Ended (segment.result interval expanded) ∧
      segment.bare.result interval expanded' = Text.bare (segment.result interval expanded) := by
  intro segment member
  rcases mem_joinStretches member List.not_mem_nil cleanPlain with
    ⟨cut, rfl, here⟩ | ⟨run, rfl, -⟩
  · exact each cut here
  · have plain : ∀ inside after, Text.HasComment ([] ++ body) inside after → '\\' ∉ inside := by
      intro inside after found
      exact (inert.plain found).2.2
    have endedRun := cuts.ended_of_stretch plain ended member
    obtain ⟨endedMoved, bareMoved⟩ := endedRun.moveNotes interval
    exact ⟨endedMoved, bareMoved.symm⟩

/-- The expansion of a cut, if it has one. -/
def expansion (table : Variables) (budget : Nat) (interval : Int) (cut : Cut) : Text :=
  (expandCut table budget interval cut).toOption.getD []

theorem expansion_eq {budget : Nat} {interval : Int} {cut : Cut} {text : Text}
    (expanded : expandCut table budget interval cut = .ok text) :
    expansion table budget interval cut = text := by
  rw [expansion, expanded]
  rfl

/-- A cut expands with comments and without them, to the same text but for the comments. -/
def ExpandsBare (table table' : Variables) (budget : Nat) (interval : Int) (cut : Cut) : Prop :=
  ∃ text, expandCut table budget interval cut = .ok text ∧ Text.Ended text ∧
    expandCut table' budget interval cut.bare = .ok (Text.bare text)

/-- A body whose cuts expand with comments and without them does so itself. -/
theorem expand_bare_succ {budget : Nat} {interval : Int} (bares : table.Bares table')
    (cleanTable : table.Clean) (inert : Inert body) (ended : Text.Ended body)
    (clean : markerEdge ∉ body)
    (each : ∀ cut, .item cut ∈ Text.pieces (cutAt table) body →
      ExpandsBare table table' budget interval cut) :
    ∃ text, expand table (budget + 1) interval body = .ok text ∧ Text.Ended text ∧
      expand table' (budget + 1) interval (Text.bare body) = .ok (Text.bare text) := by
  have cuts := cuts_pieces table body
  have overlooks := inert.overlooks_cuts bares
  have cleanPlain : ∀ c, .plain c ∈ Text.pieces (cutAt table) body → c ≠ markerEdge :=
    fun c => cuts.clean clean cleanTable (.plain c)
  have cleanBare : ∀ c, .plain c ∈ Text.pieces (cutAt table') (Text.bare body) →
      c ≠ markerEdge := by
    rintro c member rfl
    exact clean (Text.mem_of_mem_bare (Text.mem_of_plain_mem member))
  have finished : Finished table budget interval (expansion table budget interval)
      (Text.pieces (cutAt table) body) := by
    intro cut member
    obtain ⟨text, expanded, -⟩ := each cut member
    rw [expanded, expansion_eq expanded]
  have finishedBare : Finished table' budget interval (expansion table' budget interval)
      (Text.pieces (cutAt table') (Text.bare body)) := by
    intro cut member
    obtain ⟨cut, inside, rfl⟩ := overlooks.exists_item member
    obtain ⟨text, -, -, expanded⟩ := each cut inside
    rw [expanded, expansion_eq expanded]
  have expansions : ∀ cut, .item cut ∈ Text.pieces (cutAt table) body →
      Text.Ended (expansion table budget interval cut) ∧
        expansion table' budget interval cut.bare =
          Text.bare (expansion table budget interval cut) := by
    intro cut member
    obtain ⟨text, expanded, endedText, expandedBare⟩ := each cut member
    rw [expansion_eq expanded, expansion_eq expandedBare]
    exact ⟨endedText, rfl⟩
  obtain ⟨endedText, same⟩ :=
    Text.bare_flatMap (cuts.result_bare inert ended cleanPlain interval expansions)
  have segments : joinStretches [] (Text.pieces (cutAt table') (Text.bare body)) =
      (joinStretches [] (Text.pieces (cutAt table) body)).map Segment.bare :=
    joinStretches_bare (overlooks.bared none) (Text.ended_of_not_mem List.not_mem_nil)
  refine ⟨_, expand_of_cuts cuts finished cleanPlain, endedText, ?_⟩
  rw [expand_of_cuts (cuts_pieces table' (Text.bare body)) finishedBare cleanBare, ← same,
    segments, List.flatMap_map]

/-- **Expansion without comments.** The expansion of a body without comments is the expansion of the
body without its comments. -/
theorem expand_bare (bares : table.Bares table') (inertTable : table.Inert)
    (cleanTable : table.Clean) (budget : Nat) (interval : Int) (inert : Inert body)
    (ended : Text.Ended body) (clean : markerEdge ∉ body) :
    ∃ text, expand table budget interval body = .ok text ∧ Text.Ended text ∧
      expand table' budget interval (Text.bare body) = .ok (Text.bare text) := by
  induction budget generalizing interval body with
  | zero => exact ⟨body, rfl, ended, rfl⟩
  | succ budget ih =>
      refine expand_bare_succ bares cleanTable inert ended clean ?_
      intro cut member
      have cuts := cuts_pieces table body
      obtain ⟨inertInner, endedInner⟩ := cuts.inert inertTable inert member
      have cleanInner : markerEdge ∉ cut.inner := cuts.clean clean cleanTable (.item cut) member
      cases cut with
      | block found => exact ih (interval + found.interval) inertInner endedInner cleanInner
      | reference inner => exact ih interval inertInner endedInner cleanInner

end Expansion

/-! ## Voices -/

/-- Comments are taken out before anything else is read in a voice. -/
theorem scanVoice_bare (body : Text) : scanVoice (Text.bare body) = scanVoice body := by
  have twice : Text.without commentAt (Text.bare body) = Text.without commentAt body :=
    Text.bare_bare body
  simp only [scanVoice, cleanVoice, twice]

theorem resolveVoice_bare {table table' : Variables} {body : Text} (bares : table.Bares table')
    (inertTable : table.Inert) (cleanTable : table.Clean) (inert : Inert body)
    (ended : Text.Ended body) (clean : markerEdge ∉ body) (budget : Nat) (anchor : Option Text) :
    resolveVoice table' budget anchor (Text.bare body) = resolveVoice table budget anchor body := by
  obtain ⟨text, expanded, -, expandedBare⟩ :=
    expand_bare bares inertTable cleanTable budget 0 inert ended clean
  simp only [resolveVoice, expanded, expandedBare, bind, Except.bind, scanVoice_bare]

/-! ## Documents -/

section Documents

variable {source : Text}

/-- **Definitions without comments.** A document without its comments has the same definitions, with
their blocks without comments. -/
theorem definedBlocks_bare (inert : Inert source) :
    definedBlocks (Text.bare source) =
      (definedBlocks source).map fun entry => (entry.1, Text.bare entry.2) := by
  have each : ∀ found ∈ Text.items Variables.definitionAt source,
      splitBlock? (Text.bare found.2) =
        (splitBlock? found.2).map fun block => (Text.bare block.1, Text.bare block.2) := by
    intro found member
    exact splitBlock?_bare (inert.suffix (findsBlocks_definitionAt.suffix member)).braceFree
  rw [definedBlocks, (inert.overlooks_blocks findsBlocks_definitionAt).items_bare,
    List.filterMap_map, definedBlocks, List.map_reverse, List.map_filterMap]
  refine congrArg List.reverse (List.filterMap_congr fun found member => ?_)
  simp only [Function.comp_apply, each found member, Option.map_map]
  rfl

/-- No comment is left at an edge of a variable: its body begins with none and ends all of them. -/
def TrimsApart (source : Text) : Prop :=
  ∀ name body, (Variables.ofSource source).body? name = some body →
    Text.Ended body ∧ body.head? ≠ some '%'

/-- **Variables without comments.** A document without its comments has the same variables, with
their bodies without comments. -/
theorem bares_ofSource (inert : Inert source) (apart : TrimsApart source) :
    (Variables.ofSource source).Bares (.ofSource (Text.bare source)) := by
  intro name
  have known := apart name
  rw [body?_ofSource] at known
  have lookup := Variables.body?_map (definedBlocks source) Text.bare name
  rw [Variables.body?, ← definedBlocks_bare inert] at lookup
  rw [body?_ofSource, body?_ofSource, lookup]
  cases found : (definedBlocks source).lookup name with
  | none => rfl
  | some block =>
      rw [found] at known
      obtain ⟨ended, noComment⟩ := known (Text.trim block) rfl
      exact congrArg some (Text.trim_bare ended noComment)

/-- The comments in the bodies of the variables are inert. -/
theorem inert_ofSource (inert : Inert source) (apart : TrimsApart source) :
    (Variables.ofSource source).Inert := by
  intro name body known
  have ended := (apart name body known).1
  rw [body?_ofSource] at known
  obtain ⟨block, found, rfl⟩ := Option.map_eq_some_iff.mp known
  obtain ⟨rest, suffix⟩ := exists_suffix_of_lookup found
  have inertBlock : Inert block := (inert.suffix suffix).of_closing
  obtain ⟨lead, trail, -, -, same, -, -⟩ := Text.exists_gaps_of_trim block
  have place : Text.trim block ++ trail <:+ block := ⟨lead, same.symm⟩
  exact ⟨(inertBlock.suffix place).of_append ended, ended⟩

theorem clean_ofSource (clean : markerEdge ∉ source) : (Variables.ofSource source).Clean :=
  fun _ _ known member => clean ((Variables.infix_of_body? known).mem member)

/-- A document without its comments declares the same voice for a hand. -/
theorem declaredVoice_bare (inert : Inert source) (apart : TrimsApart source)
    (clean : markerEdge ∉ source) (hand : Hand) :
    declaredVoice (Text.bare source) (.ofSource (Text.bare source)) hand =
      declaredVoice source (.ofSource source) hand := by
  have overlooks := inert.overlooks_blocks (findsBlocks_declarationAt hand)
  have heads : (Text.firstItem? (declarationAt hand) (Text.bare source)).map Prod.fst =
      ((Text.firstItem? (declarationAt hand) source).map Prod.fst).map
        fun found => (found.1, Text.bare found.2) := by
    rw [Text.firstItem?_fst, Text.firstItem?_fst, overlooks.items_bare, List.head?_map]
  cases declared : Text.firstItem? (declarationAt hand) source with
  | none =>
      rw [declared, Option.map_none, Option.map_none, Option.map_eq_none_iff] at heads
      rw [declaredVoice, declaredVoice, declared, heads]
  | some found =>
      obtain ⟨⟨anchor, inside⟩, rest⟩ := found
      rw [declared] at heads
      obtain ⟨⟨found', rest'⟩, declared', same⟩ := Option.map_eq_some_iff.mp heads
      obtain rfl : found' = (anchor, Text.bare inside) := same
      have suffix := suffix_of_declarationAt declared
      rw [declaredVoice_eq declared, declaredVoice_eq declared',
        splitBlock?_bare (inert.suffix suffix).braceFree]
      cases closes : splitBlock? inside with
      | none => rfl
      | some block =>
          obtain ⟨body, after⟩ := block
          obtain ⟨rfl, -⟩ := splitBlock?_eq_some_iff.mp closes
          have closing := inert.suffix suffix
          refine resolveVoice_bare (bares_ofSource inert apart) (inert_ofSource inert apart)
            (clean_ofSource clean) closing.of_closing (ended_of_closing closing.braceFree) ?_ _ _
          intro member
          exact clean (suffix.mem (List.mem_append_left _ member))

/-- **Inert comments.** When the comments of a document are inert and trimming leaves none of them at
an edge of a variable, the document has the same voices without them. -/
theorem voice_bare (clean : markerEdge ∉ source) (inert : Inert source) (apart : TrimsApart source) :
    ∃ score score', Score.ofSource source = .ok score ∧
      Score.ofSource (Text.bare source) = .ok score' ∧
      ∀ hand, score'.voice hand = score.voice hand := by
  have clean' : markerEdge ∉ Text.bare source := fun member => clean (Text.mem_of_mem_bare member)
  obtain ⟨score, found⟩ := exists_ofSource_of_unforged (unforged_of_not_mem clean)
  obtain ⟨score', found'⟩ := exists_ofSource_of_unforged (unforged_of_not_mem clean')
  refine ⟨score, score', found, found', ?_⟩
  intro hand
  have voice := (ofSource_eq_ok_iff.mp found).1 hand
  have voice' := (ofSource_eq_ok_iff.mp found').1 hand
  rw [declaredVoice_bare inert apart clean, voice] at voice'
  exact (Except.ok.inj voice').symm

/-- A document with comments before a header, in a variable, between two notes and at its end. -/
theorem voice_bare_fourComments :
    let source :=
      ("% both hands\nm = \x7b c % first\n d \x7d\n" ++
        "upper = \\relative c\x27 \x7b \\m e % up\n f \x7d % end").toList
    markerEdge ∉ source ∧ Inert source ∧ TrimsApart source ∧
      ∃ score score', Score.ofSource source = .ok score ∧
        Score.ofSource (Text.bare source) = .ok score' ∧
        ∀ hand, score'.voice hand = score.voice hand := by
  intro source
  have clean : markerEdge ∉ source := by decide +kernel
  have inert : Inert source := inert_of_isInert (by decide +kernel)
  have apart : TrimsApart source := by
    have table : Variables.ofSource source = [("m".toList, "c % first\n d".toList)] := by
      decide +kernel
    intro name body known
    have entry := Variables.mem_of_lookup known
    rw [table, List.mem_singleton] at entry
    cases entry
    have ended : Text.Ended " d".toList := Text.ended_of_not_mem (by decide)
    exact ⟨ended.after_line "c % first".toList, by decide⟩
  exact ⟨clean, inert, apart, voice_bare clean inert apart⟩

/-- Comments are not always inert: trimming cuts the comment in this variable off its line end, and
it goes on to hide the note that follows the reference. -/
theorem not_forall_voice_bare :
    ¬ ∀ source score score', '"' ∉ source → markerEdge ∉ source → Score.ofSource source = .ok score →
      Score.ofSource (Text.bare source) = .ok score' →
      ∀ hand, score'.voice hand = score.voice hand := by
  intro all
  have hidden := all "m = \x7b c % x\n\x7d\nupper = \\relative c \x7b \\m d \x7d".toList
    ⟨[⟨60, "C".toList, some "c".toList⟩], [], ⟨none, none⟩⟩
    ⟨[⟨60, "C".toList, some "c".toList⟩, ⟨62, "D".toList, some "d".toList⟩], [], ⟨none, none⟩⟩
    (by decide +kernel) (by decide +kernel) (toOption_eq_some_iff.mp (by decide +kernel))
    (toOption_eq_some_iff.mp (by decide +kernel)) .upper
  revert hidden
  decide

end Documents

end Clavier
