import Clavier.Proofs.Programs

/-!
# Inlining programs

A library holds programs by name. Inlining a program over a library lists its notes in the
order of the source, where a reference stands for the notes of its program, and adds up the
intervals of the blocks around every note (`Inlines`).

With a budget above the nesting height, the printed program expands to a text in which a scan
finds the same list: every note is moved once, by the offset and the sum of its intervals
(`Inlines.expands`). The induction is on the budget; at every depth the expanded text is kept
in a form that can be scanned part by part (`Plays`).
-/

set_option autoImplicit false

namespace Clavier

/-! ## Libraries -/

/-- Programs by name; of two entries with one name the first stands. -/
abbrev Library := List (Text × Program)

namespace Library

/-- The program of a name. -/
def program? (library : Library) (name : Text) : Option Program := library.lookup name

/-- The variables of a library: its programs as they are printed. -/
def table (library : Library) : Variables :=
  library.map fun entry => (entry.1, entry.2.print)

theorem body?_table (library : Library) (name : Text) :
    library.table.body? name = (library.program? name).map Program.print :=
  Variables.body?_map library Program.print name

/-- The printed program of a name, or nothing. -/
def printed (library : Library) (name : Text) : Text :=
  ((library.program? name).getD .empty).print

end Library

/-- The notes of a program with its references inlined, in the order of the source, each with the
sum of the intervals of the blocks around it. -/
inductive Inlines (library : Library) : Int → Program → List (WrittenNote × Int) → Prop where
  | empty {shift : Int} : Inlines library shift .empty []
  | note {shift : Int} {written : WrittenNote} {rest : Program} {notes : List (WrittenNote × Int)}
      (later : Inlines library shift rest notes) :
      Inlines library shift (.note written rest) ((written, shift) :: notes)
  | reference {shift : Int} {name : Word} {program rest : Program}
      {inner notes : List (WrittenNote × Int)} (known : library.program? name.text = some program)
      (inside : Inlines library shift program inner) (later : Inlines library shift rest notes) :
      Inlines library shift (.reference name rest) (inner ++ notes)
  | block {shift : Int} {source target : Pitch} {body rest : Program}
      {inner notes : List (WrittenNote × Int)}
      (inside : Inlines library (shift + transpositionInterval source.text target.text) body inner)
      (later : Inlines library shift rest notes) :
      Inlines library shift (.block source target body rest) (inner ++ notes)

/-- The nesting height of references and blocks. -/
inductive Nests (library : Library) : Program → Nat → Prop where
  | empty : Nests library .empty 0
  | note {written : WrittenNote} {rest : Program} {height : Nat}
      (later : Nests library rest height) :
      Nests library (.note written rest) height
  | reference {name : Word} {program rest : Program} {inner height : Nat}
      (known : library.program? name.text = some program) (inside : Nests library program inner)
      (later : Nests library rest height) :
      Nests library (.reference name rest) (max (inner + 1) height)
  | block {source target : Pitch} {body rest : Program} {inner height : Nat}
      (inside : Nests library body inner) (later : Nests library rest height) :
      Nests library (.block source target body rest) (max (inner + 1) height)

/-! ## The cut of a printed program -/

/-- The pieces of a program with a blank before every part. -/
def Program.pieces (library : Library) : Program → List (Text.Piece Cut)
  | .empty => []
  | .note written rest => (' ' :: written.text).map .plain ++ rest.pieces library
  | .reference name rest =>
      .plain ' ' :: .item (.reference (library.printed name.text)) :: rest.pieces library
  | .block source target body rest =>
      .plain ' ' :: .item (.block ⟨source.text, target.text, body.spaced ++ [' ']⟩) ::
        rest.pieces library

section Cutting

variable {table : Variables}

theorem Cuts.stretch {run rest : Text} {pieces : List (Text.Piece Cut)} (noBackslash : '\\' ∉ run)
    (later : Cuts table rest pieces) : Cuts table (run ++ rest) (run.map .plain ++ pieces) := by
  induction run with
  | nil => exact later
  | cons c more ih =>
      rw [List.mem_cons, not_or] at noBackslash
      have other : c ≠ '\\' := Ne.symm noBackslash.1
      exact .plain (transposedBlockAt_of_ne other _) (referenceAt_of_ne other _ _)
        (ih noBackslash.2)

theorem Cuts.space {rest : Text} {pieces : List (Text.Piece Cut)} (later : Cuts table rest pieces) :
    Cuts table (' ' :: rest) (.plain ' ' :: pieces) :=
  Cuts.stretch (by decide : '\\' ∉ [' ']) later

/-- The cut of what follows a blank. -/
theorem Cuts.of_space {text : Text} {pieces : List (Text.Piece Cut)}
    (cuts : Cuts table (' ' :: text) pieces) :
    ∃ later, pieces = .plain ' ' :: later ∧ Cuts table text later := by
  generalize whole : ' ' :: text = spaced at cuts
  cases cuts with
  | nil => cases whole
  | plain _ _ later =>
      cases whole
      exact ⟨_, rfl, later⟩
  | block header _ _ =>
      obtain ⟨more, front⟩ := header.head_text _
      rw [front] at whole
      cases (List.cons.inj whole).1
  | reference => cases (List.cons.inj whole).1

/-- **The cut of a printed program** is at its own references and blocks. -/
theorem Inlines.cuts {library : Library} {shift : Int} {program : Program}
    {notes : List (WrittenNote × Int)} (inlines : Inlines library shift program notes)
    {trail : Text} (ends : Trail trail) :
    Cuts library.table (program.spaced ++ trail) (program.pieces library ++ trail.map .plain) := by
  induction inlines with
  | empty =>
      cases ends with
      | none => exact .nil
      | space => exact Cuts.nil.space
  | @note _ written rest _ _ ih =>
      have word := ih.stretch (written.not_mem_text separatesNotes_backslash)
      have whole := word.space
      simpa [Program.pieces] using whole
  | @reference _ name program rest _ _ known _ _ _ ih =>
      have body : library.table.body? name.text = some (library.printed name.text) := by
        rw [library.body?_table, known, Library.printed, known]
        rfl
      have noBlock := Program.transposedBlockAt_reference ends name rest
      have whole := (Cuts.reference noBlock name.nonempty name.word (rest.stops_isWord ends) body
        ih).space
      simpa [Program.pieces] using whole
  | @block _ source target body rest _ _ _ _ _ ih =>
      have space : Balanced [' '] := balanced_of_no_brace (by decide) (by decide)
      have whole := (Cuts.block (printedHeader source target) (body.balanced_spaced.append space)
        ih).space
      rw [Program.spaced_block]
      simpa [Program.pieces, printedHeader] using whole

/-- A character of a blank and what is cut out after it is the blank, or comes later. -/
theorem plain_mem_part {c : Char} {cut : Cut} {pieces : List (Text.Piece Cut)}
    (member : .plain c ∈ .plain ' ' :: .item cut :: pieces) : c = ' ' ∨ .plain c ∈ pieces := by
  rcases List.mem_cons.mp member with same | later
  · cases same
    exact .inl rfl
  rcases List.mem_cons.mp later with same | later
  · cases same
  · exact .inr later

/-- No piece of a program is a marker edge. -/
theorem Program.ne_markerEdge_of_mem_pieces {library : Library} {program : Program} {c : Char}
    (member : .plain c ∈ program.pieces library) : c ≠ markerEdge := by
  induction program with
  | empty => cases member
  | note written rest ih =>
      rcases List.mem_append.mp member with inside | later
      · obtain ⟨d, place, same⟩ := List.mem_map.mp inside
        cases same
        rcases List.mem_cons.mp place with rfl | inNote
        · decide
        · rintro rfl
          exact written.not_mem_text separatesNotes_markerEdge inNote
      · exact ih later
  | reference name rest ih =>
      rcases plain_mem_part member with rfl | later
      · decide
      · exact ih later
  | block source target body rest _ ih =>
      rcases plain_mem_part member with rfl | later
      · decide
      · exact ih later

/-- What is cut out of a program and what follows it is cut out of the program. -/
theorem Program.item_mem_of_mem_trail {library : Library} {program : Program} {trail : Text}
    {cut : Cut} (member : .item cut ∈ program.pieces library ++ trail.map .plain) :
    .item cut ∈ program.pieces library := by
  rcases List.mem_append.mp member with inside | trailing
  · exact inside
  · obtain ⟨c, -, same⟩ := List.mem_map.mp trailing
    cases same

theorem Program.ne_markerEdge_of_mem_trail {library : Library} {program : Program} {trail : Text}
    (ends : Trail trail) {c : Char}
    (member : .plain c ∈ program.pieces library ++ trail.map .plain) : c ≠ markerEdge := by
  rcases List.mem_append.mp member with inside | trailing
  · exact ne_markerEdge_of_mem_pieces inside
  · obtain ⟨d, blank, same⟩ := List.mem_map.mp trailing
    cases same
    cases ends with
    | none => cases blank
    | space =>
        rw [List.mem_singleton.mp blank]
        decide

end Cutting

/-! ## The expansion of a printed program -/

/-- The expansion of what is cut, or nothing. -/
def expandedCut (table : Variables) (budget : Nat) (interval : Int) (cut : Cut) : Text :=
  (expandCut table budget interval cut).toOption.getD []

theorem expandCut_eq_expandedCut {table : Variables} {budget : Nat} {interval : Int} {cut : Cut}
    {text : Text} (found : expandCut table budget interval cut = .ok text) :
    expandCut table budget interval cut = .ok (expandedCut table budget interval cut) := by
  rw [expandedCut, found]
  rfl

/-- A program with its notes moved and its references and blocks expanded, and a blank before every
part. -/
def Program.played (library : Library) (interval : Int) (expanded : Cut → Text) : Program → Text
  | .empty => []
  | .note written rest =>
      ' ' :: ((written.move interval).text ++ rest.played library interval expanded)
  | .reference name rest =>
      ' ' :: (expanded (.reference (library.printed name.text)) ++
        rest.played library interval expanded)
  | .block source target body rest =>
      ' ' :: (expanded (.block ⟨source.text, target.text, body.spaced ++ [' ']⟩) ++
        rest.played library interval expanded)

section Joining

variable (interval : Int) (expanded : Cut → Text)

/-- The text of segments, when the expansions of what is cut are known. -/
def joinResults (run : Text) (pieces : List (Text.Piece Cut)) : Text :=
  (joinStretches run pieces).flatMap (Segment.result interval expanded)

theorem joinStretches_stretch (run text : Text) (pieces : List (Text.Piece Cut)) :
    joinStretches run (text.map .plain ++ pieces) = joinStretches (run ++ text) pieces := by
  induction text generalizing run with
  | nil => rw [List.append_nil]; rfl
  | cons c more ih =>
      have later := ih (run ++ [c])
      rwa [List.append_assoc] at later

theorem joinResults_nil (run : Text) : joinResults interval expanded run [] =
    moveNotes interval run := List.append_nil _

theorem joinResults_cut (run : Text) (cut : Cut) (pieces : List (Text.Piece Cut)) :
    joinResults interval expanded run (.item cut :: pieces) =
      moveNotes interval run ++ (expanded cut ++ joinResults interval expanded [] pieces) := rfl

theorem joinResults_stretch (run text : Text) (pieces : List (Text.Piece Cut)) :
    joinResults interval expanded run (text.map .plain ++ pieces) =
      joinResults interval expanded (run ++ text) pieces :=
  congrArg (List.flatMap _) (joinStretches_stretch run text pieces)

theorem moveNotes_space (run rest : Text) :
    moveNotes interval (run ++ ' ' :: rest) =
      moveNotes interval run ++ ' ' :: moveNotes interval rest :=
  moveNotes_append separatesNotes_space interval run rest

/-- A blank and a cut after a stretch: the notes of the stretch are moved by themselves. -/
theorem joinResults_part (run : Text) (cut : Cut) (pieces : List (Text.Piece Cut)) :
    joinResults interval expanded run (.plain ' ' :: .item cut :: pieces) =
      moveNotes interval run ++
        ' ' :: (expanded cut ++ joinResults interval expanded [] pieces) := by
  have front := joinResults_cut interval expanded (run ++ [' ']) cut pieces
  rw [moveNotes_space, moveNotes_nil, List.append_assoc] at front
  exact front

/-- A blank in front of everything stays there. -/
theorem joinResults_space (run : Text) (pieces : List (Text.Piece Cut)) :
    joinResults interval expanded (' ' :: run) pieces =
      ' ' :: joinResults interval expanded run pieces := by
  have moved : ∀ run, moveNotes interval (' ' :: run) = ' ' :: moveNotes interval run := by
    intro run
    have apart := moveNotes_space interval [] run
    rwa [moveNotes_nil] at apart
  induction pieces generalizing run with
  | nil => rw [joinResults_nil, joinResults_nil, moved]
  | cons piece rest ih =>
      cases piece with
      | plain c => exact ih (run ++ [c])
      | item cut => rw [joinResults_cut, joinResults_cut, moved]; rfl

/-- The segments of a program join to what is played. Every part begins with a blank, so the notes
of the stretch before it are moved by themselves. -/
theorem joinResults_pieces (library : Library) (program : Program) {trail : Text}
    (ends : Trail trail) (run : Text) :
    joinResults interval expanded run (program.pieces library ++ trail.map .plain) =
      moveNotes interval run ++ (program.played library interval expanded ++ trail) := by
  induction program generalizing run with
  | empty =>
      have whole := joinResults_stretch interval expanded run trail []
      rw [List.append_nil, joinResults_nil] at whole
      refine whole.trans ?_
      cases ends with
      | none => simp [Program.played]
      | space => rw [moveNotes_space, moveNotes_nil, Program.played, List.nil_append]
  | note written rest ih =>
      have later := ih (run ++ ' ' :: written.text)
      rw [moveNotes_space, moveNotes_written] at later
      rw [Program.pieces, List.append_assoc, joinResults_stretch, later]
      simp [Program.played]
  | reference name rest ih =>
      have later := ih []
      rw [moveNotes_nil, List.nil_append] at later
      rw [Program.pieces, List.cons_append, List.cons_append, joinResults_part, later]
      simp only [Program.played, List.cons_append, List.append_assoc]
  | block source target body rest _ ih =>
      have later := ih []
      rw [moveNotes_nil, List.nil_append] at later
      rw [Program.pieces, List.cons_append, List.cons_append, joinResults_part, later]
      simp only [Program.played, List.cons_append, List.append_assoc]

end Joining

/-! ## What is played -/

/-- A text of notes and blanks that scans to the given notes, each moved by its interval. -/
structure Plays (text : Text) (notes : List (WrittenNote × Int)) : Prop where
  plain : ∀ c ∈ text, c = ' ' ∨ separatesNotes c = false
  items : (Text.items noteAt text).map Prod.fst =
    notes.map fun note => (note.1.move note.2).word

namespace Plays

variable {text rest : Text} {notes later : List (WrittenNote × Int)}

theorem nil : Plays [] [] := ⟨fun _ member => absurd member List.not_mem_nil, rfl⟩

theorem note (written : WrittenNote) (interval : Int) :
    Plays (written.move interval).text [(written, interval)] where
  plain := fun _ member => .inr ((written.move interval).separatesNotes_of_mem_text member)
  items := by
    rw [items_noteAt_written]
    rfl

theorem space_iff : Plays (' ' :: text) notes ↔ Plays text notes := by
  have same : Text.items noteAt (' ' :: text) = Text.items noteAt text :=
    items_noteAt_space [] text
  constructor
  · intro plays
    exact ⟨fun c member => plays.plain c (List.mem_cons_of_mem _ member), same ▸ plays.items⟩
  · intro plays
    refine ⟨?_, same.symm ▸ plays.items⟩
    intro c member
    rcases List.mem_cons.mp member with rfl | inside
    · exact .inl rfl
    · exact plays.plain c inside

/-- Texts that are apart play one after the other. -/
theorem append (first : Plays text notes) (second : Plays rest later) (led : Led rest) :
    Plays (text ++ rest) (notes ++ later) := by
  constructor
  · intro c member
    rcases List.mem_append.mp member with before | after
    · exact first.plain c before
    · exact second.plain c after
  · rcases led with rfl | ⟨more, rfl⟩
    · rw [List.append_nil, first.items, List.map_append, ← second.items]
      exact (List.append_nil _).symm
    · rw [items_noteAt_space, List.map_append, List.map_append, first.items,
        (space_iff.mp second).items]

theorem append_trail (plays : Plays text notes) {trail : Text} (ends : Trail trail) :
    Plays (text ++ trail) notes := by
  cases ends with
  | none => rwa [List.append_nil]
  | space =>
      have blank : Plays [' '] [] := space_iff.mpr nil
      have whole := plays.append blank (.inr ⟨[], rfl⟩)
      rwa [List.append_nil] at whole

end Plays

theorem Program.led_played (library : Library) (interval : Int) (expanded : Cut → Text)
    (program : Program) : Led (program.played library interval expanded) := by
  cases program with
  | empty => exact .inl rfl
  | note _ _ => exact .inr ⟨_, rfl⟩
  | reference _ _ => exact .inr ⟨_, rfl⟩
  | block _ _ _ _ => exact .inr ⟨_, rfl⟩

/-- A program expands, printed by itself or inside of a block, to a text that plays the notes. -/
def Expands (library : Library) (budget : Nat) (interval : Int) (program : Program)
    (notes : List (WrittenNote × Int)) : Prop :=
  ∀ text, text = program.print ∨ text = program.spaced ++ [' '] →
    ∃ expansion, expand library.table budget interval text = .ok expansion ∧ Plays expansion notes

section Expanding

variable {library : Library} {budget : Nat} {interval : Int} {program : Program}
variable {notes : List (WrittenNote × Int)}

/-- A cut part in front of a program that plays. -/
theorem plays_cut (cut : Cut) {text later : Text} {inner : List (WrittenNote × Int)}
    {pieces : List (Text.Piece Cut)}
    (found : expandCut library.table budget interval cut = .ok text) (front : Plays text inner)
    (finished : ∀ cut, .item cut ∈ pieces →
      ∃ text, expandCut library.table budget interval cut = .ok text)
    (plays : Plays later notes) (led : Led later) :
    (∀ other, .item other ∈ .plain ' ' :: .item cut :: pieces →
      ∃ text, expandCut library.table budget interval other = .ok text) ∧
    Plays (' ' :: (expandedCut library.table budget interval cut ++ later)) (inner ++ notes) := by
  constructor
  · intro other member
    rcases List.mem_cons.mp member with same | member
    · cases same
    rcases List.mem_cons.mp member with same | inRest
    · cases same
      exact ⟨text, found⟩
    · exact finished other inRest
  · have same := expandCut_eq_expandedCut found
    rw [found] at same
    rw [← Except.ok.inj same]
    exact Plays.space_iff.mpr (front.append plays led)

/-- When everything inside expands to what it should play, so do the parts of a program. -/
theorem Inlines.plays_played (inlines : Inlines library interval program notes) {height : Nat}
    (nests : Nests library program height) (below : height ≤ budget)
    (inside : ∀ {program : Program} {height : Nat} {interval : Int}
      {notes : List (WrittenNote × Int)}, Inlines library interval program notes →
      Nests library program height → height < budget →
      Expands library budget interval program notes) :
    (∀ cut, .item cut ∈ program.pieces library →
      ∃ text, expandCut library.table budget interval cut = .ok text) ∧
    Plays (program.played library interval (expandedCut library.table budget interval)) notes := by
  induction inlines generalizing height with
  | empty => exact ⟨fun cut member => absurd member List.not_mem_nil, .nil⟩
  | @note shift written rest notes _ ih =>
      cases nests with
      | note later =>
          obtain ⟨finished, plays⟩ := ih later below
          constructor
          · intro cut member
            rcases List.mem_append.mp member with inNote | inRest
            · obtain ⟨c, -, same⟩ := List.mem_map.mp inNote
              cases same
            · exact finished cut inRest
          · have first := Plays.note written shift
            exact Plays.space_iff.mpr (first.append plays (rest.led_played _ _ _))
  | @reference shift name program rest inner notes known inlinesInside _ _ ih =>
      cases nests with
      | reference known' nestsInside later =>
          obtain rfl := Option.some.inj (known.symm.trans known')
          obtain ⟨finished, plays⟩ := ih later (by omega)
          have printed : library.printed name.text = program.print := by
            rw [Library.printed, known]
            rfl
          obtain ⟨text, expansion, front⟩ :=
            inside inlinesInside nestsInside (by omega) program.print (.inl rfl)
          rw [← printed] at expansion
          exact plays_cut (.reference (library.printed name.text)) expansion front finished plays
            (rest.led_played _ _ _)
  | @block shift source target body rest inner notes inlinesInside _ _ ih =>
      cases nests with
      | block nestsInside later =>
          obtain ⟨finished, plays⟩ := ih later (by omega)
          obtain ⟨text, expansion, front⟩ :=
            inside inlinesInside nestsInside (by omega) (body.spaced ++ [' ']) (.inr rfl)
          exact plays_cut (.block ⟨source.text, target.text, body.spaced ++ [' ']⟩) expansion front
            finished plays (rest.led_played _ _ _)

end Expanding

section Forms

variable {table : Variables} {budget : Nat} {interval : Int} {expanded : Cut → Text}

/-- The expansion of what follows a blank, from the cut of both. -/
theorem expand_after_space {text : Text} {pieces : List (Text.Piece Cut)}
    (cuts : Cuts table (' ' :: text) pieces)
    (finished : Finished table budget interval expanded pieces)
    (cleanPieces : ∀ c, .plain c ∈ pieces → c ≠ markerEdge) :
    ∃ expansion, expand table (budget + 1) interval text = .ok expansion ∧
      ' ' :: expansion = joinResults interval expanded [] pieces := by
  obtain ⟨later, rfl, cutsText⟩ := cuts.of_space
  refine ⟨joinResults interval expanded [] later, ?_, ?_⟩
  · exact expand_of_cuts cutsText (fun cut member => finished cut (List.mem_cons_of_mem _ member))
      fun c member => cleanPieces c (List.mem_cons_of_mem _ member)
  · exact (joinResults_space interval expanded [] later).symm

theorem expand_empty (table : Variables) (budget : Nat) (interval : Int) :
    expand table (budget + 1) interval [] = .ok [] := by
  have expansion := @expand_of_cuts table [] [] budget interval (fun _ => []) .nil
    (fun _ member => absurd member List.not_mem_nil)
    fun _ member => absurd member List.not_mem_nil
  rw [expansion]
  exact congrArg Except.ok ((joinResults_nil interval _ []).trans (moveNotes_nil interval))

end Forms

/-- **Expansion plays the inlined notes.** With a budget above its nesting height, a program expands
to a text that plays its inlined notes, each moved by the offset and its intervals. -/
theorem Inlines.expands {library : Library} {interval : Int} {program : Program}
    {notes : List (WrittenNote × Int)} {height budget : Nat}
    (inlines : Inlines library interval program notes) (nests : Nests library program height)
    (below : height < budget) : Expands library budget interval program notes := by
  induction budget generalizing program interval notes height with
  | zero => exact absurd below (Nat.not_lt_zero _)
  | succ budget ih =>
      obtain ⟨found, plays⟩ := inlines.plays_played nests (Nat.le_of_lt_succ below) ih
      have joined : ∀ {trail : Text}, Trail trail →
          joinResults interval (expandedCut library.table budget interval) []
            (program.pieces library ++ trail.map .plain) =
          program.played library interval (expandedCut library.table budget interval) ++ trail := by
        intro trail ends
        rw [joinResults_pieces interval _ library program ends, moveNotes_nil, List.nil_append]
      have finished : ∀ {trail : Text}, Finished library.table budget interval
          (expandedCut library.table budget interval)
          (program.pieces library ++ trail.map .plain) := by
        intro trail cut member
        obtain ⟨text, same⟩ := found cut (Program.item_mem_of_mem_trail member)
        exact expandCut_eq_expandedCut same
      intro text form
      rcases form with rfl | rfl
      · by_cases empty : program.words = []
        · obtain rfl := Program.words_eq_nil_iff.mp empty
          cases inlines
          exact ⟨[], expand_empty library.table budget interval, .nil⟩
        · have cuts := inlines.cuts .none
          rw [List.append_nil, ← Program.cons_print empty] at cuts
          obtain ⟨expansion, expanded, same⟩ := expand_after_space cuts finished
            fun _ => Program.ne_markerEdge_of_mem_trail .none
          refine ⟨expansion, expanded, Plays.space_iff.mp ?_⟩
          rw [same, joined .none, List.append_nil]
          exact plays
      · refine ⟨_, expand_of_cuts (inlines.cuts .space) finished
          fun _ => Program.ne_markerEdge_of_mem_trail .space, ?_⟩
        change Plays (joinResults interval (expandedCut library.table budget interval) [] _) notes
        rw [joined .space]
        exact plays.append_trail .space

end Clavier
