import Clavier.Proofs.MovedScans

/-!
# Commands of a voice

A command without argument is stripped from a voice together with its backslash, whatever else
stands around it (`Stripped.cleanVoice_eq`). Expansion leaves the command alone as long as its name
is unknown, and moves the notes of the voice as if it were not there (`Stripped.expand_eq`).
-/

set_option autoImplicit false

namespace Clavier

/-! ## Names of commands -/

/-- The name of a command without an argument; a clef takes the word after it. -/
structure CommandName where
  text : Text
  nonempty : text ≠ []
  letters : ∀ c ∈ text, isCommandLetter c = true
  bare : text ≠ "clef".toList

theorem isWord_of_isCommandLetter {c : Char} (letter : isCommandLetter c = true) :
    Text.isWord c = true := by
  have ascii : Text.isAsciiLetter c = true := by
    simp only [isCommandLetter, Bool.and_eq_true, decide_eq_true_eq] at letter
    simp [Text.isAsciiLetter, letter.1, letter.2]
  simp [Text.isWord, ascii]

/-- Letters of command names are no digits. -/
theorem isDigit_of_isCommandLetter {c : Char} (letter : isCommandLetter c = true) :
    Text.isDigit c = false := by
  simp only [isCommandLetter, Bool.and_eq_true, decide_eq_true_eq] at letter
  exact Text.isDigit_of_letter letter.1 letter.2

theorem stops_isCommandLetter {rest : Text} (stops : Text.Stops Text.isWord rest) :
    Text.Stops isCommandLetter rest := by
  intro c first
  cases letter : isCommandLetter c with
  | false => rfl
  | true =>
      have word := stops c first
      rw [isWord_of_isCommandLetter letter] at word
      cases word

theorem CommandName.isWord_of_mem (name : CommandName) :
    ∀ c ∈ name.text, Text.isWord c = true :=
  fun c member => isWord_of_isCommandLetter (name.letters c member)

theorem CommandName.not_mem_text (name : CommandName) {c : Char}
    (noLetter : isCommandLetter c = false) : c ∉ name.text :=
  Text.not_mem_of_test name.letters noLetter

/-- The text after a command is no argument of it. -/
structure NoArgument (rest : Text) : Prop where
  word : Text.Stops Text.isWord rest
  number : Text.Stops isArgumentChar (Text.trimStart rest)

/-! ## Commands at one place -/

section Places

variable (name : CommandName) {rest : Text}

section Ended

variable (ended : Text.Stops Text.isWord rest)
include ended

theorem commandAt_append :
    commandAt none ('\\' :: (name.text ++ rest)) = some ((), rest) := by
  have run : takeRun? isCommandLetter (name.text ++ rest) = some (name.text, rest) :=
    takeRun?_eq_some_iff.mpr ⟨name.nonempty, rfl, name.letters, stops_isCommandLetter ended⟩
  simp only [commandAt, run, Option.map_some]

theorem clefAt_append : clefAt none ('\\' :: (name.text ++ rest)) = none := by
  rw [Option.eq_none_iff_forall_ne_some]
  intro found clef
  simp only [clefAt, bind, Option.bind_eq_some_iff] at clef
  obtain ⟨after, start, gap, blanks, -⟩ := clef
  have front := Text.dropStart?_eq_some_iff.mp start
  obtain ⟨run, nonempty, blank, rfl, -⟩ := Text.dropBlanks?_eq_some_iff.mp blanks
  have ends : Text.Stops isCommandLetter (run ++ gap) := by
    obtain ⟨c, more, rfl⟩ := List.exists_cons_of_ne_nil nonempty
    exact stops_isCommandLetter (Text.stops_cons.mpr
      (isWord_of_isBlank (blank c List.mem_cons_self)))
  have same : name.text ++ rest = "clef".toList ++ (run ++ gap) := (List.cons.inj front).2
  have first := Text.splitWhile_eq_iff.mpr
    ⟨rfl, name.letters, stops_isCommandLetter ended⟩
  have second := Text.splitWhile_eq_iff.mpr ⟨same, List.all_eq_true.mp (by decide), ends⟩
  exact name.bare (congrArg Prod.fst (first.symm.trans second))

theorem referenceAt_append {table : Variables} (unknown : table.body? name.text = none) :
    referenceAt table none ('\\' :: (name.text ++ rest)) = none := by
  have run : takeRun? Text.isWord (name.text ++ rest) = some (name.text, rest) :=
    takeRun?_eq_some_iff.mpr ⟨name.nonempty, rfl, name.isWord_of_mem, ended⟩
  simp only [referenceAt, run, unknown, bind, Option.bind]

end Ended

theorem numericCommandAt_append (free : NoArgument rest) :
    numericCommandAt none ('\\' :: (name.text ++ rest)) = none := by
  rw [Option.eq_none_iff_forall_ne_some]
  intro found number
  simp only [numericCommandAt, commandAt_append name free.word, bind, Option.bind_some,
    Option.bind_eq_some_iff] at number
  obtain ⟨after, blanks, ⟨argument, tail⟩, run, -⟩ := number
  obtain ⟨gap, -, blank, rfl, stops⟩ := Text.dropBlanks?_eq_some_iff.mp blanks
  obtain ⟨nonempty, rfl, all, -⟩ := takeRun?_eq_some_iff.mp run
  have none := free.number
  rw [Text.trimStart_append blank stops] at none
  obtain ⟨c, more, rfl⟩ := List.exists_cons_of_ne_nil nonempty
  rw [List.cons_append, Text.stops_cons, all c List.mem_cons_self] at none
  cases none

end Places

/-! ## Stripping -/

/-- The names of the commands of a text, the text, and the text without its commands. Besides the
commands there are only blanks and what notes are made of. -/
inductive Stripped : List CommandName → Text → Text → Prop where
  | nil : Stripped [] [] []
  | plain {names : List CommandName} {c : Char} {rest bare : Text}
      (inert : separatesNotes c = false ∨ Text.isBlank c = true)
      (later : Stripped names rest bare) : Stripped names (c :: rest) (c :: bare)
  | command {names : List CommandName} (name : CommandName) {rest bare : Text}
      (free : NoArgument rest) (later : Stripped names rest bare) :
      Stripped (name :: names) ('\\' :: (name.text ++ rest)) bare

/-- Neither a blank nor a part of a note separates notes without being a blank. -/
theorem ne_of_inert {c other : Char} (inert : separatesNotes c = false ∨ Text.isBlank c = true)
    (separates : separatesNotes other = true) (noBlank : Text.isBlank other = false) :
    c ≠ other := by
  rintro rfl
  rcases inert with part | blank
  · rw [separates] at part
    cases part
  · rw [noBlank] at blank
    cases blank

theorem isBlank_of_isLayout {c : Char} (layout : isLayout c = true) : Text.isBlank c = false := by
  simp only [isLayout, isMarker, Bool.or_eq_true, decide_eq_true_eq] at layout
  rcases layout with ((rfl | rfl) | (rfl | rfl) | rfl) | rfl <;> decide

/-- Neither a blank nor a part of a note is layout. -/
theorem isLayout_of_inert {c : Char} (inert : separatesNotes c = false ∨ Text.isBlank c = true) :
    isLayout c = false := by
  cases layout : isLayout c with
  | false => rfl
  | true =>
      exact absurd rfl
        (ne_of_inert inert (separatesNotes_of_isLayout layout) (isBlank_of_isLayout layout))

theorem ne_backslash_of_inert {c : Char}
    (inert : separatesNotes c = false ∨ Text.isBlank c = true) : c ≠ '\\' :=
  ne_of_inert inert separatesNotes_backslash rfl

namespace Stripped

variable {names : List CommandName} {text bare : Text}

/-- Apart from the backslashes of its commands the text holds only blanks and what stands in notes
and names. -/
theorem not_mem (stripped : Stripped names text bare) {c : Char} (separates : separatesNotes c = true)
    (noBlank : Text.isBlank c = false) (other : c ≠ '\\') : c ∉ text := by
  induction stripped with
  | nil => exact List.not_mem_nil
  | plain inert _ ih =>
      exact List.not_mem_cons_of_ne_of_not_mem (ne_of_inert inert separates noBlank).symm ih
  | command name _ _ ih =>
      rw [List.mem_cons, List.mem_append, not_or, not_or]
      refine ⟨other, fun inName => ?_, ih⟩
      simp [separatesNotes, name.isWord_of_mem c inName] at separates

theorem isLayout_bare (stripped : Stripped names text bare) : ∀ c ∈ bare, isLayout c = false := by
  induction stripped with
  | nil => exact List.forall_mem_nil _
  | plain inert _ ih => exact List.forall_mem_cons.mpr ⟨isLayout_of_inert inert, ih⟩
  | command _ _ _ ih => exact ih

theorem isMarker_bare (stripped : Stripped names text bare) : ∀ c ∈ bare, isMarker c = false :=
  fun c member => isMarker_of_not_isLayout (stripped.isLayout_bare c member)

/-- A stretch of blanks and parts of notes stays. -/
theorem append_plain {run : Text}
    (inert : ∀ c ∈ run, separatesNotes c = false ∨ Text.isBlank c = true)
    (stripped : Stripped names text bare) : Stripped names (run ++ text) (run ++ bare) := by
  induction run with
  | nil => exact stripped
  | cons c more ih =>
      exact .plain (inert c List.mem_cons_self)
        (ih fun d member => inert d (List.mem_cons_of_mem c member))

/-- A scan that recognises no command finds nothing in a text. -/
theorem pieces_eq_map_plain {α : Type} {recognise : Text.Recogniser α}
    (ahead : Text.LooksAhead recognise)
    (other : ∀ c more, c ≠ '\\' → recognise none (c :: more) = none)
    (missing : ∀ name ∈ names, ∀ rest, NoArgument rest →
      recognise none ('\\' :: (name.text ++ rest)) = none)
    (stripped : Stripped names text bare) :
    Text.pieces recognise text = text.map .plain := by
  induction stripped with
  | nil => rfl
  | @plain names c rest _ inert _ ih =>
      have noCommand := ne_backslash_of_inert inert
      rw [ahead.pieces_of_none (other c rest noCommand), ih missing, List.map_cons]
  | @command names name rest _ free _ ih =>
      have noCommand : ∀ c ∈ name.text, ∀ more, recognise none (c :: more) = none := by
        intro c member more
        refine other c more ?_
        rintro rfl
        exact absurd (name.letters _ member) (by decide)
      rw [ahead.pieces_of_none (missing name List.mem_cons_self rest free),
        ahead.pieces_stretch noCommand, ih fun later member => missing later
          (List.mem_cons_of_mem name member), List.map_cons, List.map_append]

theorem without_commandAt (stripped : Stripped names text bare) :
    Text.without commandAt text = bare := by
  have ahead : Text.LooksAhead commandAt := fun _ _ => rfl
  induction stripped with
  | nil => rfl
  | @plain names c rest _ inert _ ih =>
      have noCommand := ne_backslash_of_inert inert
      rw [ahead.without_cons (commandAt_of_ne noCommand none rest), ih]
  | @command names name rest bare free _ ih =>
      have found : commandAt none (('\\' :: name.text) ++ rest) = some ((), rest) :=
        commandAt_append name free.word
      rw [← List.cons_append, ahead.without_item (List.cons_ne_nil _ _) found, ih]

/-- **Stripping commands.** A voice is cleaned of its commands. -/
theorem cleanVoice_eq (stripped : Stripped names text bare) : cleanVoice text = bare := by
  have comments : Text.without commentAt text = text := by
    have noComment := stripped.not_mem separatesNotes_percent rfl (by decide)
    exact Text.without_eq fun before c more member =>
      commentAt_of_ne (ne_of_mem_of_not_mem member noComment) before more
  have clefs : Text.without clefAt text = text := by
    rw [Text.without, stripped.pieces_eq_map_plain (fun _ _ => rfl)
      (fun c more other => clefAt_of_ne other none more)
      fun name _ rest free => clefAt_append name free.word, Text.filterMap_plain?_stretch]
  have numbers : Text.without numericCommandAt text = text := by
    rw [Text.without, stripped.pieces_eq_map_plain (fun _ _ => rfl)
      (fun c more other => numericCommandAt_of_ne other none more)
      fun name _ rest free => numericCommandAt_append name free, Text.filterMap_plain?_stretch]
  have markers : bare.filter (fun c => !isMarker c) = bare := filter_isMarker stripped.isMarker_bare
  simp only [cleanVoice, comments, clefs, numbers, stripped.without_commandAt, markers]

/-- The notes of a voice with commands are those of the text without them. -/
theorem scanVoice_eq (stripped : Stripped names text bare) :
    scanVoice text = (Text.items noteAt bare).map Prod.fst := by
  rw [scanVoice, stripped.cleanVoice_eq]

/-- **Unknown commands.** A text whose commands are no variables is expanded by moving its notes. -/
theorem expand_eq (stripped : Stripped names text bare) {table : Variables}
    (unknown : ∀ name ∈ names, table.body? name.text = none) (budget : Nat) (interval : Int) :
    expand table (budget + 1) interval text = .ok (moveNotes interval text) := by
  have blocks : Text.pieces transposedBlockAt text = text.map .plain := by
    apply Text.pieces_eq_map_plain
    intro before c more suffix
    rw [Option.eq_none_iff_forall_ne_some]
    intro found block
    obtain ⟨header, same, -⟩ := transposedBlockAt_eq_some_iff.mp block
    have opening : '{' ∈ header.text := by simp [TransposeHeader.text]
    have inside : '{' ∈ c :: more := same ▸ List.mem_append_left _ opening
    exact stripped.not_mem separatesNotes_opening rfl (by decide) (suffix.mem inside)
  have settled : (⟨text, []⟩ : Draft).Settled table := ⟨blocks,
    stripped.pieces_eq_map_plain (referenceAt_ahead table)
      (fun c more other => referenceAt_of_ne other table more)
      fun name member rest free => referenceAt_append name free.word (unknown name member)⟩
  have unforged : Unforged text :=
    unforged_of_not_mem (stripped.not_mem separatesNotes_markerEdge rfl (by decide))
  rw [expand, if_neg (Nat.succ_ne_zero budget), expandRounds_stable settled]
  exact finish_stretch unforged

end Stripped

end Clavier
