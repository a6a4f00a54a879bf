import Clavier.Proofs.Commands
import Clavier.Proofs.Comments

/-!
# Items of a voice

A voice is written of notes, clefs, commands with and without an argument, and comments, with a
blank between any two of them. Cleaning takes away one kind after the other, and `VoiceItem.left`
is what is left of an item after some of its passes.

A pass works on every item alone (`without_spacedItems`). It would look beyond its item only to
find the argument of a command, and no item begins with a digit or a slash, neither at first nor
after some of the passes (`noArgument_spacedItems`). After all passes there are only notes and
blanks, so a scan of the voice finds the notes that were written (`scanVoice_print`).
-/

set_option autoImplicit false

namespace Clavier

/-! ## Items -/

/-- A nonempty run of digits and slashes. -/
structure CommandArgument where
  text : Text
  nonempty : text ≠ []
  chars : ∀ c ∈ text, isArgumentChar c = true

/-- No blank is part of an argument. -/
theorem isBlank_of_isArgumentChar {c : Char} (argument : isArgumentChar c = true) :
    Text.isBlank c = false := by
  simp only [isArgumentChar, Bool.or_eq_true, decide_eq_true_eq] at argument
  rcases argument with digit | rfl
  · exact isBlank_of_isWord (Text.isWord_of_isDigit digit)
  · rfl

/-- What a voice is written of. -/
inductive VoiceItem where
  | note (written : WrittenNote)
  | clef (name : Word)
  | numbered (name : CommandName) (argument : CommandArgument)
  | command (name : CommandName)
  | comment (inside : Text) (line : '\n' ∉ inside)

namespace VoiceItem

/-- An item as it is written; a comment goes on to the end of its line. -/
def text : VoiceItem → Text
  | .note written => written.text
  | .clef name => '\\' :: ("clef".toList ++ ' ' :: name.text)
  | .numbered name argument => '\\' :: (name.text ++ ' ' :: argument.text)
  | .command name => '\\' :: name.text
  | .comment inside _ => '%' :: (inside ++ ['\n'])

/-- The note of an item. -/
def note? : VoiceItem → Option WrittenNote
  | .note written => some written
  | _ => none

/-- The notes among some items, in order. -/
def notes (items : List VoiceItem) : List WrittenNote := items.filterMap note?

/-- The command of an item that is left when clefs and commands with an argument are gone. -/
def command? : VoiceItem → Option CommandName
  | .command name => some name
  | _ => none

/-- Items with a blank between any two of them. -/
def print (items : List VoiceItem) : Text := Text.joinWith [' '] (items.map text)

/-- What is left of an item after a number of passes. The passes take away comments, clefs,
commands with an argument and all other commands, in this order; a comment leaves its line end. -/
def left (passes : Nat) (item : VoiceItem) : Text :=
  match item with
  | .note _ => item.text
  | .comment _ _ => if passes = 0 then item.text else ['\n']
  | .clef _ => if passes ≤ 1 then item.text else []
  | .numbered _ _ => if passes ≤ 2 then item.text else []
  | .command _ => if passes ≤ 3 then item.text else []

@[simp] theorem left_zero (item : VoiceItem) : item.left 0 = item.text := by
  cases item <;> rfl

/-- Whatever is left of an item is empty, a line end, or begins with no blank and no argument. -/
theorem left_cases (passes : Nat) (item : VoiceItem) :
    item.left passes = [] ∨ item.left passes = ['\n'] ∨ ∃ c more, item.left passes = c :: more ∧
      Text.isBlank c = false ∧ isArgumentChar c = false := by
  cases item with
  | note written =>
      have letter := written.pitch.letter_note
      have noSlash : written.pitch.letter ≠ '/' := by
        intro same
        rw [same] at letter
        cases letter
      refine .inr (.inr ⟨_, _, rfl, isBlank_of_isNoteLetter letter, ?_⟩)
      simp [isArgumentChar, isDigit_of_isNoteLetter letter, noSlash]
  | comment inside line =>
      rw [left]
      split
      · exact .inr (.inr ⟨_, _, rfl, rfl, by decide⟩)
      · exact .inr (.inl rfl)
  | _ =>
      rw [left]
      split
      · exact .inr (.inr ⟨_, _, rfl, rfl, by decide⟩)
      · exact .inl rfl

/-- Only comments hold a percent sign. -/
theorem not_mem_text_percent (item : VoiceItem)
    (other : ∀ inside line, item ≠ .comment inside line) : '%' ∉ item.text := by
  have noWord : Text.isWord '%' = false := by decide +kernel
  cases item with
  | note written => exact written.not_mem_text separatesNotes_percent
  | clef name =>
      have inName := Text.not_mem_of_test name.word noWord
      simpa [text] using inName
  | numbered name argument =>
      have inName := name.not_mem_text (c := '%') rfl
      have inArgument := Text.not_mem_of_test argument.chars (c := '%') rfl
      simpa [text] using ⟨inName, inArgument⟩
  | command name => simpa [text] using name.not_mem_text (c := '%') rfl
  | comment inside line => exact absurd rfl (other inside line)

end VoiceItem

/-- What is left of some items after a number of passes, with a blank before each of them. -/
def spacedItems (passes : Nat) (items : List VoiceItem) : Text :=
  items.flatMap fun item => ' ' :: item.left passes

@[simp] theorem spacedItems_cons (passes : Nat) (item : VoiceItem) (items : List VoiceItem) :
    spacedItems passes (item :: items) = ' ' :: (item.left passes ++ spacedItems passes items) :=
  rfl

theorem stops_spacedItems {test : Char → Bool} (space : test ' ' = false) (passes : Nat)
    (items : List VoiceItem) : Text.Stops test (spacedItems passes items) := by
  cases items with
  | nil => exact Text.stops_nil
  | cons item rest => exact Text.stops_cons.mpr space

/-- **No argument follows.** Whatever is left of some items is no argument of a command in front of
them. -/
theorem noArgument_spacedItems (passes : Nat) (items : List VoiceItem) :
    NoArgument (spacedItems passes items) := by
  refine ⟨stops_spacedItems isWord_space passes items, ?_⟩
  induction items with
  | nil => exact Text.stops_nil
  | cons item rest ih =>
      -- where only blanks are left of an item, the next one decides
      rcases item.left_cases passes with empty | line | ⟨c, more, first, noBlank, noArgument⟩
      · rw [spacedItems_cons, empty]
        exact ih
      · rw [spacedItems_cons, line]
        exact ih
      · have stops : Text.Stops Text.isBlank (item.left passes ++ spacedItems passes rest) := by
          rw [first]
          exact Text.stops_cons.mpr noBlank
        have trimmed := Text.trimStart_append allBlank_space stops
        rw [List.singleton_append] at trimmed
        rw [spacedItems_cons, trimmed, first]
        exact Text.stops_cons.mpr noArgument

/-! ## One pass -/

/-- A recogniser that looks for a backslash first, and not behind it. -/
structure ReadsCommands (recognise : Text.Recogniser Unit) : Prop where
  ahead : Text.LooksAhead recognise
  other : ∀ c more, c ≠ '\\' → recognise none (c :: more) = none

theorem readsCommands_clefAt : ReadsCommands clefAt :=
  ⟨fun _ _ => rfl, fun _ more other => clefAt_of_ne other none more⟩

theorem readsCommands_numericCommandAt : ReadsCommands numericCommandAt :=
  ⟨fun _ _ => rfl, fun _ more other => numericCommandAt_of_ne other none more⟩

namespace ReadsCommands

variable {recognise : Text.Recogniser Unit} (reads : ReadsCommands recognise) {run : Text}
  (noBackslash : '\\' ∉ run)
include reads noBackslash

theorem without_append (rest : Text) :
    Text.without recognise (run ++ rest) = run ++ Text.without recognise rest :=
  reads.ahead.without_stretch
    (fun c member more => reads.other c more (ne_of_mem_of_not_mem member noBackslash)) rest

/-- A command that is not recognised stays. -/
theorem without_command {rest : Text} (missing : recognise none ('\\' :: (run ++ rest)) = none) :
    Text.without recognise ('\\' :: (run ++ rest)) =
      '\\' :: (run ++ Text.without recognise rest) := by
  rw [reads.ahead.without_cons missing, reads.without_append noBackslash]

end ReadsCommands

/-- **One pass.** What works on every item alone works on all of them. -/
theorem without_spacedItems {recognise : Text.Recogniser Unit} {passes : Nat}
    (ahead : Text.LooksAhead recognise) (space : ∀ more, recognise none (' ' :: more) = none)
    (alone : ∀ (item : VoiceItem) items,
      Text.without recognise (item.left passes ++ spacedItems passes items) =
        item.left (passes + 1) ++ Text.without recognise (spacedItems passes items))
    (items : List VoiceItem) :
    Text.without recognise (spacedItems passes items) = spacedItems (passes + 1) items := by
  induction items with
  | nil => rfl
  | cons item rest ih =>
      rw [spacedItems_cons, ahead.without_cons (space _), alone, ih, spacedItems_cons]

/-! ## The passes -/

theorem backslash_not_mem_line : '\\' ∉ ['\n'] := by decide

/-- The first pass takes away the comments. -/
theorem without_commentAt_spacedItems (items : List VoiceItem) :
    Text.without commentAt (spacedItems 0 items) = spacedItems 1 items := by
  refine without_spacedItems commentAt_ahead (commentAt_of_ne (by decide) none) ?_ items
  intro item rest
  have plain (other : ∀ inside line, item ≠ .comment inside line) :
      Text.bare (item.left 0 ++ spacedItems 0 rest) =
        item.text ++ Text.bare (spacedItems 0 rest) := by
    have noComment := item.not_mem_text_percent other
    rw [VoiceItem.left_zero, Text.bare_append (Text.ended_of_not_mem noComment),
      Text.bare_of_not_mem noComment]
  cases item with
  | comment inside line =>
      have stops : Text.Stops (· ≠ '\n') ('\n' :: spacedItems 0 rest) := Text.stops_cons.mpr rfl
      have gone : Text.bare ('%' :: (inside ++ '\n' :: spacedItems 0 rest)) =
          '\n' :: Text.bare (spacedItems 0 rest) :=
        (Text.bare_comment line stops).trans (Text.bare_cons (by decide) _)
      have written : VoiceItem.left 0 (.comment inside line) ++ spacedItems 0 rest =
          '%' :: (inside ++ '\n' :: spacedItems 0 rest) := by
        simp [VoiceItem.left, VoiceItem.text]
      rw [written]
      exact gone
  | _ => exact plain fun _ _ same => by cases same

/-- A clef is read with its word. -/
theorem clefAt_clef (name : Word) {rest : Text} (ended : Text.Stops Text.isWord rest) :
    clefAt none ((VoiceItem.clef name).text ++ rest) = some ((), rest) := by
  have command : Text.dropStart? "\\clef".toList ((VoiceItem.clef name).text ++ rest) =
      some (' ' :: (name.text ++ rest)) := Text.dropStart?_eq_some_iff.mpr rfl
  have gap : Text.dropBlanks? (' ' :: (name.text ++ rest)) = some (name.text ++ rest) :=
    Text.dropBlanks?_space name.nonempty
      (fun c member => isBlank_of_isWord (name.word c member)) rest
  have run : takeRun? Text.isWord (name.text ++ rest) = some (name.text, rest) :=
    takeRun?_eq_some_iff.mpr ⟨name.nonempty, rfl, name.word, ended⟩
  simp only [clefAt, command, gap, run, bind, Option.bind_some, pure]

/-- A command is read with its argument. -/
theorem numericCommandAt_numbered (name : CommandName) (argument : CommandArgument) {rest : Text}
    (noArgument : Text.Stops isArgumentChar rest) :
    numericCommandAt none ((VoiceItem.numbered name argument).text ++ rest) = some ((), rest) := by
  have space : Text.Stops Text.isWord (' ' :: (argument.text ++ rest)) :=
    Text.stops_cons.mpr isWord_space
  have command : commandAt none ((VoiceItem.numbered name argument).text ++ rest) =
      some ((), ' ' :: (argument.text ++ rest)) := by
    have found := commandAt_append name space
    simpa [VoiceItem.text] using found
  have gap : Text.dropBlanks? (' ' :: (argument.text ++ rest)) = some (argument.text ++ rest) :=
    Text.dropBlanks?_space argument.nonempty
      (fun c member => isBlank_of_isArgumentChar (argument.chars c member)) rest
  have run : takeRun? isArgumentChar (argument.text ++ rest) = some (argument.text, rest) :=
    takeRun?_eq_some_iff.mpr ⟨argument.nonempty, rfl, argument.chars, noArgument⟩
  simp only [numericCommandAt, command, gap, run, bind, Option.bind_some, pure]

/-- The second pass takes away the clefs. -/
theorem without_clefAt_spacedItems (items : List VoiceItem) :
    Text.without clefAt (spacedItems 1 items) = spacedItems 2 items := by
  have reads := readsCommands_clefAt
  refine without_spacedItems reads.ahead (fun more => reads.other _ more (by decide)) ?_ items
  intro item rest
  have ended := stops_spacedItems isWord_space 1 rest
  cases item with
  | note written => exact reads.without_append (written.not_mem_text separatesNotes_backslash) _
  | comment inside line => exact reads.without_append backslash_not_mem_line _
  | clef name => exact reads.ahead.without_item (List.cons_ne_nil _ _) (clefAt_clef name ended)
  | numbered name argument =>
      -- a command is no clef, and nothing behind its name begins another one
      have noBackslash : '\\' ∉ name.text ++ ' ' :: argument.text := by
        have inName := name.not_mem_text (c := '\\') rfl
        have inArgument := Text.not_mem_of_test argument.chars (c := '\\') rfl
        simpa using ⟨inName, inArgument⟩
      have space : Text.Stops Text.isWord (' ' :: argument.text ++ spacedItems 1 rest) :=
        Text.stops_cons.mpr isWord_space
      have missing := clefAt_append name space
      rw [← List.append_assoc] at missing
      exact reads.without_command noBackslash missing
  | command name =>
      exact reads.without_command (name.not_mem_text rfl) (clefAt_append name ended)

/-- The third pass takes away the commands with an argument. -/
theorem without_numericCommandAt_spacedItems (items : List VoiceItem) :
    Text.without numericCommandAt (spacedItems 2 items) = spacedItems 3 items := by
  have reads := readsCommands_numericCommandAt
  refine without_spacedItems reads.ahead (fun more => reads.other _ more (by decide)) ?_ items
  intro item rest
  have free := noArgument_spacedItems 2 rest
  cases item with
  | note written => exact reads.without_append (written.not_mem_text separatesNotes_backslash) _
  | comment inside line => exact reads.without_append backslash_not_mem_line _
  | clef name => rfl
  | numbered name argument =>
      exact reads.ahead.without_item (List.cons_ne_nil _ _)
        (numericCommandAt_numbered name argument (stops_spacedItems rfl 2 rest))
  | command name =>
      exact reads.without_command (name.not_mem_text rfl) (numericCommandAt_append name free)

/-- The commands that are left after three passes are stripped by the fourth. -/
theorem stripped_spacedItems (items : List VoiceItem) :
    Stripped (items.filterMap VoiceItem.command?) (spacedItems 3 items) (spacedItems 4 items) := by
  induction items with
  | nil => exact .nil
  | cons item rest ih =>
      rw [spacedItems_cons, spacedItems_cons]
      refine .plain (.inr rfl) ?_
      cases item with
      | note written =>
          exact ih.append_plain fun c member => .inl (written.separatesNotes_of_mem_text member)
      | comment inside line => exact .plain (.inr rfl) ih
      | clef name => exact ih
      | numbered name argument => exact ih
      | command name => exact .command name (noArgument_spacedItems 3 rest) ih

/-- **Cleaning items.** The notes are left, and the line ends of the comments. -/
theorem cleanVoice_spacedItems (items : List VoiceItem) :
    cleanVoice (spacedItems 0 items) = spacedItems 4 items := by
  have stripped := stripped_spacedItems items
  simp only [cleanVoice, without_commentAt_spacedItems, without_clefAt_spacedItems,
    without_numericCommandAt_spacedItems, stripped.without_commandAt,
    filter_isMarker stripped.isMarker_bare]

/-! ## Notes with blanks between them -/

/-- Notes are found word by word. -/
theorem items_append_words (word : Text) (words : List Text) :
    Text.items noteAt (word ++ words.flatMap (' ' :: ·)) =
      Text.items noteAt word ++ words.flatMap (Text.items noteAt) := by
  induction words generalizing word with
  | nil => simp
  | cons next rest ih =>
      rw [List.flatMap_cons, List.cons_append, items_noteAt_space, ih, List.flatMap_cons]

theorem items_words (words : List Text) :
    Text.items noteAt (words.flatMap (' ' :: ·)) = words.flatMap (Text.items noteAt) :=
  items_append_words [] words

/-! ## Scanning items -/

/-- What the passes leave of an item holds its note and no other. -/
theorem items_left (item : VoiceItem) :
    Text.items noteAt (item.left 4) = item.note?.toList.map WrittenNote.item := by
  cases item with
  | note written =>
      rw [VoiceItem.left, VoiceItem.text, items_noteAt_written]
      rfl
  | _ => rfl

theorem items_spacedItems (items : List VoiceItem) :
    Text.items noteAt (spacedItems 4 items) = (VoiceItem.notes items).map WrittenNote.item := by
  have words : spacedItems 4 items = (items.map (VoiceItem.left 4)).flatMap (' ' :: ·) :=
    (List.flatMap_map ..).symm
  rw [words, items_words, List.flatMap_map, VoiceItem.notes, List.filterMap_eq_flatMap_toList,
    List.map_flatMap]
  simp only [items_left]

/-- A blank in front of a voice is nothing to a scan of it. -/
theorem scanVoice_space (text : Text) : scanVoice (' ' :: text) = scanVoice text := by
  have comments (rest : Text) :
      Text.without commentAt (' ' :: rest) = ' ' :: Text.without commentAt rest :=
    commentAt_ahead.without_cons (commentAt_of_ne (by decide) none rest)
  have clefs (rest : Text) : Text.without clefAt (' ' :: rest) = ' ' :: Text.without clefAt rest :=
    readsCommands_clefAt.ahead.without_cons (clefAt_of_ne (by decide) none rest)
  have numbers (rest : Text) : Text.without numericCommandAt (' ' :: rest) =
      ' ' :: Text.without numericCommandAt rest :=
    readsCommands_numericCommandAt.ahead.without_cons (numericCommandAt_of_ne (by decide) none rest)
  have commands (rest : Text) :
      Text.without commandAt (' ' :: rest) = ' ' :: Text.without commandAt rest :=
    Text.LooksAhead.without_cons (fun _ _ => rfl) (commandAt_of_ne (by decide) none rest)
  have clean : cleanVoice (' ' :: text) = ' ' :: cleanVoice text := by
    simp only [cleanVoice, comments, clefs, numbers, commands]
    rfl
  rw [scanVoice, clean]
  exact congrArg (List.map Prod.fst) (items_noteAt_space [] (cleanVoice text))

/-- The printed items follow the first blank. -/
theorem VoiceItem.cons_print {items : List VoiceItem} (nonempty : items ≠ []) :
    ' ' :: VoiceItem.print items = spacedItems 0 items := by
  have texts : items.map VoiceItem.text ≠ [] := mt List.map_eq_nil_iff.mp nonempty
  have words := Text.cons_joinWith ' ' texts
  rw [List.flatMap_map] at words
  simpa only [spacedItems, VoiceItem.print, VoiceItem.left_zero] using words

/-- Scanning printed items is scanning them with a blank before each. -/
theorem scanVoice_print_eq (items : List VoiceItem) :
    scanVoice (VoiceItem.print items) = scanVoice (spacedItems 0 items) := by
  cases items with
  | nil => rfl
  | cons item rest => rw [← VoiceItem.cons_print (List.cons_ne_nil item rest), scanVoice_space]

theorem scanVoice_spacedItems (items : List VoiceItem) :
    scanVoice (spacedItems 0 items) = (VoiceItem.notes items).map WrittenNote.word := by
  rw [scanVoice, cleanVoice_spacedItems, items_spacedItems, List.map_map]
  rfl

/-- **Items of a voice.** A scan of notes, clefs, commands and comments with a blank between any two
of them finds exactly the notes, in order, with the letter, the accidental, the octave marks and the
fingering that each is written with. -/
theorem scanVoice_print (items : List VoiceItem) :
    scanVoice (VoiceItem.print items) = (VoiceItem.notes items).map WrittenNote.word := by
  rw [scanVoice_print_eq, scanVoice_spacedItems]

end Clavier
