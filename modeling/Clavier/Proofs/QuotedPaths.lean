import Clavier.Proofs.TrimmedDocuments

/-!
# Quoted paths

Every path can be given to a studio. It stands in single quotes, and a single quote inside it is
written between double quotes, for which the single ones are closed and opened again (`shellQuoted`).
Split into words, a quoted text is the one word that it quotes, whatever characters it has
(`shellWords_shellQuoted`).

On the way there nothing of it is lost. A quoted text begins and ends with a quote, which is no
blank, so trimming takes off the blanks around an action and the blanks between its two words, and
leaves the blanks inside the quotes (`parseAction_between`). Hence loading from a quoted path, and
exporting to one, is loading from the path itself and exporting to it (`act_quoted`).
-/

set_option autoImplicit false

namespace Clavier

namespace Text

/-! ## Quoting a word -/

/-- A character of a quoted text. A single quote closes the quotes, stands between double quotes,
and opens the quotes again. -/
def shellQuotedChar (c : Char) : Text :=
  if c = '\x27' then ['\x27', '"', '\x27', '"', '\x27'] else [c]

/-- A text in single quotes. -/
def shellQuoted (text : Text) : Text := '\x27' :: (text.flatMap shellQuotedChar ++ ['\x27'])

/-- A character in quotes is one more character of the word. -/
theorem shellWordsFrom_quotedChar (word : Text) (c : Char) (rest : Text) :
    shellWordsFrom (.quoted '\x27') word (shellQuotedChar c ++ rest) =
      shellWordsFrom (.quoted '\x27') (word ++ [c]) rest := by
  by_cases quote : c = '\x27'
  · subst quote
    rfl
  · rw [shellQuotedChar, if_neg quote, List.singleton_append, shellWordsFrom, if_neg quote]
    -- a backslash is an escape in double quotes only
    exact if_neg (by simp)

/-- Up to the closing quote, the characters in quotes are added to the word. -/
theorem shellWordsFrom_closed (word text rest : Text) :
    shellWordsFrom (.quoted '\x27') word (text.flatMap shellQuotedChar ++ '\x27' :: rest) =
      shellWordsFrom .word (word ++ text) rest := by
  induction text generalizing word with
  | nil =>
      rw [List.append_nil]
      rfl
  | cons c more ih =>
      rw [List.flatMap_cons, List.append_assoc, shellWordsFrom_quotedChar, ih,
        List.append_assoc, List.singleton_append]

/-- **A quoted text is one word**, the text itself. -/
theorem shellWords_shellQuoted (text : Text) : shellWords (shellQuoted text) = .ok [text] :=
  shellWordsFrom_closed [] text []

theorem shellQuoted_ne_nil (text : Text) : shellQuoted text ≠ [] := List.cons_ne_nil _ _

theorem stops_shellQuoted (text : Text) : Stops isBlank (shellQuoted text) := stops_cons.mpr rfl

theorem stops_reverse_shellQuoted (text : Text) : Stops isBlank (shellQuoted text).reverse := by
  rw [shellQuoted, ← List.cons_append, List.reverse_append]
  exact stops_cons.mpr rfl

end Text

namespace Studio

/-! ## Commands with a path -/

/-- A command that takes a path. -/
inductive PathCommand where
  | load
  | export
  deriving DecidableEq

namespace PathCommand

/-- The word of the command in an action. -/
def word : PathCommand → Text
  | .load => "load".toList
  | .export => "export".toList

/-- The command, as any command of a studio. -/
def command : PathCommand → Command
  | .load => .load
  | .export => .export

/-- What the command does with a path. -/
def outcome [MidiLibrary] (studio : Studio) (path : Text) : PathCommand → Outcome
  | .load =>
      match loadDocument studio.directory path with
      | .ok score => studio.take score
      | .error failure => (.error failure, studio)
  | .export =>
      match studio.loaded with
      | none => (.error (.rejected .noScore), studio)
      | some loaded =>
          match exportScore studio.directory .standard loaded.score path with
          | .error failure => (.error failure, studio)
          | .ok directory =>
              (.ok (.done ("exported to ".toList ++ path)), { studio with directory })

theorem word_ne_nil (command : PathCommand) : command.word ≠ [] := by
  cases command <;> exact List.cons_ne_nil _ _

theorem isBlank_word (command : PathCommand) : ∀ c ∈ command.word, Text.isBlank c = false := by
  cases command <;>
    exact fun c member => Bool.eq_false_iff.mpr (List.any_eq_false.mp rfl c member)

theorem ofWord_lower_word (command : PathCommand) :
    Command.ofWord (Text.lower command.word) = command.command := by
  cases command <;> decide +kernel

/-- A command whose argument names a path does what it does with the path. -/
theorem perform_of_named [MidiLibrary] {command : PathCommand} {argument path : Text}
    (named : singlePath command.word argument = .ok path) (studio : Studio) :
    studio.perform argument command.command = command.outcome studio path := by
  cases command with
  | load =>
      change singlePath "load".toList argument = .ok path at named
      change studio.load argument = _
      rw [Studio.load, named]
      cases found : loadDocument studio.directory path <;>
        simp only [bind, Except.bind, outcome, found]
  | «export» =>
      change singlePath "export".toList argument = .ok path at named
      change studio.exportTo argument = _
      rw [Studio.exportTo, named]
      cases held : studio.loaded with
      | none => simp only [outcome, held]
      | some loaded =>
          cases written : exportScore studio.directory .standard loaded.score path <;>
            simp only [outcome, held, written]

end PathCommand

/-- A quoted path is the one path of its argument. -/
theorem singlePath_shellQuoted (command path : Text) :
    singlePath command (Text.shellQuoted path) = .ok path := by
  rw [singlePath, Text.shellWords_shellQuoted]

/-- The reply to an action with an outcome, and the studio after it. -/
def answer : Outcome → Except Fault Reply × Studio
  | (.ok reply, next) => (.ok reply, next)
  | (.error (.rejected rejection), next) => (.ok (.refused rejection.message none), next)
  | (.error (.faulted fault), next) => (.error fault, next)

theorem act_eq_answer [MidiLibrary] (studio : Studio) (action : Text) :
    studio.act action =
      answer (studio.perform (parseAction action).2 (parseAction action).1) := by
  unfold act answer
  rfl

/-- **Quoted paths.** A path in single quotes, with blanks around it and around the word of its
command, is taken as it is. It is the argument of the action as it is quoted, and the one path that
this argument names; and what a studio answers, and how it is afterwards, is what the command does
with this path. The path can have any characters, or none. -/
theorem act_quoted [MidiLibrary] (command : PathCommand) (path : Text) {lead gap trail : Text}
    (blankLead : Text.AllBlank lead) (someGap : gap ≠ []) (blankGap : Text.AllBlank gap)
    (blankTrail : Text.AllBlank trail) :
    let action := lead ++ (command.word ++ (gap ++ (Text.shellQuoted path ++ trail)))
    parseAction action = (command.command, Text.shellQuoted path) ∧
      singlePath command.word (Text.shellQuoted path) = .ok path ∧
      ∀ studio, studio.act action = answer (command.outcome studio path) := by
  intro action
  have parsed : parseAction action = (command.command, Text.shellQuoted path) := by
    rw [← command.ofWord_lower_word]
    exact parseAction_between command.word_ne_nil command.isBlank_word blankLead someGap blankGap
      (Text.shellQuoted_ne_nil path) (Text.stops_shellQuoted path)
      (Text.stops_reverse_shellQuoted path) blankTrail
  refine ⟨parsed, singlePath_shellQuoted _ path, fun studio => ?_⟩
  rw [act_eq_answer, parsed, PathCommand.perform_of_named (singlePath_shellQuoted _ path)]

/-- A path with blanks at both ends, both kinds of quotes and a backslash, between blanks of
several kinds. -/
theorem act_quoted_mixed :
    let path := " it\x27s\\ \x22é\x22\n\u3000".toList
    let quotes := "\x27 it\x27\x22\x27\x22\x27s\\ \x22é\x22\n\u3000\x27".toList
    let action := "\t\u00a0export\u2003\n".toList ++ (quotes ++ "\r\x0c".toList)
    parseAction action = (.export, quotes) ∧ singlePath "export".toList quotes = .ok path ∧
      ∀ studio, studio.act action = answer (PathCommand.export.outcome studio path) := by
  intro path quotes action
  have blankLead : Text.AllBlank "\t\u00a0".toList := List.all_eq_true.mp (by decide +kernel)
  have blankGap : Text.AllBlank "\u2003\n".toList := List.all_eq_true.mp (by decide +kernel)
  have blankTrail : Text.AllBlank "\r\x0c".toList := List.all_eq_true.mp (by decide +kernel)
  have result := act_quoted .export path blankLead (List.cons_ne_nil _ _) blankGap blankTrail
  have same : Text.shellQuoted path = quotes := by decide +kernel
  dsimp only at result
  rw [same] at result
  exact result

end Studio

end Clavier
