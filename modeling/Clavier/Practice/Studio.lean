import Clavier.Midi.Bundled
import Clavier.Practice.Reply
import Clavier.Practice.Summary
import Clavier.Score.Json
import Clavier.Storage.ScoreFile
import Clavier.Text.LowerCase

/-!
# Practice studio

A studio holds the score that is practised and the exercise over it, and works in a
directory. It takes three kinds of requests: actions (load a document, take a source
text, reset, go to a note, export), presses of keys, and queries.

An action is a command word and its argument. Its answer is a reply; a rejection
becomes a refusal, and only a fault leaves an action without a reply.

Exports are made with any MIDI library. The bundled one comes with the studio.
-/

set_option autoImplicit false

namespace Clavier

/-- A score and the exercise over it. A studio takes up the score first and then makes the exercise
over it. Nothing that can fail stands between the two steps, so they are one here, and there is
never one without the other. -/
structure Loaded where
  score : Score
  exercise : Exercise
  deriving DecidableEq

/-- A practice studio. -/
structure Studio where
  loaded : Option Loaded
  directory : Directory
  deriving DecidableEq

namespace Studio

/-- A studio without a score. -/
def start (directory : Directory) : Studio := ⟨none, directory⟩

/-! ## Actions -/

/-- What a studio can be told to do. -/
inductive Command where
  | load
  | source
  | reset
  | goto
  | export
  | unknown (word : Text)
  deriving DecidableEq

/-- The command of a word in lower case. -/
def Command.ofWord (word : Text) : Command :=
  if word = "load".toList then .load
  else if word = "source".toList then .source
  else if word = "reset".toList then .reset
  else if word = "goto".toList then .goto
  else if word = "export".toList then .export
  else .unknown word

/-- The command of an action and its argument, without the blanks around it. -/
def parseAction (action : Text) : Command × Text :=
  let (word, argument) := Text.cutFirstWord (Text.trim action)
  (.ofWord (Text.lower word), Text.trim argument)

/-- The one path that an argument names, for a command. -/
def singlePath (command argument : Text) : Except Failure Text :=
  match Text.shellWords argument with
  | .error defect => .error (.rejected (.badQuoting command defect))
  | .ok [path] => .ok path
  | .ok _ => .error (.rejected (.notOnePath command))

/-- The result of an action, and the studio after it. -/
abbrev Outcome := Except Failure Reply × Studio

/-- The outcome of taking up a score. -/
def take (studio : Studio) (score : Score) : Outcome :=
  let counts := Hand.all.map fun hand =>
    Text.ofNat (score.voice hand).length ++ ' ' :: hand.voiceName
  (.ok (.done ("loaded ".toList ++ score.metadata.summary ++ ": ".toList ++
      Text.joinWith [',', ' '] counts ++ " notes".toList)),
    { studio with loaded := some ⟨score, .ofScore score⟩ })

/-- Loads the document whose path the argument names. -/
def load (studio : Studio) (argument : Text) : Outcome :=
  match singlePath "load".toList argument >>= loadDocument studio.directory with
  | .ok score => studio.take score
  | .error failure => (.error failure, studio)

/-- Takes the argument as a document. -/
def source (studio : Studio) (argument : Text) : Outcome :=
  if argument.isEmpty then (.error (.rejected .noSourceText), studio)
  else
    match Score.ofSource argument with
    | .ok score => studio.take score
    | .error fault => (.error (.faulted fault), studio)

/-- Takes the exercise back to its start. -/
def reset (studio : Studio) : Outcome :=
  match studio.loaded with
  | none => (.error (.rejected .noScore), studio)
  | some loaded =>
      (.ok (.done "exercise reset".toList),
        { studio with loaded := some { loaded with exercise := loaded.exercise.reset } })

/-- Takes the exercise to the note that the argument numbers. -/
def goTo (studio : Studio) (argument : Text) : Outcome :=
  match studio.loaded with
  | none => (.error (.rejected .noScore), studio)
  | some loaded =>
      match Text.readInt? argument with
      | none => (.error (.rejected (.notANumber argument)), studio)
      | some position =>
          match loaded.exercise.goTo? (position - 1) with
          | none =>
              (.error (.rejected (.noSuchPosition position loaded.exercise.total)), studio)
          | some exercise =>
              (.ok (.done ("at note ".toList ++ Text.ofInt position)),
                { studio with loaded := some { loaded with exercise } })

/-- Writes the score to the MIDI file whose path the argument names. -/
def exportTo [MidiLibrary] (studio : Studio) (argument : Text) : Outcome :=
  match singlePath "export".toList argument with
  | .error failure => (.error failure, studio)
  | .ok path =>
      match studio.loaded with
      | none => (.error (.rejected .noScore), studio)
      | some loaded =>
          match exportScore studio.directory .standard loaded.score path with
          | .error failure => (.error failure, studio)
          | .ok directory =>
              (.ok (.done ("exported to ".toList ++ path)), { studio with directory })

/-- The commands that a studio knows. -/
def actionHint : Text :=
  "load PATH | source TEXT | reset | goto N | export PATH".toList

/-- The outcome of a command with an argument. -/
def perform [MidiLibrary] (studio : Studio) (argument : Text) : Command → Outcome
  | .load => studio.load argument
  | .source => studio.source argument
  | .reset => studio.reset
  | .goto => studio.goTo argument
  | .export => studio.exportTo argument
  | .unknown word =>
      (.ok (.refused ("Unknown session action ".toList ++ inQuotes word) (some actionHint)),
        studio)

/-- The reply to an action, and the studio after it. -/
def act [MidiLibrary] (studio : Studio) (action : Text) : Except Fault Reply × Studio :=
  let (command, argument) := parseAction action
  match studio.perform argument command with
  | (.ok reply, next) => (.ok reply, next)
  | (.error (.rejected rejection), next) => (.ok (.refused rejection.message none), next)
  | (.error (.faulted fault), next) => (.error fault, next)

/-! ## Presses -/

/-- What a studio says of a press. -/
inductive PressReport where
  | matched (key : Int)
  | wrong (key : Int) (expectation : Text)
  | ignored (key : Int)
  deriving DecidableEq

/-- The reply to a press. -/
def PressReport.reply : PressReport → Reply
  | .matched key => .done (Text.ofInt key ++ " matched".toList)
  | .wrong key expectation =>
      .refused (Text.ofInt key ++ " wrong, expected ".toList ++ expectation) none
  | .ignored key => .refused (Text.ofInt key ++ " ignored, exercise complete".toList) none

/-- What is said of a press, and the exercise after it. -/
def reportPress (exercise : Exercise) (key : Int) : PressReport × Exercise :=
  if exercise.complete then (.ignored key, exercise)
  else
    match exercise.press key with
    | (true, next) => (.matched key, next)
    | (false, next) => (.wrong key exercise.expectation, next)

/-- What is said of some presses, and the exercise after them. -/
def reportPresses (exercise : Exercise) : List Int → List PressReport × Exercise
  | [] => ([], exercise)
  | key :: rest =>
      let (report, next) := reportPress exercise key
      let (others, last) := reportPresses next rest
      (report :: others, last)

/-- The refusal of a request that needs a score. -/
def nothingLoaded : Reply :=
  .refused Rejection.noScore.message (some "piano_session \x27load PATH\x27".toList)

/-- The lines that answer some presses, and the studio after them. The last line is the
state of the exercise. -/
def play (studio : Studio) (keys : List Int) : List Text × Studio :=
  match studio.loaded with
  | none => ([nothingLoaded.text], studio)
  | some loaded =>
      let (reports, exercise) := reportPresses loaded.exercise keys
      (reports.map (fun report => report.reply.text) ++ [exercise.status],
        { studio with loaded := some { loaded with exercise } })

/-! ## Queries -/

/-- The queries that a studio knows. -/
def queryHint : Text := "status | notes upper | notes lower | metadata | score".toList

/-- The first word of a query and what follows it; only a space ends the word. -/
def parseQuery (query : Text) : Text × Text :=
  let (word, rest) := Text.splitWhile (· ≠ ' ') (Text.trim query)
  (Text.lower word, Text.lower (Text.trim (rest.drop 1)))

/-- The notes of the voice of a name, the upper one if there is no name. -/
def describeVoice (score : Score) (name : Text) : Text :=
  let name := if name.isEmpty then Hand.upper.voiceName else name
  match score.voiceNamed name with
  | .ok notes => voiceSummary name notes
  | .error rejection => (Reply.refused rejection.message none).text

/-- The answer to a query. -/
def query (studio : Studio) (text : Text) : Text :=
  match studio.loaded with
  | none => nothingLoaded.text
  | some loaded =>
      let (word, argument) := parseQuery text
      if word = "status".toList then loaded.exercise.status
      else if word = "notes".toList then describeVoice loaded.score argument
      else if word = "metadata".toList then loaded.score.metadata.summary
      else if word = "score".toList then Json.ofScore loaded.score
      else (Reply.refused ("Unknown query ".toList ++ inQuotes word) (some queryHint)).text

end Studio

end Clavier
