import Clavier.Practice.Studio
import Clavier.Proofs.ExportedScores

/-!
# Runs of a studio

Whatever is asked of a studio, whatever happens to the files around it and whichever MIDI library it
works with, its exercise walks the voices of its score (`matched_run`), and a request that fails leaves no trace: an action that
stops with a fault or is refused changes nothing (`act_of_fails`), so it can be left out of every
run. A score with a key that no MIDI file can hold is never written (`exportTo_of_outside`).

All of this is read off one description of what a command can do to a studio (`Performed`).
-/

set_option autoImplicit false

namespace Clavier

/-! ## Keys that no MIDI file can hold -/

section Library

variable [MidiLibrary] {settings : ExportSettings} {score : Score}

/-- Only scores that a MIDI file can hold have bytes. -/
theorem inMidi_of_midiBytes {bytes : Bytes} (found : midiBytes settings score = .ok bytes) :
    ∀ hand, ∀ note ∈ score.voice hand, note.InMidi := by
  obtain ⟨⟨tempo, song⟩, songFound, -⟩ := bind_eq_ok_iff.mp found
  exact ExportSettings.inMidi_of_song songFound

/-- **Only scores that a MIDI file can hold are written**, with any settings and by any library. -/
theorem inMidi_of_exportScore {directory written : Directory} {path : Text}
    (found : exportScore directory settings score path = .ok written) :
    ∀ hand, ∀ note ∈ score.voice hand, note.InMidi := by
  obtain ⟨bytes, bytesFound, -⟩ := bind_eq_ok_iff.mp found
  exact inMidi_of_midiBytes bytesFound

end Library

namespace Studio

/-! ## What happens to a studio -/

/-- What can happen to a studio. Its files can also be changed by others. -/
inductive Event where
  | action (text : Text)
  | presses (keys : List Int)
  | query (text : Text)
  | files (directory : Directory)

section Library

variable [MidiLibrary]

/-- The studio after an event. -/
def after (studio : Studio) : Event → Studio
  | .action text => (studio.act text).2
  | .presses keys => (studio.play keys).2
  | .query _ => studio
  | .files directory => { studio with directory }

/-- The studio after some events. -/
def run (studio : Studio) (events : List Event) : Studio := events.foldl after studio

theorem run_append (studio : Studio) (first second : List Event) :
    studio.run (first ++ second) = (studio.run first).run second :=
  List.foldl_append

/-- An action fails: it stops with a fault, or its reply begins with an exclamation mark. -/
def Fails (studio : Studio) (action : Text) : Prop :=
  ∀ reply, (studio.act action).1 = .ok reply → reply.text.head? = some '!'

end Library

/-! ## One command -/

/-- What a command can do to a studio. -/
inductive Performed (studio : Studio) : Outcome → Prop where
  /-- The command does not succeed. -/
  | failed (failure : Failure) : Performed studio (.error failure, studio)
  /-- There is no such command. -/
  | refused (message : Text) (hint : Option Text) :
      Performed studio (.ok (.refused message hint), studio)
  /-- A score is taken up with a new exercise. -/
  | taken (score : Score) (message : Text) :
      Performed studio (.ok (.done message), { studio with loaded := some ⟨score, .ofScore score⟩ })
  /-- The exercise moves, with the voices that it has. -/
  | moved {loaded : Loaded} (found : studio.loaded = some loaded) {exercise : Exercise}
      (voices : ∀ hand, exercise.voice hand = loaded.exercise.voice hand) (message : Text) :
      Performed studio
        (.ok (.done message), { studio with loaded := some { loaded with exercise } })
  /-- The score is written. -/
  | written {loaded : Loaded} (found : studio.loaded = some loaded)
      (inMidi : ∀ hand, ∀ note ∈ loaded.score.voice hand, note.InMidi) (directory : Directory)
      (message : Text) : Performed studio (.ok (.done message), { studio with directory })

section Commands

variable (studio : Studio) (argument : Text)

theorem performed_load : Performed studio (studio.load argument) := by
  unfold load
  split
  · exact .taken _ _
  · exact .failed _

theorem performed_source : Performed studio (studio.source argument) := by
  unfold source
  split
  · exact .failed _
  · split
    · exact .taken _ _
    · exact .failed _

theorem performed_reset : Performed studio studio.reset := by
  unfold reset
  split
  · exact .failed _
  · rename_i loaded found
    exact .moved found (fun hand => by cases hand <;> rfl) _

theorem performed_goTo : Performed studio (studio.goTo argument) := by
  unfold goTo
  split
  · exact .failed _
  · rename_i loaded found
    split
    · exact .failed _
    · split
      · exact .failed _
      · rename_i exercise moved
        exact .moved found (fun hand => (Exercise.goTo?_voice moved hand).1) _

theorem performed_exportTo [MidiLibrary] : Performed studio (studio.exportTo argument) := by
  unfold exportTo
  split
  · exact .failed _
  · split
    · exact .failed _
    · rename_i loaded found
      split
      · exact .failed _
      · rename_i directory written
        exact .written found (inMidi_of_exportScore written) directory _

/-- **One command** does one of the five things. -/
theorem performed [MidiLibrary] (command : Command) :
    Performed studio (studio.perform argument command) := by
  cases command with
  | load => exact performed_load studio argument
  | source => exact performed_source studio argument
  | reset => exact performed_reset studio
  | goto => exact performed_goTo studio argument
  | «export» => exact performed_exportTo studio argument
  | unknown word => exact .refused _ _

end Commands

/-! ## Actions -/

section Actions

variable {studio : Studio} {action : Text}

theorem head?_text_refused (message : Text) (hint : Option Text) :
    (Reply.refused message hint).text.head? = some '!' := by
  rcases hint with - | _ | _ <;> rfl

variable [MidiLibrary]

/-- An action leaves the studio as its command does. -/
theorem act_snd :
    (studio.act action).2 =
      (studio.perform (parseAction action).2 (parseAction action).1).2 := by
  unfold act
  dsimp only
  split <;> rename_i outcome <;> rw [outcome]

/-- An action fails unless its command is done. -/
theorem fails_iff :
    studio.Fails action ↔
      ∀ message, (studio.perform (parseAction action).2 (parseAction action).1).1 ≠
        .ok (.done message) := by
  unfold Fails act
  dsimp only
  split <;> rename_i outcome <;> rw [outcome]
  · rename_i reply next
    cases reply with
    | done message =>
        refine ⟨fun fails => absurd (fails _ rfl) ?_, fun notDone => absurd rfl (notDone message)⟩
        simp [Reply.text]
    | refused message hint =>
        constructor
        · exact fun _ message same => by cases same
        · rintro - reply same
          cases same
          exact head?_text_refused message hint
  · constructor
    · exact fun _ message same => by cases same
    · rintro - reply same
      cases same
      exact head?_text_refused _ none
  · constructor
    · exact fun _ message same => by cases same
    · exact fun _ reply same => by cases same

/-- An action that fails changes nothing. -/
theorem act_of_fails (fails : studio.Fails action) : (studio.act action).2 = studio := by
  rw [fails_iff] at fails
  rw [act_snd]
  have step := performed studio (parseAction action).2 (parseAction action).1
  generalize studio.perform (parseAction action).2 (parseAction action).1 = outcome at step fails
  cases step with
  | failed failure => rfl
  | refused message hint => rfl
  | taken score message => exact absurd rfl (fails message)
  | moved found voices message => exact absurd rfl (fails message)
  | written found inMidi directory message => exact absurd rfl (fails message)

section Outside

variable {loaded : Loaded} (found : studio.loaded = some loaded)
  (outside : ∃ hand, ∃ note ∈ loaded.score.voice hand, ¬note.InMidi)
include found outside

/-- A score with a key that no MIDI file can hold is not written. -/
theorem exportTo_of_outside (argument : Text) :
    ∃ failure, studio.exportTo argument = (.error failure, studio) := by
  obtain ⟨hand, note, member, outside⟩ := outside
  unfold exportTo
  rw [found]
  split
  · exact ⟨_, rfl⟩
  · dsimp only
    split
    · exact ⟨_, rfl⟩
    · rename_i written
      exact absurd (inMidi_of_exportScore written hand note member) outside

theorem fails_export (command : (parseAction action).1 = .export) : studio.Fails action := by
  obtain ⟨failure, failed⟩ := exportTo_of_outside found outside (parseAction action).2
  rw [fails_iff, command, perform, failed]
  exact fun message same => by cases same

/-- While such a score is loaded, no action changes a file. -/
theorem directory_act : (studio.act action).2.directory = studio.directory := by
  rw [act_snd]
  have step := performed studio (parseAction action).2 (parseAction action).1
  generalize studio.perform (parseAction action).2 (parseAction action).1 = outcome at step
  cases step with
  | failed failure => rfl
  | refused message hint => rfl
  | taken score message => rfl
  | moved found voices message => rfl
  | written again inMidi directory message =>
      obtain ⟨hand, note, member, outside⟩ := outside
      obtain rfl := Option.some.inj (found.symm.trans again)
      exact absurd (inMidi hand note member) outside

end Outside

end Actions

/-! ## The exercise and the score -/

/-- The exercise walks the voices of the score. -/
def Matched (studio : Studio) : Prop :=
  ∀ loaded, studio.loaded = some loaded →
    ∀ hand, loaded.exercise.voice hand = loaded.score.voice hand

theorem matched_start (directory : Directory) : (start directory).Matched :=
  fun _ found => by cases found

section Steps

variable {studio : Studio}

theorem Matched.of_voices (matched : studio.Matched) {loaded : Loaded}
    (found : studio.loaded = some loaded) {exercise : Exercise}
    (voices : ∀ hand, exercise.voice hand = loaded.exercise.voice hand) :
    Matched { studio with loaded := some { loaded with exercise } } := by
  intro next same hand
  cases same
  exact (voices hand).trans (matched loaded found hand)

theorem Matched.performed (matched : studio.Matched) {outcome : Outcome}
    (step : Performed studio outcome) : outcome.2.Matched := by
  cases step with
  | failed failure => exact matched
  | refused message hint => exact matched
  | taken score message =>
      intro loaded same hand
      cases same
      cases hand <;> rfl
  | moved found voices message => exact matched.of_voices found voices
  | written found inMidi directory message => exact matched

theorem Matched.act [MidiLibrary] (matched : studio.Matched) (action : Text) :
    (studio.act action).2.Matched := by
  rw [act_snd]
  exact matched.performed (Studio.performed studio _ _)

theorem reportPress_voice (exercise : Exercise) (key : Int) (hand : Hand) :
    (reportPress exercise key).2.voice hand = exercise.voice hand := by
  have kept := exercise.press_voice key hand
  unfold reportPress
  split
  · rfl
  · split <;> rename_i pressed <;> rwa [pressed] at kept

theorem reportPresses_voice (exercise : Exercise) (keys : List Int) (hand : Hand) :
    (reportPresses exercise keys).2.voice hand = exercise.voice hand := by
  induction keys generalizing exercise with
  | nil => rfl
  | cons key rest ih => exact (ih _).trans (reportPress_voice exercise key hand)

theorem Matched.play (matched : studio.Matched) (keys : List Int) :
    (studio.play keys).2.Matched := by
  unfold Studio.play
  split
  · exact matched
  · rename_i loaded found
    exact matched.of_voices found (reportPresses_voice loaded.exercise keys)

theorem Matched.after [MidiLibrary] (matched : studio.Matched) (event : Event) :
    (studio.after event).Matched := by
  cases event with
  | action text => exact matched.act text
  | presses keys => exact matched.play keys
  | query text => exact matched
  | files directory => exact matched

/-- **The exercise walks the voices of the score** after every run. -/
theorem matched_run [MidiLibrary] (directory : Directory) (events : List Event) :
    ((start directory).run events).Matched := by
  suffices every : ∀ studio : Studio, studio.Matched → (studio.run events).Matched from
    every _ (matched_start directory)
  induction events with
  | nil => exact fun _ matched => matched
  | cons event rest ih => exact fun studio matched => ih _ (matched.after event)

end Steps

/-! ## Whole runs -/

/-- An event that leaves the studio as it is can be left out of a run. -/
theorem run_without [MidiLibrary] {directory : Directory} {before : List Event} {event : Event}
    (idle : ((start directory).run before).after event = (start directory).run before)
    (later : List Event) :
    (start directory).run (before ++ event :: later) = (start directory).run (before ++ later) := by
  rw [run_append, run_append]
  exact congrArg (run · later) idle

/-- **Runs.** After every run over any files, the exercise walks exactly the voices of the score. An
action that fails then changes nothing, and neither does a query, so both can be left out of
the run. While a score is loaded with a key that no MIDI file can hold, every export fails and
no action changes a file; such a score is not written with other settings either. -/
theorem kept_of_run [MidiLibrary] (directory : Directory) (events : List Event) :
    let studio := (start directory).run events
    (∀ loaded, studio.loaded = some loaded →
        loaded.exercise.upper = loaded.score.upper ∧
          loaded.exercise.lower = loaded.score.lower) ∧
      (∀ action, studio.Fails action → (studio.act action).2 = studio ∧
        ∀ later, (start directory).run (events ++ .action action :: later) =
          (start directory).run (events ++ later)) ∧
      (∀ text, studio.after (.query text) = studio ∧
        ∀ later, (start directory).run (events ++ .query text :: later) =
          (start directory).run (events ++ later)) ∧
      ∀ loaded, studio.loaded = some loaded →
        (∃ hand, ∃ note ∈ loaded.score.voice hand, ¬(0 ≤ note.key ∧ note.key ≤ 127)) →
        (∀ action, (studio.act action).2.directory = studio.directory ∧
          ((parseAction action).1 = .export → studio.Fails action)) ∧
        ∀ directory settings path, ∃ failure,
          exportScore directory settings loaded.score path = .error failure := by
  intro studio
  have matched : studio.Matched := matched_run directory events
  refine ⟨fun loaded found => ⟨matched loaded found .upper, matched loaded found .lower⟩,
    fun action fails => ⟨act_of_fails fails, run_without (act_of_fails fails)⟩,
    fun text => ⟨rfl, run_without rfl⟩, fun loaded found outside => ⟨fun action => ?_, ?_⟩⟩
  · exact ⟨directory_act found outside, fails_export found outside⟩
  · intro directory settings path
    obtain ⟨hand, note, member, outside⟩ := outside
    cases written : exportScore directory settings loaded.score path with
    | error failure => exact ⟨failure, rfl⟩
    | ok directory => exact absurd (inMidi_of_exportScore written hand note member) outside

/-- A voice below the keys that a MIDI file can hold, after a jump and a document that is missing: a
jump past the end fails, and so does the export. -/
theorem kept_of_run_lowVoice :
    let events : List Event := [
      .action ("source upper = \\relative c,,,,,,,, \x7b c d \x7d " ++
        "lower = \\relative c \x7b e \x7d").toList,
      .presses [64, 7], .action "goto 2".toList, .query "status".toList,
      .action "load missing.ly".toList]
    let studio := (start .empty).run events
    ∃ loaded, studio.loaded = some loaded ∧
      (loaded.exercise.index = 1 ∧ loaded.exercise.upper = loaded.score.upper) ∧
      (studio.act "goto 3".toList).2 = studio ∧ studio.Fails "export low.mid".toList ∧
      ∃ failure, exportScore .empty .standard loaded.score "low.mid".toList = .error failure := by
  intro events studio
  have low : (studio.loaded.any fun loaded =>
      loaded.exercise.index = 1 && loaded.score.upper.any fun note => note.key < 0) = true := by
    decide +kernel
  have refused : ((studio.act "goto 3".toList).1.toOption.all fun reply =>
      reply.text.head? = some '!') = true := by
    decide +kernel
  obtain ⟨loaded, found, low⟩ := (Option.any_eq_true _ _).mp low
  rw [Bool.and_eq_true, decide_eq_true_eq, List.any_eq_true] at low
  obtain ⟨index, note, member, below⟩ := low
  rw [decide_eq_true_eq] at below
  have fails : studio.Fails "goto 3".toList := by
    intro reply replied
    rw [replied] at refused
    exact decide_eq_true_eq.mp refused
  have kept := kept_of_run .empty events
  obtain ⟨exports, unwritten⟩ :=
    kept.2.2.2 loaded found ⟨.upper, note, member, fun inside => absurd inside.1 (by omega)⟩
  exact ⟨loaded, found, ⟨index, (kept.1 loaded found).1⟩, (kept.2.1 _ fails).1,
    (exports _).2 (by decide +kernel), unwritten _ _ _⟩

end Studio

end Clavier
