import Clavier.Exercise.KeyPress
import Clavier.Practice.Studio

/-!
# Reports of presses

A studio reports presses one by one, and an exercise answers them one by one. What is said of a
press and what it does depend only on the exercise before it (`reportPress_eq`), so both rows are
known press by press (`getElem?_pressAll`, `getElem?_reportPresses`), and what is said of a row in
two parts is what is said of the first part and then of the second one (`reportPresses_append`).

The line of a press tells the three kinds of reports apart, whatever the names of the notes are
(`tellsOf_reportPress`). So playing the presses of a keyboard and receiving its messages agree
press by press, and presses can be played in several turns (`play_receive`).
-/

set_option autoImplicit false

namespace Clavier

/-! ## Answers -/

namespace Exercise

/-- An answer is the answer to its press after the presses before it. -/
theorem getElem?_pressAll (exercise : Exercise) (keys : List Int) (i : Nat) :
    (exercise.pressAll keys).1[i]? =
      keys[i]?.map fun key => ((exercise.pressAll (keys.take i)).2.press key).1 := by
  induction keys generalizing exercise i with
  | nil => rfl
  | cons key rest ih =>
      cases i with
      | zero => rfl
      | succ i => exact ih (exercise.press key).2 i

/-- A complete exercise takes no press as right. -/
theorem press_of_complete {exercise : Exercise} (complete : exercise.complete = true) (key : Int) :
    exercise.press key = (false, exercise) := by
  rw [press, if_pos complete]

end Exercise

namespace Studio

/-! ## Reports -/

/-- What is said of a press: it is ignored by a complete exercise, and otherwise it is right or
wrong as the exercise answers it. The exercise after it is the one that was pressed. -/
theorem reportPress_eq (exercise : Exercise) (key : Int) :
    reportPress exercise key =
      (if exercise.complete then .ignored key
        else if (exercise.press key).1 then .matched key
        else .wrong key exercise.expectation, (exercise.press key).2) := by
  unfold reportPress
  split
  · rename_i complete
    rw [Exercise.press_of_complete complete]
  · rcases exercise.press key with ⟨right, next⟩
    cases right <;> rfl

theorem reportPresses_snd (exercise : Exercise) (keys : List Int) :
    (reportPresses exercise keys).2 = (exercise.pressAll keys).2 := by
  induction keys generalizing exercise with
  | nil => rfl
  | cons key rest ih =>
      simp only [reportPresses, Exercise.pressAll, reportPress_eq, ih]

theorem reportPresses_append (exercise : Exercise) (first second : List Int) :
    reportPresses exercise (first ++ second) =
      ((reportPresses exercise first).1 ++
          (reportPresses (reportPresses exercise first).2 second).1,
        (reportPresses (reportPresses exercise first).2 second).2) := by
  induction first generalizing exercise with
  | nil => rfl
  | cons key rest ih => simp only [List.cons_append, reportPresses, ih]

theorem length_reportPresses (exercise : Exercise) (keys : List Int) :
    (reportPresses exercise keys).1.length = keys.length := by
  induction keys generalizing exercise with
  | nil => rfl
  | cons key rest ih => exact congrArg Nat.succ (ih _)

/-- A report is the report of its press after the presses before it. -/
theorem getElem?_reportPresses (exercise : Exercise) (keys : List Int) (i : Nat) :
    (reportPresses exercise keys).1[i]? =
      keys[i]?.map fun key => (reportPress (exercise.pressAll (keys.take i)).2 key).1 := by
  induction keys generalizing exercise i with
  | nil => rfl
  | cons key rest ih =>
      cases i with
      | zero => rfl
      | succ i =>
          have later := ih (exercise.press key).2 i
          simp only [reportPresses, reportPress_eq, List.getElem?_cons_succ, List.take_succ_cons,
            Exercise.pressAll] at later ⊢
          exact later

/-! ## Lines -/

namespace PressReport

variable {key : Int} {expectation : Text}

theorem text_matched_ne_wrong :
    (matched key).reply.text ≠ (wrong key expectation).reply.text := fun same =>
  absurd (List.cons.inj same).1 (by decide)

theorem text_matched_ne_ignored : (matched key).reply.text ≠ (ignored key).reply.text :=
  fun same => absurd (List.cons.inj same).1 (by decide)

/-- Both lines begin with the key; the words behind it differ. -/
theorem text_wrong_ne_ignored : (wrong key expectation).reply.text ≠ (ignored key).reply.text := by
  intro same
  have words : " wrong, expected ".toList ++ expectation =
      " ignored, exercise complete".toList := by
    simpa only [reply, Reply.text, List.append_assoc, List.cons.injEq, true_and,
      List.append_cancel_left_eq] using same
  have second : some 'w' = some 'i' := congrArg (fun text => text[1]?) words
  exact absurd second (by decide)

end PressReport

/-- A line tells of a press of a key in an exercise: that it is right if the exercise answers so,
that it is ignored if the exercise was complete, and otherwise that it is wrong. -/
structure TellsOf (line : Text) (exercise : Exercise) (key : Int) (right : Bool) : Prop where
  matched : line = (PressReport.matched key).reply.text ↔ right = true
  ignored : line = (PressReport.ignored key).reply.text ↔ exercise.complete = true
  wrong : line = (PressReport.wrong key exercise.expectation).reply.text ↔
    right = false ∧ exercise.complete = false

/-- The line of a press tells of the press. -/
theorem tellsOf_reportPress (exercise : Exercise) (key : Int) :
    TellsOf (reportPress exercise key).1.reply.text exercise key (exercise.press key).1 := by
  rw [reportPress_eq]
  cases complete : exercise.complete with
  | true =>
      rw [Exercise.press_of_complete complete]
      exact {
        matched := iff_of_false PressReport.text_matched_ne_ignored.symm Bool.false_ne_true
        ignored := iff_of_true rfl complete
        wrong := iff_of_false PressReport.text_wrong_ne_ignored.symm fun running =>
          Bool.false_ne_true (running.2.symm.trans complete) }
  | false =>
      have running : exercise.complete ≠ true := by simp [complete]
      cases right : (exercise.press key).1 with
      | true =>
          exact {
            matched := iff_of_true rfl rfl
            ignored := iff_of_false PressReport.text_matched_ne_ignored running
            wrong := iff_of_false PressReport.text_matched_ne_wrong fun refused =>
              Bool.false_ne_true refused.1.symm }
      | false =>
          exact {
            matched := iff_of_false PressReport.text_matched_ne_wrong.symm Bool.false_ne_true
            ignored := iff_of_false PressReport.text_wrong_ne_ignored running
            wrong := iff_of_true rfl ⟨rfl, complete⟩ }

/-- Presses can be played in two turns: the lines of the presses stand in the same order, and the
last line is the state after all of them. -/
theorem play_append (studio : Studio) (first second : List Int) :
    (studio.play (first ++ second)).2 = ((studio.play first).2.play second).2 ∧
      (studio.play (first ++ second)).1 =
        (studio.play first).1.dropLast ++ ((studio.play first).2.play second).1 := by
  obtain ⟨loaded, directory⟩ := studio
  cases loaded with
  | none => exact ⟨rfl, rfl⟩
  | some loaded =>
      refine ⟨?_, ?_⟩
      · simp only [play, reportPresses_append]
      · simp only [play, reportPresses_append, List.map_append, List.dropLast_concat,
          List.append_assoc]

/-- What a studio with an exercise says of some presses. -/
theorem play_loaded (loaded : Loaded) (directory : Directory) (keys : List Int) :
    (⟨some loaded, directory⟩ : Studio).play keys =
      ((reportPresses loaded.exercise keys).1.map (fun report => report.reply.text) ++
          [(loaded.exercise.pressAll keys).2.status],
        ⟨some { loaded with exercise := (loaded.exercise.pressAll keys).2 }, directory⟩) := by
  rw [← reportPresses_snd]
  rfl

/-- **Playing and receiving agree.** The presses among some messages, played in a studio, leave the
exercise as receiving the messages does, and are followed by its state. The line of each press tells
whether the answer to the press is right, whether the exercise was complete before it, or that it is
wrong. Presses can be played in two turns: that leaves the same studio and says the same, but for
the state of the exercise between the turns. -/
theorem play_receive (loaded : Loaded) (directory : Directory) :
    (∀ messages : List KeyMessage,
      let keys := pressedKeys messages
      let received := loaded.exercise.receive messages
      let played := (⟨some loaded, directory⟩ : Studio).play keys
      played.2 = ⟨some { loaded with exercise := received.2 }, directory⟩ ∧
      played.1.length = keys.length + 1 ∧ played.1.getLast? = some received.2.status ∧
      ∀ (i : Nat) (key : Int), keys[i]? = some key → ∃ line right,
        played.1[i]? = some line ∧ received.1[i]? = some right ∧
          TellsOf line (loaded.exercise.pressAll (keys.take i)).2 key right) ∧
    ∀ first second : List Int,
      let turn := (⟨some loaded, directory⟩ : Studio).play first
      let whole := (⟨some loaded, directory⟩ : Studio).play (first ++ second)
      whole.2 = (turn.2.play second).2 ∧ whole.1 = turn.1.dropLast ++ (turn.2.play second).1 := by
  refine ⟨fun messages => ?_, fun first second => play_append _ first second⟩
  dsimp only [Exercise.receive]
  generalize pressedKeys messages = keys
  rw [play_loaded]
  refine ⟨rfl, ?_, List.getLast?_concat, fun i key pressed => ?_⟩
  · simp only [List.length_append, List.length_map, length_reportPresses, List.length_singleton]
  · have inside : i < keys.length := (List.getElem?_eq_some_iff.mp pressed).1
    have line : ((reportPresses loaded.exercise keys).1.map (fun report => report.reply.text) ++
        [(loaded.exercise.pressAll keys).2.status])[i]? =
          some (reportPress (loaded.exercise.pressAll (keys.take i)).2 key).1.reply.text := by
      rw [List.getElem?_append_left (by simpa [length_reportPresses] using inside),
        List.getElem?_map, getElem?_reportPresses, pressed]
      rfl
    have answer : (loaded.exercise.pressAll keys).1[i]? =
        some ((loaded.exercise.pressAll (keys.take i)).2.press key).1 := by
      rw [Exercise.getElem?_pressAll, pressed]
      rfl
    exact ⟨_, _, line, answer, tellsOf_reportPress _ key⟩

/-- Both hands end on one key. The third press completes the exercise in the middle of the
messages, so the last press is ignored; the release before it is no press. -/
theorem play_receive_unison :
    let note : Note := ⟨60, ['C'], none⟩
    let loaded : Loaded := ⟨⟨[note], [note], ⟨none, none⟩⟩, .start [note] [note]⟩
    let messages : List KeyMessage := [.noteOn 61 64, .noteOn 60 64, .other, .noteOn 60 80,
      .noteOn 60 0, .noteOn 60 64]
    (pressedKeys messages)[3]? = some 60 ∧
      ((⟨some loaded, .empty⟩ : Studio).play (pressedKeys messages)).1[3]? =
        some "! 60 ignored, exercise complete".toList := by
  intro note loaded messages
  have pressed : (pressedKeys messages)[3]? = some 60 := rfl
  obtain ⟨line, right, found, -, tells⟩ :=
    ((play_receive loaded .empty).1 messages).2.2.2 3 60 pressed
  rw [tells.ignored.mpr (by decide)] at found
  exact ⟨pressed, found⟩

end Studio

end Clavier
