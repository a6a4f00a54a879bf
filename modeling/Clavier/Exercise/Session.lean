import Clavier.Score.Basic

/-!
# Exercises

An exercise walks the voices of both hands position by position. At a position
each hand that has a note there has to play it, in either order, before the
exercise moves on. After the last position the exercise is complete and stays at
that position.

A press that matches an expected note counts once: a press that both hands expect
goes to the upper hand if it has not played yet, and then to the lower one; a
repeated press is right but counts nothing.
-/

set_option autoImplicit false

namespace Clavier

/-- The state of an exercise over two voices. -/
structure Exercise where
  upper : List Note
  lower : List Note
  index : Nat
  score : Nat
  errors : Nat
  complete : Bool
  upperPlayed : Bool
  lowerPlayed : Bool
  deriving DecidableEq

namespace Exercise

/-- A new exercise over two voices. -/
def start (upper lower : List Note) : Exercise where
  upper
  lower
  index := 0
  score := 0
  errors := 0
  complete := false
  upperPlayed := false
  lowerPlayed := false

/-- A new exercise over the voices of a score. -/
def ofScore (score : Score) : Exercise := start score.upper score.lower

/-! ## What an exercise shows -/

/-- The number of positions. -/
def total (exercise : Exercise) : Nat := max exercise.upper.length exercise.lower.length

/-- The notes of a hand. -/
def voice (exercise : Exercise) : Hand → List Note
  | .upper => exercise.upper
  | .lower => exercise.lower

/-- The note that a hand has at the current position. -/
def current? (exercise : Exercise) (hand : Hand) : Option Note :=
  (exercise.voice hand)[exercise.index]?

/-- Whether a hand has played its note at the current position. -/
def played (exercise : Exercise) : Hand → Bool
  | .upper => exercise.upperPlayed
  | .lower => exercise.lowerPlayed

/-- Whether a key is the one that a hand has at the current position. -/
def expects (exercise : Exercise) (hand : Hand) (key : Int) : Bool :=
  (exercise.current? hand).any fun note => note.key = key

/-- Whether a hand has nothing left to play at the current position. -/
def settled (exercise : Exercise) (hand : Hand) : Bool :=
  exercise.played hand || (exercise.current? hand).isNone

/-- The percentage of positions before the current one, halves rounded up. -/
def progress (exercise : Exercise) : Nat :=
  (200 * exercise.index + exercise.total) / (2 * exercise.total)

/-! ## Playing -/

/-- The exercise after a hand has played its note. -/
def credit (exercise : Exercise) : Hand → Exercise
  | .upper => { exercise with upperPlayed := true, score := exercise.score + 1 }
  | .lower => { exercise with lowerPlayed := true, score := exercise.score + 1 }

/-- The exercise moved on from a position that both hands have settled. -/
def advance (exercise : Exercise) : Exercise :=
  if exercise.settled .upper && exercise.settled .lower then
    let cleared := { exercise with upperPlayed := false, lowerPlayed := false }
    if exercise.index + 1 < exercise.total then { cleared with index := exercise.index + 1 }
    else { cleared with complete := true }
  else exercise

/-- The hand that a press counts for: the first one that expects the key and has not played. -/
def credited? (exercise : Exercise) (key : Int) : Option Hand :=
  Hand.all.find? fun hand => exercise.expects hand key && !exercise.played hand

/-- Whether a press is right, and the exercise after it. -/
def press (exercise : Exercise) (key : Int) : Bool × Exercise :=
  if exercise.complete then (false, exercise)
  else if exercise.expects .upper key || exercise.expects .lower key then
    match exercise.credited? key with
    | some hand => (true, (exercise.credit hand).advance)
    | none => (true, exercise)
  else (false, { exercise with errors := exercise.errors + 1 })

/-- Whether each press of a row is right, and the exercise after all of them. -/
def pressAll (exercise : Exercise) : List Int → List Bool × Exercise
  | [] => ([], exercise)
  | key :: rest =>
      let (right, next) := exercise.press key
      let (others, last) := next.pressAll rest
      (right :: others, last)

/-! ## Moving -/

/-- The exercise back at its start. -/
def reset (exercise : Exercise) : Exercise := start exercise.upper exercise.lower

/-- The exercise at another position, if there is such a position. Score and errors stay. -/
def goTo? (exercise : Exercise) (index : Int) : Option Exercise :=
  if 0 ≤ index ∧ index < exercise.total then
    some
      { exercise with
        index := index.toNat, complete := false, upperPlayed := false, lowerPlayed := false }
  else none

/-! ## What stays -/

/-- Moving on keeps the voices. -/
theorem advance_voice (exercise : Exercise) (hand : Hand) :
    exercise.advance.voice hand = exercise.voice hand := by
  unfold advance
  split
  · dsimp only
    split <;> cases hand <;> rfl
  · rfl

/-- A press keeps the voices. -/
theorem press_voice (exercise : Exercise) (key : Int) (hand : Hand) :
    (exercise.press key).2.voice hand = exercise.voice hand := by
  unfold press
  split
  · rfl
  · split
    · split
      · rename_i credited _
        rw [advance_voice]
        cases credited <;> cases hand <;> rfl
      · rfl
    · cases hand <;> rfl

/-- Going to another position keeps the voices, the score and the errors. -/
theorem goTo?_voice {exercise next : Exercise} {index : Int}
    (moved : exercise.goTo? index = some next) (hand : Hand) :
    next.voice hand = exercise.voice hand ∧ next.score = exercise.score ∧
      next.errors = exercise.errors := by
  unfold goTo? at moved
  split at moved
  · injection moved with same
    subst same
    cases hand <;> exact ⟨rfl, rfl, rfl⟩
  · cases moved

end Exercise

end Clavier
