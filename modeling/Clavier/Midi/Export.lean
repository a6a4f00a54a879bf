import Clavier.Midi.Library
import Clavier.Midi.Text
import Clavier.Rejection

/-!
# Songs of scores

A score has no rhythm. In its song all notes of a voice have one length and follow
each other without gaps, and there is one part for each voice that has notes. Title
and composer are carried as tagged texts.

When a note starts and ends is given by a clock. The clock of an export counts
seconds in binary64 numbers, and its notes are made by the MIDI library.
-/

set_option autoImplicit false

namespace Clavier

/-! ## Songs over a clock -/

/-- When the note at each place of a voice starts and ends. -/
structure Clock (Time : Type) where
  start : Nat → Time
  finish : Nat → Time

/-- How the notes of a song are played. -/
structure Touch where
  velocity : Int
  program : Int

/-- What a note is called in messages: its spelling, or its name where it has none. -/
def Note.label (note : Note) : Text :=
  match note.spelling with
  | some (c :: rest) => c :: rest
  | _ => note.name

/-- The keys that a MIDI file can hold. -/
def isMidiKey (key : Int) : Bool := 0 ≤ key && key ≤ 127

/-- The texts that carry what is known of a piece. -/
def Metadata.texts (metadata : Metadata) : List Text :=
  (metadata.title.map fun title => toMidiText (titleTag ++ title)).toList ++
    (metadata.composer.map fun composer => toMidiText (composerTag ++ composer)).toList

section Songs

variable {Time : Type} (make : TimedNote Time → Except Fault Unit) (clock : Clock Time)

/-- The timed notes of a hand, from a place of its voice on. Every note has to be made. -/
def timedNotes (velocity : Int) (hand : Hand) :
    Nat → List Note → Except Failure (List (TimedNote Time))
  | _, [] => .ok []
  | index, note :: rest =>
      if !isMidiKey note.key then
        .error (.rejected (.keyOutsideMidi hand (index + 1) note.label note.key))
      else do
        let timed := ⟨note.key, velocity, clock.start index, clock.finish index⟩
        orFault (make timed)
        let others ← timedNotes velocity hand (index + 1) rest
        return timed :: others

/-- The part of a hand, if its voice has notes. -/
def handPart (touch : Touch) (score : Score) (hand : Hand) : Except Failure (List (Part Time)) :=
  match score.voice hand with
  | [] => .ok []
  | notes => do
      let timed ← timedNotes make clock touch.velocity hand 0 notes
      return [⟨hand.voiceName, touch.program, false, timed⟩]

/-- The song of a score over a clock. -/
def Score.toSong (touch : Touch) (score : Score) : Except Failure (Song Time) := do
  let upper ← handPart make clock touch score .upper
  let lower ← handPart make clock touch score .lower
  return ⟨upper ++ lower, score.metadata.texts⟩

end Songs

/-! ## Seconds -/

/-- What an export is given: beats per minute, the length of a note in beats, and how notes
are played. -/
structure ExportSettings where
  tempo : Amount
  beatsPerNote : Amount
  touch : Touch

/-- The settings of an export that is given none. -/
def ExportSettings.standard : ExportSettings := ⟨.real (.ofInt 120), .real (.ofInt 1), ⟨80, 0⟩⟩

namespace ExportSettings

/-- The seconds that a note lasts. -/
def noteSeconds (settings : ExportSettings) : Except Fault Binary64 := do
  let beats ← settings.beatsPerNote.toBinary64
  let tempo ← settings.tempo.toBinary64
  (beats.mul secondsPerMinute).div tempo

/-- The clock on which every note lasts a number of seconds. -/
def clockOf (seconds : Binary64) : Clock Binary64 where
  start index := (Binary64.ofInt index).mul seconds
  finish index := ((Binary64.ofInt index).mul seconds).add seconds

/-- The song of a score in seconds, and the tempo that it is begun with. -/
def song [MidiLibrary] (settings : ExportSettings) (score : Score) :
    Except Failure (Amount × Song Binary64) := do
  orFault (MidiLibrary.beginSong settings.tempo)
  let seconds ← orFault settings.noteSeconds
  let song ← score.toSong MidiLibrary.makeNote (clockOf seconds) settings.touch
  return (settings.tempo, song)

end ExportSettings

end Clavier
