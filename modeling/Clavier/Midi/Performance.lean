import Clavier.Midi.Reader
import Clavier.Midi.Tempo
import Clavier.Midi.Song
import Clavier.Exercise.KeyPress

/-!
# Songs and recordings in files

The tracks of a file are turned into a song with times in ticks, or into the keyboard
messages of a recorded performance.

In a song a note runs from its note-on to the next release of its key on its
channel. A release ends all notes of the key that started before it. Notes that
start at the very tick of the release go on only if the release ends others; a
note that is never ended is no note. A note belongs to the part of the program that
its channel has when it ends.

The texts of all tracks are brought into the order of their times. Signatures of the
first track are not kept, but one with no beats or at a negative time makes the file
unusable as a song.
-/

set_option autoImplicit false

namespace Clavier.Midi

/-! ## Absolute times -/

/-- The events of a track with their ticks since a tick. -/
def absoluteFrom : Nat → List TrackEvent → List (Nat × Event)
  | _, [] => []
  | tick, item :: rest => (tick + item.delta, item.event) :: absoluteFrom (tick + item.delta) rest

/-- The events of a track with their ticks since its start. -/
def absolute (track : List TrackEvent) : List (Nat × Event) := absoluteFrom 0 track

/-- The events of all tracks in the order of their ticks; of events at one tick those of
earlier tracks come first. -/
def merged (tracks : List (List TrackEvent)) : List (Nat × Event) :=
  (tracks.flatMap absolute).mergeSort fun first second => first.1 ≤ second.1

/-! ## Parts of a track -/

/-- A part under construction, with the program and channel it belongs to. -/
structure ChannelPart where
  channel : Nat
  part : Part Nat

/-- What is known while a track is read. `started` holds the ticks and velocities of the notes
that have started and not ended, under their channel and key. -/
structure TrackState where
  name : Text
  programs : List (Nat × Nat)
  started : List ((Nat × Nat) × List (Nat × Nat))
  parts : List ChannelPart

namespace TrackState

/-- The state at the start of a track. -/
def start : TrackState := ⟨[], [], [], []⟩

/-- The notes under a channel and key that have started and not ended. -/
def startedAt (state : TrackState) (place : Nat × Nat) : List (Nat × Nat) :=
  (state.started.lookup place).getD []

/-- The state with other started notes under a channel and key. -/
def setStarted (state : TrackState) (place : Nat × Nat) (notes : List (Nat × Nat)) : TrackState :=
  { state with started := (place, notes) :: state.started.filter (·.1 ≠ place) }

/-- The program that a channel has. -/
def programOf (state : TrackState) (channel : Nat) : Nat :=
  (state.programs.lookup channel).getD 0

/-- The state with further notes in the part of a channel's program. -/
def addNotes (state : TrackState) (channel : Nat) (notes : List (TimedNote Nat)) : TrackState :=
  let program := state.programOf channel
  let belongs := fun found : ChannelPart =>
    found.channel = channel ∧ found.part.program = program
  if state.parts.any (fun found => decide (belongs found)) then
    { state with
      parts := state.parts.map fun found =>
        if belongs found then
          { found with part := { found.part with notes := found.part.notes ++ notes } }
        else found }
  else
    { state with
      parts := state.parts ++ [⟨channel, ⟨state.name, program, channel = 9, notes⟩⟩] }

/-- The state after a release at a tick. -/
def release (state : TrackState) (tick channel key : Nat) : TrackState :=
  let (ended, kept) := (state.startedAt (channel, key)).partition fun note => note.1 ≠ tick
  let notes := ended.map fun note => ⟨key, note.2, note.1, tick⟩
  let state := if notes.isEmpty then state else state.addNotes channel notes
  state.setStarted (channel, key) (if notes.isEmpty then [] else kept)

/-- The state after an event. -/
def step (state : TrackState) : Nat × Event → TrackState
  | (tick, .noteOn channel key velocity) =>
      if velocity = 0 then state.release tick channel key
      else
        state.setStarted (channel, key) (state.startedAt (channel, key) ++ [(tick, velocity)])
  | (tick, .noteOff channel key) => state.release tick channel key
  | (_, .program channel number) =>
      { state with programs := (channel, number) :: state.programs }
  | (_, .trackName name) => { state with name }
  | _ => state

end TrackState

/-- The parts of a track. -/
def trackParts (track : List TrackEvent) : List (Part Nat) :=
  ((absolute track).foldl TrackState.step .start).parts.map ChannelPart.part

/-! ## The song of a file -/

/-- The number of ticks from which on a file is taken for damaged. -/
def maxTicks : Nat := 10000000

/-- The number of ticks that some tracks last, the last event included; none if there is no
track or a track without events. -/
def ticks? (tracks : List (List TrackEvent)) : Option Nat := do
  let lasts ← tracks.mapM fun track => (absolute track).getLast?.map Prod.fst
  let longest ← lasts.max?
  return longest + 1

/-- The defect of a signature at a tick: it has no beats or a negative time. -/
def signatureDefect? (spans : List TempoSpan) : Nat × Event → Option Defect
  | (_, .timeSignature 0) => some .zeroNumerator
  | (tick, .timeSignature _) | (tick, .keySignature) =>
      let seconds := secondsOfTick spans tick
      if seconds.isBelow .zero then some (.signatureBeforeStart seconds) else none
  | _ => none

/-- The texts of a track with their ticks. -/
def trackTexts (track : List TrackEvent) : List (Nat × Text) :=
  (absolute track).filterMap fun
    | (tick, .text content) => some (tick, content)
    | _ => none

/-- The texts of all tracks. Next is always the earliest of the texts that are next in their
tracks, at one time that of the first track. Where time runs backwards, a later tick is an
earlier time. -/
def textsInOrder (backwards : Bool) (tracks : List (List TrackEvent)) : List Text :=
  let precedes (first second : Nat × Text) : Bool :=
    if backwards then second.1 ≤ first.1 else first.1 ≤ second.1
  (tracks.foldr (fun track others => (trackTexts track).merge others precedes) []).map Prod.snd

/-- The song that a file holds. -/
def File.song (file : File) : Except Defect (Song Nat) := do
  match ticks? file.tracks with
  | none => throw .noEvents
  | some ticks => if maxTicks < ticks then throw (.tooLong ticks)
  let first := absolute (file.tracks.headD [])
  let spans ← tempoSpans file.division first
  match first.findSome? (signatureDefect? spans) with
  | some defect => throw defect
  | none => pure ()
  let parts := file.tracks.flatMap trackParts
  if file.division < 0 ∧ !parts.isEmpty then throw .endsBeforeStart
  return ⟨parts, textsInOrder (file.division < 0) file.tracks⟩

/-! ## The recording of a file -/

/-- The keyboard message of an event. -/
def keyMessage : Event → KeyMessage
  | .noteOn _ key velocity => .noteOn key velocity
  | _ => .other

/-- The messages of a recording, in the order of time. -/
def File.messages (file : File) : List KeyMessage :=
  (merged file.tracks).map fun item => keyMessage item.2

end Clavier.Midi
