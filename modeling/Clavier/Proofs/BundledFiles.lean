import Clavier.Midi.Bundled
import Clavier.Proofs.StandardExports

/-!
# Files of the bundled library

The bundled library can be depended on at the standard tempo (`dependable_bundled`): it writes every
song that can be written.

Two things have to be counted for this. Where a tick is not too short, the ticks of moderate times are
far below the last one that can be written (`exists_tickOf`). And beside its data no event takes more
than `eventOverhead` bytes (`length_eventsBytes_le`), so that four bytes can say the size of the track
of a short part (`exists_partTrack`), and of the track with the texts (`exists_leadTrack`).
-/

set_option autoImplicit false

namespace Clavier

namespace Midi

/-! ## Ticks -/

/-- A tick that at least every 512th part of a second has one of, and that a tempo can be written
for. -/
structure FineTick (tick : Binary64) : Prop where
  several : ∃ units, tick = .finite false units ∧ units ≠ 0 ∧ Binary64.unitsOfOne ≤ 512 * units
  tempo : ∃ tempo, tempoValue tick = .ok tempo

/-- Both key changes of a note can be written. -/
def Writes (tick : Binary64) (note : TimedNote Binary64) : Prop :=
  ∃ first last, keyChanges tick note = .ok [first, last] ∧ first.tick < tickLimit ∧
    last.tick < tickLimit

theorem ticks_lt_tickLimit : 2 * (latestSecond * 512) + 2 < tickLimit := by decide +kernel

theorem tickLimit_lt_boundLimit : tickLimit < Binary64.boundLimit := by decide +kernel

section Ticks

variable {tick : Binary64} (fine : FineTick tick)
include fine

/-- A time of moderate size has a tick that can be written. -/
theorem exists_tickOf {time : Binary64} (early : time.AtMost latestSecond) :
    ∃ n, tickOf tick time = .ok n ∧ n < tickLimit := by
  obtain ⟨units, rfl, nonzero, several⟩ := fine.several
  have countable := ticks_lt_tickLimit
  have moderate := Nat.lt_trans countable tickLimit_lt_boundLimit
  obtain ⟨ticks, quotient, size⟩ := early.exists_div nonzero several (Nat.lt_of_succ_lt moderate)
  obtain ⟨n, nearest, le⟩ := size.exists_round
  have positive : ¬((n : Int) < 0) := by omega
  unfold tickOf
  split
  · exact ⟨0, rfl, powerOfTwo_pos 63⟩
  · refine ⟨n, ?_, Nat.lt_of_le_of_lt le countable⟩
    rw [quotient]
    simp only [bind, Except.bind, nearest, if_neg positive]
    rfl

theorem writes_of_writable {note : TimedNote Binary64} (writable : WritableNote note) :
    Writes tick note := by
  obtain ⟨first, firstFound, firstBelow⟩ := exists_tickOf fine writable.start
  obtain ⟨last, lastFound, lastBelow⟩ := exists_tickOf fine writable.finish
  have fits : ∀ n : Int, 0 ≤ n ∧ n ≤ 127 → fitting 127 n = .ok n.toNat :=
    fun n inside => if_pos inside
  refine ⟨⟨first, note.key.toNat, note.velocity.toNat⟩, ⟨last, note.key.toNat, 0⟩, ?_, firstBelow,
    lastBelow⟩
  simp only [keyChanges, fits _ writable.key, fits _ writable.velocity, firstFound, lastFound, bind,
    Except.bind]
  rfl

end Ticks

/-- The key changes of some notes: two for each note. -/
theorem exists_mapM_keyChanges {tick : Binary64} {notes : List (TimedNote Binary64)}
    (each : ∀ note ∈ notes, Writes tick note) :
    ∃ changes, notes.mapM (keyChanges tick) = .ok changes ∧
      changes.flatten.length = 2 * notes.length ∧
      ∀ change ∈ changes.flatten, change.tick < tickLimit := by
  induction notes with
  | nil => exact ⟨[], rfl, rfl, List.forall_mem_nil _⟩
  | cons note rest ih =>
      obtain ⟨first, last, hereFound, firstBelow, lastBelow⟩ := each note List.mem_cons_self
      obtain ⟨later, laterFound, length, laterBelow⟩ := ih fun other member =>
        each other (List.mem_cons_of_mem note member)
      refine ⟨[first, last] :: later, ?_, ?_, ?_⟩
      · rw [List.mapM_cons, hereFound, laterFound]
        rfl
      · rw [List.flatten_cons, List.length_append, length, List.length_cons, List.length_cons,
          List.length_nil, List.length_cons]
        omega
      · rw [List.flatten_cons]
        exact List.forall_mem_append.mpr
          ⟨List.forall_mem_cons.mpr ⟨firstBelow, List.forall_mem_singleton.mpr lastBelow⟩, laterBelow⟩

/-! ## Bytes of events -/

/-- The data of a message. -/
def Message.data : Message → Bytes
  | .metaEvent _ data | .exclusive data | .short _ data => data

/-- Quantities below this are written in ten bytes. -/
def quantityLimit : Nat := Nat.pow 128 10

/-- The most bytes that an event takes beside its data: its time, its status, its kind and the length
of its data. -/
def eventOverhead : Nat := 22

/-- The most bytes that some events take. -/
def eventsSize : List (Nat × Message) → Nat
  | [] => 0
  | (_, message) :: rest => eventOverhead + message.data.length + eventsSize rest

/-- Numbers with few groups are written in few bytes. -/
theorem length_quantityBefore_le {groups n : Nat} (below : n < Nat.pow 128 groups) (lower : Bytes) :
    (quantityBefore n lower).length ≤ groups + lower.length := by
  induction groups generalizing n lower with
  | zero =>
      obtain rfl : n = 0 := Nat.lt_one_iff.mp below
      rw [quantityBefore, if_pos rfl]
      exact Nat.le_add_left _ _
  | succ groups ih =>
      rw [quantityBefore]
      split
      · exact Nat.le_add_left _ _
      · have fewer : n / 128 < Nat.pow 128 groups :=
          (Nat.div_lt_iff_lt_mul (by decide)).mpr below
        have length := ih fewer (.ofNat (128 + n % 128) :: lower)
        rw [List.length_cons] at length
        omega

theorem length_quantity_le {n : Nat} (below : n < quantityLimit) : (quantity n).length ≤ 10 :=
  length_quantityBefore_le ((Nat.div_lt_iff_lt_mul (by decide)).mpr below : n / 128 < Nat.pow 128 9) _

theorem length_messageBytes_le (running : Option UInt8) {message : Message}
    (short : message.data.length + 1 < quantityLimit) :
    (messageBytes running message).1.length ≤ 12 + message.data.length := by
  have size := length_quantity_le short
  have size' := length_quantity_le (Nat.lt_of_succ_lt short)
  cases message with
  | metaEvent kind data =>
      simp only [messageBytes, Message.data, List.length_cons, List.length_append] at size' ⊢
      omega
  | exclusive data =>
      simp only [messageBytes, Message.data, List.length_cons, List.length_append,
        List.length_nil] at size ⊢
      omega
  | short status data =>
      simp only [messageBytes, Message.data]
      split
      · exact Nat.le_add_left _ _
      · rw [List.length_cons]
        omega

/-- **Few bytes.** Beside its data an event takes no more bytes than `eventOverhead`. -/
theorem length_eventsBytes_le {events : List (Nat × Message)}
    (each : ∀ event ∈ events, event.1 < quantityLimit ∧
      event.2.data.length + 1 < quantityLimit) (now : Nat) (running : Option UInt8) :
    (eventsBytes now running events).length ≤ eventsSize events := by
  induction events generalizing now running with
  | nil => exact Nat.le_refl 0
  | cons event rest ih =>
      obtain ⟨tick, message⟩ := event
      obtain ⟨early, short⟩ := each _ List.mem_cons_self
      have time := length_quantity_le (Nat.lt_of_le_of_lt (Nat.sub_le tick now) early)
      have content : (messageBytes running message).1.length ≤ 12 + message.data.length :=
        length_messageBytes_le running short
      have later := ih (fun other member => each other (List.mem_cons_of_mem _ member)) tick
        (messageBytes running message).2
      dsimp only at early short
      simp only [eventsBytes, eventsSize, List.length_append]
      rw [eventOverhead]
      omega

theorem eventsSize_append (first second : List (Nat × Message)) :
    eventsSize (first ++ second) = eventsSize first + eventsSize second := by
  induction first with
  | nil => exact (Nat.zero_add _).symm
  | cons event rest ih =>
      obtain ⟨tick, message⟩ := event
      rw [List.cons_append, eventsSize, ih, eventsSize]
      exact (Nat.add_assoc _ _ _).symm

/-- Events with little data take few bytes. -/
theorem eventsSize_le {events : List (Nat × Message)} {size : Nat}
    (each : ∀ event ∈ events, event.2.data.length ≤ size) :
    eventsSize events ≤ events.length * (eventOverhead + size) := by
  induction events with
  | nil => exact Nat.zero_le _
  | cons event rest ih =>
      obtain ⟨tick, message⟩ := event
      have here := each _ List.mem_cons_self
      have later := ih fun other member => each other (List.mem_cons_of_mem _ member)
      dsimp only at here
      rw [eventsSize, List.length_cons, Nat.succ_mul]
      omega

/-! ## Tracks -/

theorem tickLimit_lt_quantityLimit : tickLimit < quantityLimit := by decide +kernel

theorem shortLength_lt_quantityLimit : shortLength < quantityLimit := by decide +kernel

/-- A track ends one tick after a tick that can be written. -/
theorem le_tickLimit_of_mem_ended {messages : List (Nat × Message)}
    (each : ∀ message ∈ messages, message.1 < tickLimit) :
    ∀ event ∈ ended messages, event.1 ≤ tickLimit := by
  refine List.forall_mem_append.mpr ⟨fun event member => Nat.le_of_lt (each event member),
    List.forall_mem_singleton.mpr ?_⟩
  cases last : messages.getLast? with
  | none => exact powerOfTwo_pos 63
  | some message => exact each message (List.mem_of_getLast? last)

/-- Messages have a track if they take few bytes. -/
theorem exists_trackBytes {messages : List (Nat × Message)}
    (ticks : ∀ message ∈ messages, message.1 < tickLimit)
    (short : ∀ message ∈ messages, message.2.data.length < shortLength)
    (few : eventsSize messages + eventOverhead < chunkLimit) :
    ∃ bytes, trackBytes messages = .ok bytes := by
  have each : ∀ event ∈ ended messages, event.1 < quantityLimit ∧
      event.2.data.length + 1 < quantityLimit := by
    intro event member
    have early := le_tickLimit_of_mem_ended ticks event member
    have data : event.2.data.length < shortLength := by
      rcases List.mem_append.mp member with message | last
      · exact short event message
      · rw [List.mem_singleton.mp last]
        exact powerOfTwo_pos 26
    exact ⟨Nat.lt_of_le_of_lt early tickLimit_lt_quantityLimit,
      Nat.lt_of_le_of_lt data shortLength_lt_quantityLimit⟩
  have size := length_eventsBytes_le each 0 none
  rw [ended, eventsSize_append] at size
  exact ⟨_, if_pos (Nat.lt_of_le_of_lt size few)⟩

theorem exists_textBytes {text : Text} (writable : WritableText text) :
    ∃ bytes, textBytes text = .ok bytes ∧ bytes.length < shortLength := by
  have found := bytesOfChars?_eq_some_iff.mpr ⟨writable.small, rfl⟩
  refine ⟨bytesOf text, ?_, ?_⟩
  · rw [textBytes, found]
  · rw [bytesOf, List.length_map]
    exact writable.short

section Parts

variable {channel program : Nat} {name : Bytes} {changes : List KeyChange}

theorem ticks_partMessages (below : ∀ change ∈ changes, change.tick < tickLimit) :
    ∀ message ∈ partMessages channel program name changes, message.1 < tickLimit :=
  List.forall_mem_cons.mpr ⟨powerOfTwo_pos 63, List.forall_mem_cons.mpr
    ⟨powerOfTwo_pos 63, List.forall_mem_map.mpr below⟩⟩

theorem short_partMessages (short : name.length < shortLength) :
    ∀ message ∈ partMessages channel program name changes,
      message.2.data.length < shortLength := by
  have two : 2 < shortLength := by decide
  exact List.forall_mem_cons.mpr ⟨short, List.forall_mem_cons.mpr
    ⟨Nat.lt_of_succ_lt two, List.forall_mem_map.mpr fun _ _ => two⟩⟩

theorem eventsSize_partMessages :
    eventsSize (partMessages channel program name changes) ≤
      2 * eventOverhead + name.length + 1 + changes.length * (eventOverhead + 2) := by
  have keys := @eventsSize_le (changes.map fun change => (change.tick,
    Message.short (.ofNat (0x90 + channel)) [.ofNat change.key, .ofNat change.velocity])) 2
    (List.forall_mem_map.mpr fun _ _ => Nat.le_refl 2)
  rw [List.length_map] at keys
  rw [partMessages, eventsSize, eventsSize]
  simp only [Message.data, List.length_cons, List.length_nil]
  omega

end Parts

/-- A part that can be written has its track. -/
theorem exists_partTrack {tick : Binary64} (fine : FineTick tick) {part : Part Binary64}
    (writable : WritablePart part) (channel : Nat) :
    ∃ bytes, partTrack tick channel part = .ok bytes := by
  obtain ⟨changes, found, length, below⟩ := exists_mapM_keyChanges fun note member =>
    writes_of_writable fine (writable.notes note member)
  obtain ⟨name, nameFound, nameShort⟩ := exists_textBytes writable.name
  have fits : fitting 127 part.program = .ok part.program.toNat := if_pos writable.program
  have early : ∀ change ∈ changes.flatten.mergeSort KeyChange.precedes,
      change.tick < tickLimit := fun change member => below change (List.mem_mergeSort.mp member)
  have inTime : (changes.flatten.mergeSort KeyChange.precedes).any
      (fun change => decide (tickLimit ≤ change.tick)) = false := by
    simpa only [List.any_eq_false, decide_eq_true_eq, Nat.not_le] using early
  have few : eventsSize (partMessages channel part.program.toNat name
      (changes.flatten.mergeSort KeyChange.precedes)) + eventOverhead < chunkLimit := by
    have size := @eventsSize_partMessages channel part.program.toNat name
      (changes.flatten.mergeSort KeyChange.precedes)
    have short := writable.short
    rw [List.length_mergeSort, length] at size
    change _ < 67108864 at nameShort short
    change _ < 4294967296
    rw [eventOverhead] at size ⊢
    omega
  simp only [partTrack, fits, found, nameFound, bind, Except.bind, inTime, Bool.false_eq_true,
    if_false]
  exact exists_trackBytes (ticks_partMessages early) (short_partMessages nameShort) few

theorem exists_partTracks {tick : Binary64} (fine : FineTick tick) {parts : List (Part Binary64)}
    (each : ∀ part ∈ parts, WritablePart part) (channel : Nat) :
    ∃ tracks, partTracks tick channel parts = .ok tracks ∧ tracks.length = parts.length := by
  induction parts generalizing channel with
  | nil => exact ⟨[], rfl, rfl⟩
  | cons part rest ih =>
      obtain ⟨here, hereFound⟩ := exists_partTrack fine (each part List.mem_cons_self) channel
      obtain ⟨later, laterFound, length⟩ := ih (fun other member => each other
        (List.mem_cons_of_mem part member)) (channel + 1)
      refine ⟨here :: later, ?_, congrArg Nat.succ length⟩
      rw [partTracks, hereFound, laterFound]
      rfl

theorem exists_mapM_textBytes {texts : List Text} (each : ∀ text ∈ texts, WritableText text) :
    ∃ contents, texts.mapM textBytes = .ok contents ∧ contents.length = texts.length ∧
      ∀ content ∈ contents, content.length < shortLength := by
  induction texts with
  | nil => exact ⟨[], rfl, rfl, List.forall_mem_nil _⟩
  | cons text rest ih =>
      obtain ⟨here, hereFound, hereShort⟩ := exists_textBytes (each text List.mem_cons_self)
      obtain ⟨later, laterFound, length, laterShort⟩ := ih fun other member =>
        each other (List.mem_cons_of_mem text member)
      refine ⟨here :: later, ?_, ?_, List.forall_mem_cons.mpr ⟨hereShort, laterShort⟩⟩
      · rw [List.mapM_cons, hereFound, laterFound]
        rfl
      · rw [List.length_cons, length, List.length_cons]

/-- Two texts that can be written have their track. -/
theorem exists_leadTrack (tempo : Nat) {texts : List Text} (pair : texts.length ≤ 2)
    (each : ∀ text ∈ texts, WritableText text) : ∃ bytes, leadTrack tempo texts = .ok bytes := by
  obtain ⟨contents, found, length, short⟩ := exists_mapM_textBytes each
  have ticks : ∀ message ∈ leadMessages tempo contents, message.1 < tickLimit :=
    List.forall_mem_cons.mpr ⟨powerOfTwo_pos 63, List.forall_mem_cons.mpr
      ⟨powerOfTwo_pos 63, List.forall_mem_map.mpr fun _ _ => powerOfTwo_pos 63⟩⟩
  have four : 4 < shortLength := by decide
  have datas : ∀ message ∈ leadMessages tempo contents, message.2.data.length < shortLength :=
    List.forall_mem_cons.mpr ⟨Nat.lt_of_succ_lt four, List.forall_mem_cons.mpr
      ⟨four, List.forall_mem_map.mpr short⟩⟩
  have few : eventsSize (leadMessages tempo contents) + eventOverhead < chunkLimit := by
    have size := eventsSize_le fun message member => Nat.le_of_lt (datas message member)
    have count : (leadMessages tempo contents).length ≤ 4 := by
      rw [leadMessages, List.length_cons, List.length_cons, List.length_map]
      omega
    refine Nat.lt_of_le_of_lt (Nat.add_le_add_right
      (Nat.le_trans size (Nat.mul_le_mul_right _ count)) _) ?_
    decide
  simp only [leadTrack, found, bind, Except.bind]
  exact exists_trackBytes ticks datas few

/-- **Files.** A song that can be written has its file, at a tempo with fine ticks. -/
theorem exists_fileBytes {tempo : Amount} {tick : Binary64} (found : secondsPerTick tempo = .ok tick)
    (fine : FineTick tick) {song : Song Binary64} (writable : Writable song) :
    ∃ bytes, fileBytes tempo song = .ok bytes := by
  obtain ⟨microseconds, tempoFound⟩ := fine.tempo
  obtain ⟨lead, leadFound⟩ := exists_leadTrack microseconds writable.few_texts writable.texts
  obtain ⟨tracks, tracksFound, length⟩ := exists_partTracks fine writable.parts 0
  have few := writable.few_parts
  have count : fitting 0x7fff (1 + tracks.length) = .ok (1 + tracks.length) :=
    if_pos (by omega)
  simp only [fileBytes, found, tempoFound, leadFound, tracksFound, count, bind, Except.bind]
  exact ⟨_, rfl⟩

/-! ## The standard tempo -/

/-- A tick of a standard export, in units: a minute over 120 times the ticks of a quarter note. -/
def standardTick : Nat :=
  roundSignificant (60 * Binary64.unitsOfOne * Binary64.unitsOfOne) (26400 * Binary64.unitsOfOne)

theorem secondsPerTick_standard :
    secondsPerTick ExportSettings.standard.tempo = .ok (.finite false standardTick) :=
  toOption_eq_some_iff.mp (by decide +kernel)

theorem fineTick_standard : FineTick (.finite false standardTick) where
  several := ⟨standardTick, rfl, by decide +kernel, by decide +kernel⟩
  tempo := ⟨500000, toOption_eq_some_iff.mp (by decide +kernel)⟩

end Midi

/-- **The bundled library** can be depended on at the standard tempo. -/
theorem dependable_bundled : MidiLibrary.Dependable ExportSettings.standard.tempo where
  begins := ExportSettings.taken_standard.begins
  makes _ forward := if_neg forward
  writes _ := Midi.exists_fileBytes Midi.secondsPerTick_standard Midi.fineTick_standard

end Clavier
