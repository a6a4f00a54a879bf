import Clavier.Proofs.VoiceHeaders
import Clavier.Proofs.VoiceItems

/-!
# Key signatures

A key signature names a key and a mode, as in `\key d \major`. Both of its words with a backslash
are commands without an argument: an argument consists of digits and slashes, and the name of a key
does not. So cleaning takes the two commands away and leaves the key, which is spelled like a note.

A voice with a key signature is therefore the voice with the key as a note in the same place
(`scanVoice_signature`): one note more than is written, and one more note for those behind it to
lie near to.
-/

set_option autoImplicit false

namespace Clavier

/-! ## Voices with commands that are no variables -/

section Resolving

/-- A voice as a text of its own, with or without a header. -/
def voiceText (header : Option RelativeHeader) (body : Text) : Text :=
  header.elim body fun header => header.text ++ (body ++ ['}'])

/-- The key that a voice starts from. -/
def startKey? (header : Option RelativeHeader) : Option Int :=
  header.map fun header => 60 + header.anchor.height

variable {names : List CommandName} {text bare : Text} (stripped : Stripped names text bare)
  {table : Variables} (unknown : ∀ name ∈ names, table.body? name.text = none)
include stripped unknown

/-- **Unknown commands** have no effect on the notes of a voice. -/
theorem Stripped.parseVoice_voiceText (header : Option RelativeHeader) :
    Score.parseVoice table (voiceText header text) =
      .ok (resolveWords ((startKey? header).elim middleOctave octaveOfKey) (startKey? header)
        (scanVoice text)) := by
  have expanded : expand table defaultBudget 0 text = .ok text :=
    stripped.expand_eq unknown 49 0
  have noOpening : '{' ∉ text := stripped.not_mem separatesNotes_opening rfl (by decide)
  have noClosing : '}' ∉ text := stripped.not_mem separatesNotes_closing rfl (by decide)
  cases header with
  | none =>
      exact parseVoice_of_no_header
        (firstItem?_relativeAt_of_not_mem RelativeHeader.opening_mem_text noOpening) expanded
  | some header =>
      have found : relativeAt none (header.text ++ (text ++ ['}'])) =
          some ((header.anchor.text, text ++ ['}']), text ++ ['}']) :=
        relativeAt_eq_some_iff.mpr ⟨header, rfl, rfl, rfl⟩
      have nonempty : header.text ++ (text ++ ['}']) ≠ [] := by simp
      have first := Text.firstItem?_of_found nonempty found
      have block : splitBlock? (text ++ ['}']) = some (text, []) :=
        splitBlock?_of_balanced (balanced_of_no_brace noOpening noClosing) []
      rw [Score.parseVoice, voiceText, Option.elim_some, first]
      simp only [block, Option.map_some, Option.getD_some, resolveVoice_pitch, expanded]
      rfl

end Resolving

/-- A blank in front of a text is not part of a command. -/
theorem Stripped.exists_of_space {names : List CommandName} {text bare : Text}
    (stripped : Stripped names (' ' :: text) bare) : ∃ rest, Stripped names text rest := by
  cases stripped with
  | plain inert later => exact ⟨_, later⟩

/-! ## Items that are left to the last pass -/

section Late

variable {items : List VoiceItem} (late : ∀ item ∈ items, item.left 3 = item.text)
include late

/-- Printed notes and commands without an argument are stripped of the commands. -/
theorem exists_stripped_print :
    ∃ rest, Stripped (items.filterMap VoiceItem.command?) (VoiceItem.print items) rest := by
  cases items with
  | nil => exact ⟨[], .nil⟩
  | cons item rest =>
      -- nothing is gone before the last pass, so three passes leave the text as it is written
      have same : spacedItems 3 (item :: rest) = ' ' :: VoiceItem.print (item :: rest) := by
        rw [VoiceItem.cons_print (List.cons_ne_nil item rest)]
        refine List.flatMap_congr fun other member => ?_
        rw [late other member, VoiceItem.left_zero]
      have stripped := stripped_spacedItems (item :: rest)
      rw [same] at stripped
      exact stripped.exists_of_space

/-- **Notes with unknown commands** are the notes of their voice. -/
theorem parseVoice_print {table : Variables}
    (unknown : ∀ name ∈ items.filterMap VoiceItem.command?, table.body? name.text = none)
    (header : Option RelativeHeader) :
    Score.parseVoice table (voiceText header (VoiceItem.print items)) =
      .ok (resolveWords ((startKey? header).elim middleOctave octaveOfKey) (startKey? header)
        ((VoiceItem.notes items).map WrittenNote.word)) := by
  obtain ⟨rest, stripped⟩ := exists_stripped_print late
  rw [stripped.parseVoice_voiceText unknown, scanVoice_print_eq, scanVoice_spacedItems]

end Late

/-- Every written note becomes a note with its spelling. -/
theorem map_spelling_resolveWords (octave : Int) (previous : Option Int)
    (notes : List WrittenNote) :
    (resolveWords octave previous (notes.map WrittenNote.word)).map Note.spelling =
      notes.map fun note => some note.word.text := by
  induction notes generalizing previous with
  | nil => rfl
  | cons note rest ih =>
      rw [List.map_cons, resolveWords, NoteWord.resolve_word]
      simp only [List.map_cons, ih]

/-! ## Key signatures -/

/-- The command of a key signature. -/
def CommandName.key : CommandName :=
  ⟨"key".toList, by decide, List.all_eq_true.mp (by decide), by decide⟩

/-- The two modes. -/
inductive Mode where
  | major
  | minor

/-- The command of a mode. -/
def Mode.command : Mode → CommandName
  | .major => ⟨"major".toList, by decide, List.all_eq_true.mp (by decide), by decide⟩
  | .minor => ⟨"minor".toList, by decide, List.all_eq_true.mp (by decide), by decide⟩

/-- A key without octave marks, natural, sharp or flat, and a mode. -/
structure KeySignature where
  key : Pitch
  mode : Mode
  unmarked : key.octaves = []
  signed : key.accidental ∈ [[], ['i', 's'], ['e', 's']]

namespace KeySignature

variable (signature : KeySignature)

/-- The key as a note. -/
def note : WrittenNote := ⟨signature.key, .bare⟩

/-- The commands of a key signature. -/
def commands : List CommandName := [.key, signature.mode.command]

/-- A key signature as it is written, between notes in front of it and notes behind it. -/
def items (front back : List WrittenNote) : List VoiceItem :=
  front.map .note ++ [.command .key, .note signature.note, .command signature.mode.command] ++
    back.map .note

end KeySignature

section Lines

variable (notes : List WrittenNote)

theorem notes_map_note : VoiceItem.notes (notes.map .note) = notes := by
  rw [VoiceItem.notes, List.filterMap_map]
  exact List.filterMap_some

theorem command?_map_note : (notes.map VoiceItem.note).filterMap VoiceItem.command? = [] := by
  rw [List.filterMap_map]
  exact List.filterMap_eq_nil_iff.mpr fun _ _ => rfl

theorem late_map_note : ∀ item ∈ notes.map VoiceItem.note, item.left 3 = item.text := by
  intro item member
  obtain ⟨note, -, rfl⟩ := List.mem_map.mp member
  rfl

end Lines

namespace KeySignature

variable (signature : KeySignature) (front back : List WrittenNote)

theorem notes_items :
    VoiceItem.notes (signature.items front back) = front ++ signature.note :: back := by
  have split : VoiceItem.notes (signature.items front back) =
      VoiceItem.notes (front.map .note) ++ [signature.note] ++
        VoiceItem.notes (back.map .note) := by
    rw [items, VoiceItem.notes, List.filterMap_append, List.filterMap_append]
    rfl
  rw [split, notes_map_note, notes_map_note, List.append_assoc, List.singleton_append]

theorem command?_items :
    (signature.items front back).filterMap VoiceItem.command? = signature.commands := by
  rw [items, List.filterMap_append, List.filterMap_append, command?_map_note, command?_map_note,
    List.append_nil]
  rfl

theorem late_items : ∀ item ∈ signature.items front back, item.left 3 = item.text := by
  intro item member
  simp only [items, List.mem_append, List.mem_cons, List.not_mem_nil, or_false] at member
  rcases member with (before | rfl | rfl | rfl) | behind
  · exact late_map_note front item before
  · rfl
  · rfl
  · rfl
  · exact late_map_note back item behind

/-- **Key signatures are heard.** The notes of a line with a key signature, wherever it stands, are
those of the line and, in its place, the key. A voice with the line resolves to the same notes as
the voice with the key as a note in that place. -/
theorem scanVoice_signature {table : Variables}
    (unknown : ∀ name ∈ signature.commands, table.body? name.text = none)
    (header : Option RelativeHeader) :
    scanVoice (VoiceItem.print ((front ++ back).map .note)) =
        (front ++ back).map WrittenNote.word ∧
      scanVoice (VoiceItem.print (signature.items front back)) =
        (front ++ signature.note :: back).map WrittenNote.word ∧
      ∃ notes,
        Score.parseVoice table
            (voiceText header (VoiceItem.print (signature.items front back))) = .ok notes ∧
        Score.parseVoice table (voiceText header
            (VoiceItem.print ((front ++ signature.note :: back).map .note))) = .ok notes ∧
        notes.map Note.spelling =
          (front ++ signature.note :: back).map fun note => some note.word.text := by
  refine ⟨?_, ?_, _, ?_, ?_, map_spelling_resolveWords ((startKey? header).elim middleOctave
    octaveOfKey) (startKey? header) (front ++ signature.note :: back)⟩
  · rw [scanVoice_print_eq, scanVoice_spacedItems, notes_map_note]
  · rw [scanVoice_print_eq, scanVoice_spacedItems, notes_items]
  · rw [parseVoice_print (signature.late_items front back) (by rwa [command?_items]) header,
      notes_items]
  · have noCommand (name : CommandName) : name ∉
        ((front ++ signature.note :: back).map VoiceItem.note).filterMap VoiceItem.command? := by
      rw [command?_map_note]
      exact List.not_mem_nil
    rw [parseVoice_print (late_map_note _) (fun name known => absurd known (noCommand name)) header,
      notes_map_note]

/-- D major. -/
def dMajor : KeySignature where
  key := noteD.pitch
  mode := .major
  unmarked := rfl
  signed := List.mem_cons_self

/-- After a C the key of D major is heard as a D. -/
theorem scanVoice_signature_dMajor :
    VoiceItem.print (dMajor.items [noteC] []) = "c \\key d \\major".toList ∧
      ∃ notes, Score.parseVoice [] "c \\key d \\major".toList = .ok notes ∧
        notes.map Note.spelling = [some ['c'], some ['d']] := by
  have printed : VoiceItem.print (dMajor.items [noteC] []) = "c \\key d \\major".toList := by
    decide
  obtain ⟨-, -, notes, parsed, -, spelled⟩ :=
    dMajor.scanVoice_signature [noteC] [] (fun _ _ => rfl : ∀ name ∈ dMajor.commands,
      Variables.body? [] name.text = none) none
  rw [printed] at parsed
  exact ⟨printed, notes, parsed, spelled⟩

/-- A key signature is not skipped. -/
theorem not_forall_signature_skipped :
    ¬ ∀ (signature : KeySignature) (front back : List WrittenNote),
      scanVoice (VoiceItem.print (signature.items front back)) =
        scanVoice (VoiceItem.print ((front ++ back).map .note)) := by
  intro skipped
  have same := skipped dMajor [noteC] []
  have signed : scanVoice (VoiceItem.print (dMajor.items [noteC] [])) =
      [⟨['c'], [], [], []⟩, ⟨['d'], [], [], []⟩] := by decide +kernel
  have plain : scanVoice (VoiceItem.print (([noteC] ++ []).map .note)) = [⟨['c'], [], [], []⟩] := by
    decide +kernel
  rw [signed, plain] at same
  cases same

end KeySignature

end Clavier
