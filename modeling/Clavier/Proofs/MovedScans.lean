import Clavier.Proofs.LoneSpellings
import Clavier.Proofs.NotePlaces

/-!
# Scanning moved notes

`Moves` derives the moved text from a text place by place: notes are moved, everything else
stays. What stays keeps both notes and places without a note as they were. What follows an ending
is changed at most in letters that begin other notes, so the ending stays one
(`EndsBefore.moves`); a place without a note begins a word that is not changed at all, so it stays
without a note (`Moves.noteAt_eq_none`). Hence a scan of the moved text finds the moved notes and no
others (`Moves.items_moved`), whatever stands between them.

A text without commands, comments and markers is expanded by moving its notes and scanned as it is,
so its voice is the moved voice (`scanVoice_expand_of_plain`).
-/

set_option autoImplicit false

namespace Clavier

/-! ## Texts with moved notes -/

/-- The last character of a note. -/
def WrittenNote.last (note : WrittenNote) : Char :=
  note.text.getLast (List.cons_ne_nil _ _)

/-- A text, the notes found in it from left to right, and the text in which they are moved. The
character before a place is the one of the first text. -/
inductive Moves (interval : Int) : Option Char → Text → List WrittenNote → Text → Prop where
  | nil (before : Option Char) : Moves interval before [] [] []
  | plain {before : Option Char} {c : Char} {rest moved : Text} {notes : List WrittenNote}
      (missing : noteAt before (c :: rest) = none)
      (later : Moves interval (some c) rest notes moved) :
      Moves interval before (c :: rest) notes (c :: moved)
  | note {before : Option Char} (free : before.any Text.isWord = false) (note : WrittenNote)
      {after moved : Text} {notes : List WrittenNote} (ends : EndsBefore note.ending after)
      (later : Moves interval (some note.last) after notes moved) :
      Moves interval before (note.text ++ after) (note :: notes)
        ((note.move interval).text ++ moved)

/-- What a scan yields for a note. -/
def WrittenNote.item (note : WrittenNote) : NoteWord × Text :=
  (note.word, note.ending.durationText)

/-- A note is scanned in front of what its ending can stand before. -/
theorem piecesFrom_noteAt_append {before : Option Char} (free : before.any Text.isWord = false)
    (note : WrittenNote) {after : Text} (ends : EndsBefore note.ending after) :
    Text.piecesFrom noteAt before 0 (note.text ++ after) =
      .item note.item :: Text.piecesFrom noteAt (some note.last) 0 after :=
  Text.piecesFrom_of_item (noteAt_append free note ends)

/-- Every text has its notes moved; the induction is on the length, because a note can be as long
as the text. -/
theorem exists_moves (interval : Int) (before : Option Char) (text : Text) :
    ∃ notes, (Text.piecesFrom noteAt before 0 text).filterMap Text.Piece.item? =
        notes.map WrittenNote.item ∧
      Moves interval before text notes
        (Text.writePieces (fun item => transposeSpelling item.1.text interval ++ item.2)
          (Text.piecesFrom noteAt before 0 text)) := by
  induction length : text.length using Nat.strongRecOn generalizing text before with
  | ind size shorter =>
      subst length
      cases text with
      | nil => exact ⟨[], rfl, .nil before⟩
      | cons c rest =>
          cases found : noteAt before (c :: rest) with
          | none =>
              obtain ⟨notes, items, moves⟩ :=
                shorter _ (Nat.lt_succ_self rest.length) (some c) rest rfl
              rw [Text.piecesFrom_of_none found]
              exact ⟨notes, items, .plain found moves⟩
          | some item =>
              obtain ⟨⟨word, duration⟩, after⟩ := item
              obtain ⟨free, note, same, -, -, ends⟩ := noteAt_eq_some_iff.mp found
              have less : after.length < (c :: rest).length := by
                rw [same, WrittenNote.text, Pitch.text]
                simp only [List.length_append, List.length_cons]
                omega
              obtain ⟨notes, items, moves⟩ := shorter _ less (some note.last) after rfl
              refine ⟨note :: notes, ?_, ?_⟩ <;>
                rw [same, piecesFrom_noteAt_append free note ends]
              · rw [List.map_cons, ← items]
                rfl
              · rw [Text.writePieces_item]
                have written : transposeSpelling note.item.1.text interval ++ note.item.2 =
                    (note.move interval).text := by
                  rw [WrittenNote.text_eq, WrittenNote.ending_move, ← transposeSpelling_word]
                  rfl
                rw [written]
                exact .note free note ends moves

namespace Moves

variable {interval : Int} {before : Option Char} {text moved : Text} {notes : List WrittenNote}

/-- Notes that are moved by nothing stay. -/
theorem eq_of_zero (moves : Moves 0 before text notes moved) : moved = text := by
  induction moves with
  | nil => rfl
  | plain _ _ ih => rw [ih]
  | note _ note _ _ ih => rw [ih, WrittenNote.move_zero]

/-- A test that does not tell the letters of notes apart gives the same at the start of both
texts. -/
theorem stops_iff {test : Char → Bool}
    (alike : ∀ c d, isNoteLetter c = true → isNoteLetter d = true → test c = test d)
    (moves : Moves interval before text notes moved) :
    Text.Stops test moved ↔ Text.Stops test text := by
  cases moves with
  | nil => exact Iff.rfl
  | plain missing later => rw [Text.stops_cons, Text.stops_cons]
  | note free note ends later =>
      have letters := alike _ _ (note.move interval).pitch.letter_note note.pitch.letter_note
      simp only [WrittenNote.text, Pitch.text, List.cons_append, Text.stops_cons, letters]

theorem stops_isWord_iff (moves : Moves interval before text notes moved) :
    Text.Stops Text.isWord moved ↔ Text.Stops Text.isWord text :=
  moves.stops_iff fun _ _ first second =>
    (isWord_of_isNoteLetter first).trans (isWord_of_isNoteLetter second).symm

theorem stops_isOctaveMark_iff (moves : Moves interval before text notes moved) :
    Text.Stops isOctaveMark moved ↔ Text.Stops isOctaveMark text := by
  have noMark : ∀ c, isNoteLetter c = true → isOctaveMark c = false := by
    intro c letter
    cases octave : isOctaveMark c with
    | false => rfl
    | true =>
        rw [isNoteLetter_of_isOctaveMark octave] at letter
        cases letter
  exact moves.stops_iff fun c d first second => (noMark c first).trans (noMark d second).symm

/-- A character that begins no moved note stands in the first text as well. -/
theorem exists_cons {c : Char} {more : Text} (moves : Moves interval before text notes (c :: more))
    (apart : before.any Text.isWord = true ∨ isNoteLetter c = false) :
    ∃ rest, text = c :: rest ∧ Moves interval (some c) rest notes more := by
  generalize whole : c :: more = moved at moves
  cases moves with
  | nil => cases whole
  | plain missing later =>
      cases whole
      exact ⟨_, rfl, later⟩
  | note free note ends later =>
      rw [WrittenNote.text, Pitch.text, List.cons_append, List.cons_append] at whole
      have first := (List.cons.inj whole).1
      rw [free, first, (note.move interval).pitch.letter_note] at apart
      rcases apart with word | letter
      · cases word
      · cases letter

/-- A character that begins no note stays. -/
theorem exists_cons_moved {c : Char} {rest : Text}
    (moves : Moves interval before (c :: rest) notes moved) (noLetter : isNoteLetter c = false) :
    ∃ more, moved = c :: more ∧ Moves interval (some c) rest notes more := by
  generalize whole : c :: rest = text at moves
  cases moves with
  | nil => cases whole
  | plain missing later =>
      cases whole
      exact ⟨_, rfl, later⟩
  | note free note ends later =>
      have first : c = note.pitch.letter := (List.cons.inj whole).1
      rw [first, note.pitch.letter_note] at noLetter
      cases noLetter

/-- **Words that begin no moved note** are words of the first text. -/
theorem exists_word {run rest : Text} (moves : Moves interval before text notes (run ++ rest))
    (apart : before.any Text.isWord = true ∨ Text.Stops isNoteLetter run)
    (word : ∀ c ∈ run, Text.isWord c = true) (stops : Text.Stops Text.isWord rest) :
    ∃ rest', text = run ++ rest' ∧ Text.Stops Text.isWord rest' := by
  induction run generalizing before text with
  | nil => exact ⟨text, rfl, moves.stops_isWord_iff.mp stops⟩
  | cons c more ih =>
      obtain ⟨tail, rfl, later⟩ := moves.exists_cons (apart.imp_right Text.stops_cons.mp)
      have inside : (some c).any Text.isWord = true := word c List.mem_cons_self
      obtain ⟨rest', rfl, stops'⟩ := ih later (.inl inside)
        fun d member => word d (List.mem_cons_of_mem c member)
      exact ⟨rest', rfl, stops'⟩

theorem exists_digits {digits rest : Text}
    (moves : Moves interval before text notes (digits ++ rest))
    (all : ∀ c ∈ digits, Text.isDigit c = true) (stops : Text.Stops Text.isWord rest) :
    ∃ rest', text = digits ++ rest' ∧ Text.Stops Text.isWord rest' :=
  moves.exists_word
    (.inr fun c first => isNoteLetter_of_isDigit (all c (List.mem_of_mem_head? first)))
    (fun c member => Text.isWord_of_isDigit (all c member)) stops

theorem wordEnds (moves : Moves interval before text notes moved) (ends : WordEnds moved) :
    WordEnds text := by
  obtain ⟨digits, rest, all, rfl, stops⟩ := ends
  obtain ⟨rest', rfl, stops'⟩ := moves.exists_digits all stops
  exact ⟨digits, rest', all, rfl, stops'⟩

end Moves

/-- **An ending stays an ending** before a text whose notes are moved. -/
theorem EndsBefore.moves {interval : Int} {before : Option Char} {after moved : Text}
    {notes : List WrittenNote} {ending : NoteEnding} (ends : EndsBefore ending after)
    (moves : Moves interval before after notes moved) : EndsBefore ending moved := by
  cases ends with
  | fingering digits stops => exact .fingering digits (moves.stops_isWord_iff.mpr stops)
  | duration digits stops => exact .duration digits (moves.stops_isWord_iff.mpr stops)
  | bare stops noMark noFingering =>
      refine .bare (moves.stops_isWord_iff.mpr stops) (moves.stops_isOctaveMark_iff.mpr noMark) ?_
      rintro digits rest rfl stops'
      obtain ⟨tail, rfl, later⟩ := moves.exists_cons (.inr rfl)
      obtain ⟨rest', rfl, stops''⟩ := later.exists_digits digits.digits stops'
      exact noFingering digits rest' rfl stops''
  | mark octave noMark larger =>
      obtain ⟨moved, rfl, later⟩ := moves.exists_cons_moved (isNoteLetter_of_isOctaveMark octave)
      exact .mark octave (later.stops_isOctaveMark_iff.mpr noMark)
        fun ends => larger (later.wordEnds ends)

namespace Moves

variable {interval : Int} {before : Option Char} {text moved : Text} {notes : List WrittenNote}

/-- **A place without a note** stays without one when the notes after it are moved. -/
theorem noteAt_eq_none {c : Char} {rest : Text} (missing : noteAt before (c :: rest) = none)
    (moves : Moves interval (some c) rest notes moved) : noteAt before (c :: moved) = none := by
  rw [← Option.not_isSome_iff_eq_none, isSome_noteAt_iff] at missing ⊢
  rintro ⟨free, letter, accidental, tail, same, letter_note, known, digits, rest', all, rfl, stops⟩
  refine missing ⟨free, ?_⟩
  obtain ⟨rfl, rfl⟩ := List.cons.inj same
  rw [← List.append_assoc] at moves
  have inside : (some c).any Text.isWord = true := isWord_of_isNoteLetter letter_note
  have word : ∀ d ∈ accidental ++ digits, Text.isWord d = true := fun d member =>
    (List.mem_append.mp member).elim (isWord_of_mem_accidental known d)
      fun digit => Text.isWord_of_isDigit (all d digit)
  obtain ⟨rest'', rfl, stops'⟩ := moves.exists_word (.inl inside) word stops
  exact ⟨c, accidental, digits ++ rest'', by rw [List.append_assoc], letter_note, known,
    digits, rest'', all, rfl, stops'⟩

/-- **Scanning moved notes** finds the moved notes, in their order, and no others. -/
theorem items_moved (moves : Moves interval before text notes moved) {before' : Option Char}
    (alike : before'.any Text.isWord = before.any Text.isWord ∨ Text.Stops isNoteLetter text) :
    (Text.piecesFrom noteAt before' 0 moved).filterMap Text.Piece.item? =
      notes.map fun note => (note.move interval).item := by
  induction moves generalizing before' with
  | nil => rfl
  | @plain before c rest moved notes missing later ih =>
      have stays : noteAt before' (c :: moved) = none := by
        rcases alike with same | noLetter
        · have here := later.noteAt_eq_none missing
          rw [← Option.not_isSome_iff_eq_none, isSome_noteAt_iff] at here ⊢
          rwa [same]
        · exact noteAt_of_not_letter (Text.stops_cons.mp noLetter) before' moved
      rw [Text.piecesFrom_of_none stays]
      exact ih (.inl rfl)
  | note free note ends later ih =>
      have free' := free
      rcases alike with same | noLetter
      · rw [← same] at free'
        have ends' : EndsBefore (note.move interval).ending _ :=
          (note.ending_move interval).symm ▸ ends.moves later
        rw [piecesFrom_noteAt_append free' _ ends', List.map_cons,
          ← ih (.inr ends.stops_isNoteLetter)]
        rfl
      · have letter := Text.stops_cons.mp noLetter
        rw [note.pitch.letter_note] at letter
        cases letter

end Moves

/-! ## Texts without layout -/

/-- A character that begins a command, a comment or a place marker, or that is an articulation
marker. -/
def isLayout (c : Char) : Bool := c = '\\' || c = '%' || isMarker c || c = markerEdge

theorem isMarker_of_not_isLayout {c : Char} (plain : isLayout c = false) : isMarker c = false := by
  simp only [isLayout, Bool.or_eq_false_iff] at plain
  exact plain.1.2

theorem separatesNotes_of_isLayout {c : Char} (layout : isLayout c = true) :
    separatesNotes c = true := by
  simp only [isLayout, isMarker, Bool.or_eq_true, decide_eq_true_eq] at layout
  rcases layout with ((rfl | rfl) | (rfl | rfl) | rfl) | rfl <;> decide +kernel

section Plain

variable {text : Text} (plain : ∀ c ∈ text, isLayout c = false)
include plain

theorem not_mem_of_isLayout {c : Char} (layout : isLayout c = true) : c ∉ text := by
  intro member
  rw [plain c member] at layout
  cases layout

/-- Moving the notes of a text writes no layout. -/
theorem isLayout_moveNotes (interval : Int) :
    ∀ c ∈ moveNotes interval text, isLayout c = false := by
  intro c member
  cases layout : isLayout c with
  | false => rfl
  | true =>
      exact absurd member (not_mem_moveNotes (separatesNotes_of_isLayout layout) interval
        (not_mem_of_isLayout plain layout))

/-- A text without layout is scanned as it is. -/
theorem scanVoice_of_plain : scanVoice text = (Text.items noteAt text).map Prod.fst := by
  have noMarker : ∀ c ∈ text, isMarker c = false := fun c member =>
    isMarker_of_not_isLayout (plain c member)
  rw [scanVoice,
    cleanVoice_of_not_mem (not_mem_of_isLayout plain rfl) (not_mem_of_isLayout plain rfl) noMarker]

end Plain

/-- A text with its notes moved is derived place by place. -/
theorem moves_moveNotes (interval : Int) (text : Text) :
    ∃ notes, Text.items noteAt text = notes.map WrittenNote.item ∧
      Moves interval none text notes (moveNotes interval text) := by
  obtain ⟨notes, items, moves⟩ := exists_moves interval none text
  refine ⟨notes, items, ?_⟩
  unfold moveNotes
  split
  · rename_i still
    subst still
    rw [moves.eq_of_zero] at moves
    exact moves
  · exact moves

/-- A note word moved by an interval: the note word of its moved spelling. -/
def NoteWord.transpose (word : NoteWord) (interval : Int) : NoteWord :=
  (NoteWord.ofSpelling? (transposeSpelling word.text interval)).getD word

theorem WrittenNote.transpose_word (note : WrittenNote) (interval : Int) :
    note.word.transpose interval = (note.move interval).word := by
  rw [NoteWord.transpose, transposeSpelling_word, ofSpelling?_word]
  rfl

/-- **Moved voices.** The notes of an expanded text without layout are the notes of the text, each
one moved by the interval: as many of them, in the same order, with the same fingerings, each one
higher by the interval. Nothing else that stands in the text becomes a note, and no note is lost. -/
theorem scanVoice_expand_of_plain (table : Variables) (budget : Nat) (interval : Int) {text : Text}
    (plain : ∀ c ∈ text, isLayout c = false) :
    ∃ moved, expand table (budget + 1) interval text = .ok moved ∧
      scanVoice moved = (scanVoice text).map (·.transpose interval) ∧
      ∀ word ∈ scanVoice text,
        NoteWord.ofSpelling? (transposeSpelling word.text interval) =
            some (word.transpose interval) ∧
          (word.transpose interval).fingering = word.fingering ∧
          semitones (word.transpose interval).text = semitones word.text + interval := by
  have noCommand : '\\' ∉ text := not_mem_of_isLayout plain rfl
  have unforged : Unforged text := unforged_of_not_mem (not_mem_of_isLayout plain rfl)
  obtain ⟨notes, items, moves⟩ := moves_moveNotes interval text
  have scan : scanVoice text = notes.map WrittenNote.word := by
    rw [scanVoice_of_plain plain, items, List.map_map]
    rfl
  refine ⟨moveNotes interval text,
    expand_of_no_command table budget interval noCommand unforged, ?_, ?_⟩
  · have moved : Text.items noteAt (moveNotes interval text) =
        notes.map fun note => (note.move interval).item := moves.items_moved (.inl rfl)
    rw [scanVoice_of_plain (isLayout_moveNotes plain interval), moved, scan, List.map_map,
      List.map_map]
    exact List.map_congr_left fun note _ => (note.transpose_word interval).symm
  · intro word member
    rw [scan] at member
    obtain ⟨note, -, rfl⟩ := List.mem_map.mp member
    rw [note.transpose_word, transposeSpelling_word, ofSpelling?_word, semitones_word,
      semitones_word, note.height_move]
    refine ⟨rfl, ?_, rfl⟩
    change (note.move interval).ending.fingeringText = note.ending.fingeringText
    rw [note.ending_move]

/-- Notes in rough surroundings: a fingering that is part of a word, octave marks before a word and
a duration before an accidental. -/
theorem scanVoice_expand_of_plain_rough :
    ∃ moved, expand [] 1 2 "c-3x d,'is e4is f-2-".toList = .ok moved ∧
      scanVoice moved = (scanVoice "c-3x d,'is e4is f-2-".toList).map (·.transpose 2) ∧
      (scanVoice "c-3x d,'is e4is f-2-".toList).length = 3 := by
  have plain : "c-3x d,'is e4is f-2-".toList.any isLayout = false := by decide +kernel
  obtain ⟨moved, expanded, notes, -⟩ := scanVoice_expand_of_plain [] 0 2
    fun c member => Bool.eq_false_iff.mpr (List.any_eq_false.mp plain c member)
  exact ⟨moved, expanded, notes, by decide +kernel⟩

end Clavier
