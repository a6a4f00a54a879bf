import Clavier.Proofs.ForgedMarkers
import Clavier.Proofs.InlinedVoices

/-!
# Spellings that stand alone

Two readers know what a spelling is. One resolves a spelling to a note, and looks for accidentals
anywhere in it; the other scans a voice for note words, and takes an accidental only after a
letter. On a pitch with an optional fingering they agree: a voice that is nothing but this
spelling has one note, the one that the spelling resolves to (`parseVoice_word`).

They part at the short flats, `es` for `ees` and `as` for `aas`. A short flat resolves to the
note of the flat that it abbreviates (`ShortFlat.resolveSpelling_text`), but to the scan it is
a letter in front of another one, hence a part of a larger word, and the voice has no notes
(`ShortFlat.parseVoice_text`).
-/

set_option autoImplicit false

namespace Clavier

/-! ## Voices without commands -/

/-- The expansion of a body without commands moves its notes. -/
theorem expand_of_no_command (table : Variables) (budget : Nat) (interval : Int) {body : Text}
    (noCommand : '\\' ∉ body) (unforged : Unforged body) :
    expand table (budget + 1) interval body = .ok (moveNotes interval body) := by
  have rounds := @expandRounds_stable table interval _
    (settled_of_no_command table noCommand []) (budget + 1)
  rw [expand, if_neg (Nat.succ_ne_zero budget), rounds]
  exact finish_stretch unforged

/-- A text without a voice header is resolved from the notes of its expansion. -/
theorem parseVoice_of_no_header {table : Variables} {text expanded : Text}
    (noHeader : Text.firstItem? relativeAt text = none)
    (expands : expand table defaultBudget 0 text = .ok expanded) :
    Score.parseVoice table text =
      .ok (resolveWords middleOctave none (scanVoice expanded)) := by
  rw [Score.parseVoice, noHeader]
  simp only [resolveVoice, expands]
  rfl

/-- A voice that is written as a text without header is resolved from the notes that the text
plays. -/
theorem Plays.parseVoice_eq {text : Text} {notes : List (WrittenNote × Int)}
    (plays : Plays text notes) (table : Variables) :
    Score.parseVoice table text =
      .ok (resolveWords middleOctave none (notes.map fun note => (note.1.move note.2).word)) := by
  have noCommand : '\\' ∉ text := plays.not_mem separatesNotes_backslash (by decide)
  have unforged : Unforged text :=
    unforged_of_not_mem (plays.not_mem separatesNotes_markerEdge (by decide))
  have expanded : expand table defaultBudget 0 text = .ok text :=
    expand_of_no_command table 49 0 noCommand unforged
  have noHeader := firstItem?_relativeAt_of_not_mem RelativeHeader.backslash_mem_text noCommand
  rw [parseVoice_of_no_header noHeader expanded, plays.scanVoice_eq]

/-! ## Pitches with a fingering -/

/-- A written note without its duration. -/
def WrittenNote.withoutDuration (note : WrittenNote) : WrittenNote :=
  ⟨note.pitch, match note.ending with
    | .duration _ => .bare
    | ending => ending⟩

/-- A note without its duration has the same word. -/
theorem WrittenNote.withoutDuration_word (note : WrittenNote) :
    note.withoutDuration.word = note.word := by
  obtain ⟨pitch, ending⟩ := note
  cases ending <;> rfl

/-- A note without its duration is written like its word. -/
theorem WrittenNote.withoutDuration_text (note : WrittenNote) :
    note.withoutDuration.text = note.word.text := by
  rw [text_eq, withoutDuration_word]
  obtain ⟨pitch, ending⟩ := note
  cases ending <;> exact List.append_nil _

theorem plays_word (note : WrittenNote) : Plays note.word.text [(note.withoutDuration, 0)] := by
  have plays := Plays.note note.withoutDuration 0
  rwa [WrittenNote.move_zero, note.withoutDuration_text] at plays

/-- **One note.** A voice that is a pitch with an optional fingering has one note. -/
theorem parseVoice_word (table : Variables) (note : WrittenNote) :
    Score.parseVoice table note.word.text =
      .ok [⟨octaveStart middleOctave + note.pitch.height, note.pitch.name,
        some note.word.text⟩] := by
  rw [(plays_word note).parseVoice_eq, List.map_cons, List.map_nil, WrittenNote.move_zero,
    note.withoutDuration_word, resolveWords, NoteWord.resolve_word]
  rfl

/-! ## Where no note begins -/

/-- A letter before an `s` is part of a larger word. -/
theorem noteAt_before_s (before : Option Char) (letter : Char) (more : Text) :
    noteAt before (letter :: 's' :: more) = none := by
  cases note : isNoteLetter letter with
  | false => exact noteAt_of_not_letter note before _
  | true =>
      have taken : takePitch? (letter :: 's' :: more) =
          some (⟨[letter], [], [], []⟩, 's' :: more) := by
        simp only [takePitch?, note, if_true]
        rfl
      unfold noteAt
      rw [taken]
      split <;> rfl

/-! ## Short flats -/

/-- A flat whose accidental begins with its letter, so that the letter can be left out. -/
structure ShortFlat extends WrittenNote where
  flat : pitch.accidental ∈ flatSuffixes
  doubled : pitch.accidental.head? = some pitch.letter

namespace ShortFlat

variable (short : ShortFlat)

/-- The spelling without the letter. -/
def text : Text :=
  short.pitch.accidental ++ short.pitch.octaves ++ short.ending.fingeringText

/-- The short flats are those of E and A. -/
theorem letter_cases :
    (short.pitch.letter = 'e' ∧ short.pitch.accidental = ['e', 's']) ∨
      (short.pitch.letter = 'a' ∧ short.pitch.accidental = ['a', 's']) := by
  have flat := short.flat
  have doubled := short.doubled
  simp only [flatSuffixes, List.mem_cons, List.not_mem_nil, or_false] at flat
  rcases flat with known | known <;> rw [known] at doubled
  · exact .inl ⟨(Option.some.inj doubled).symm, known⟩
  · exact .inr ⟨(Option.some.inj doubled).symm, known⟩

theorem word_text : short.word.text = short.pitch.letter :: short.text := by
  rw [WrittenNote.word_text, text, Pitch.text, List.cons_append]

/-- The suffixes of a short flat are those of the flat that it abbreviates. -/
theorem occursIn_tail : ∀ part ∈ sharpSuffix :: flatSuffixes,
    Text.occursIn part (short.pitch.accidental ++ short.pitch.octaves) =
      Text.occursIn part short.pitch.text := by
  intro part member
  have letters : part ≠ [] ∧ part.all (!isOctaveMark ·) = true := by
    revert part
    decide
  have absent : ∀ c ∈ part, c ∉ short.pitch.octaves := by
    intro c inside marks
    have noMark := List.all_eq_true.mp letters.2 c inside
    rw [short.pitch.octaves_marks c marks] at noMark
    cases noMark
  rw [short.pitch.occursIn_text letters.1 letters.2, Text.occursIn_append letters.1 absent]
  clear absent letters
  rcases short.letter_cases with ⟨letter, accidental⟩ | ⟨letter, accidental⟩ <;>
    rw [letter, accidental] <;> revert part <;> decide

/-- **A short flat resolves** like the flat that it abbreviates. -/
theorem resolveSpelling_text (octave : Int) (previous : Option Int) :
    resolveSpelling short.text octave previous =
      resolveSpelling short.word.text octave previous := by
  have bare : withoutFingerings short.text = short.pitch.accidental ++ short.pitch.octaves := by
    have part : ∀ c ∈ short.pitch.accidental ++ short.pitch.octaves, c ∈ short.pitch.text :=
      fun c member => List.mem_cons_of_mem _ member
    have noHyphen : '-' ∉ short.pitch.accidental ++ short.pitch.octaves := fun member =>
      short.pitch.ne_of_mem_text (part _ member) rfl (by decide) rfl rfl
    exact withoutFingerings_append noHyphen
      (fun c member => short.pitch.isBlank_of_mem (part c member)) short.ending
  have first : (short.pitch.accidental ++ short.pitch.octaves).head? = short.pitch.text.head? := by
    rw [List.head?_append, short.doubled]
    rfl
  have shift : octaveShift (short.pitch.accidental ++ short.pitch.octaves) =
      octaveShift short.pitch.text := by
    rcases short.letter_cases with ⟨letter, accidental⟩ | ⟨letter, accidental⟩ <;>
      rw [Pitch.text, letter, accidental] <;> rfl
  have sharp := short.occursIn_tail sharpSuffix List.mem_cons_self
  have flat : flatSuffixes.any
      (Text.occursIn · (short.pitch.accidental ++ short.pitch.octaves)) =
      flatSuffixes.any (Text.occursIn · short.pitch.text) := by
    simp only [flatSuffixes, List.any_cons, List.any_nil]
    rw [short.occursIn_tail _ (by decide), short.occursIn_tail _ (by decide)]
  simp only [resolveSpelling, resolveBare, bare, withoutFingerings_word, first, shift, sharp, flat]

/-- A short flat is a letter and an `s`, and no letter of a note stands after them. -/
theorem exists_text_eq : ∃ letter rest, short.text = letter :: 's' :: rest ∧
    ∀ c ∈ 's' :: rest, isNoteLetter c = false := by
  have later : ∀ c ∈ 's' :: (short.pitch.octaves ++ short.ending.fingeringText),
      isNoteLetter c = false := by
    intro c member
    rcases List.mem_cons.mp member with rfl | member
    · rfl
    · rcases List.mem_append.mp member with mark | fingering
      · have octave := short.pitch.octaves_marks c mark
        simp only [isOctaveMark, Bool.or_eq_true, decide_eq_true_eq] at octave
        rcases octave with rfl | rfl <;> rfl
      · cases ending : short.ending with
        | bare => rw [ending] at fingering; cases fingering
        | duration digits => rw [ending] at fingering; cases fingering
        | fingering digits =>
            rw [ending] at fingering
            rcases List.mem_cons.mp fingering with rfl | digit
            · rfl
            · exact isNoteLetter_of_isDigit (digits.digits c digit)
  refine ⟨short.pitch.letter, _, ?_, later⟩
  rcases short.letter_cases with ⟨letter, accidental⟩ | ⟨letter, accidental⟩ <;>
    rw [text, letter, accidental, List.append_assoc] <;> rfl

/-- **A short flat is not heard.** The scan takes its first letter for a part of a larger word. -/
theorem plays_text : Plays short.text [] where
  plain := by
    intro c member
    refine .inr (short.separatesNotes_of_mem_word ?_)
    rw [word_text]
    exact List.mem_cons_of_mem _ member
  items := by
    obtain ⟨letter, rest, same, noLetter⟩ := short.exists_text_eq
    have scan : Text.pieces noteAt short.text = short.text.map .plain := by
      rw [same]
      apply Text.pieces_eq_map_plain
      intro before c more suffix
      rcases List.suffix_cons_iff.mp suffix with whole | later
      · rw [whole]
        exact noteAt_before_s before letter rest
      · exact noteAt_of_not_letter (noLetter c (later.mem List.mem_cons_self)) before more
    rw [Text.items, scan, Text.filterMap_item?_stretch]
    rfl

theorem parseVoice_text (table : Variables) : Score.parseVoice table short.text = .ok [] :=
  short.plays_text.parseVoice_eq table

end ShortFlat

/-! ## All spellings -/

/-- What the notation documents as the spelling of a note: a pitch or a short flat, with or without
a fingering. -/
inductive Spelled : Text → Prop where
  | full (note : WrittenNote) : Spelled note.word.text
  | short (flat : ShortFlat) : Spelled flat.text

/-- **Spellings that stand alone.** A pitch with or without a fingering is a voice of one note: the
note that it resolves to in the middle octave. A short flat resolves to a note as well, that of
the flat that it abbreviates, but the voice has no notes. -/
theorem parseVoice_alone (table : Variables) :
    (∀ note : WrittenNote, ∃ found,
        resolveSpelling note.word.text middleOctave none = some found ∧
          Score.parseVoice table note.word.text =
            .ok [{ found with spelling := some note.word.text }]) ∧
      ∀ short : ShortFlat,
        (∃ found, resolveSpelling short.word.text middleOctave none = some found ∧
          resolveSpelling short.text middleOctave none = some found) ∧
        Score.parseVoice table short.text = .ok [] := by
  constructor
  · intro note
    exact ⟨_, resolveSpelling_word note middleOctave none, parseVoice_word table note⟩
  · intro short
    have full := resolveSpelling_word short.toWrittenNote middleOctave none
    exact ⟨⟨_, full, (short.resolveSpelling_text middleOctave none).trans full⟩,
      short.parseVoice_text table⟩

/-- E flat without its letter. -/
def ShortFlat.eFlat : ShortFlat where
  pitch := ⟨'e', ['e', 's'], [], rfl, by decide, List.forall_mem_nil _⟩
  ending := .bare
  flat := by decide
  doubled := rfl

/-- E flat is heard with its letter only. -/
theorem parseVoice_alone_eFlat :
    Score.parseVoice [] "ees".toList = .ok [⟨63, "Eb".toList, some "ees".toList⟩] ∧
      Score.parseVoice [] "es".toList = .ok [] := by
  obtain ⟨full, short⟩ := parseVoice_alone []
  obtain ⟨found, resolved, parsed⟩ := full ShortFlat.eFlat.toWrittenNote
  have same : found = ⟨63, "Eb".toList, none⟩ :=
    Option.some.inj (resolved.symm.trans (by decide +kernel))
  rw [same] at parsed
  exact ⟨parsed, (short .eFlat).2⟩

/-- Not every documented spelling is heard. -/
theorem not_forall_spelled_heard :
    ¬ ∀ text, Spelled text → ∃ found, resolveSpelling text middleOctave none = some found ∧
      Score.parseVoice [] text = .ok [{ found with spelling := some text }] := by
  intro heard
  obtain ⟨found, -, parsed⟩ := heard _ (.short .eFlat)
  rw [ShortFlat.parseVoice_text] at parsed
  cases parsed

end Clavier
