import Clavier.Proofs.MovedNotes
import Clavier.Score.Document
import Mathlib.Data.List.Chain

/-!
# The notes of a voice

A note word is resolved from its pitch alone. In a pitch an accidental suffix stands nowhere
but in the place of the accidental (`accidental_spec`), so the search for it in the whole
spelling finds what the height of the pitch counts, and the key of a resolved word is the
key of that height in the octave of the voice, folded towards the key before
(`NoteWord.resolve_word`).

Folding moves a key by whole octaves. The key, the name and the spelling of a note
therefore agree on its pitch class (`Note.Agrees`), and each key of a voice lies within the
window around the one before it (`isChain_resolveWords`), the first one within the window around
the anchor.
-/

set_option autoImplicit false

namespace Clavier

/-! ## Suffixes in a whole spelling -/

namespace Text

/-- A word of which no character stands in the back of a text begins the text if it begins its
front. -/
theorem startsWith_append {front back part : Text} (absent : ∀ c ∈ part, c ∉ back) :
    startsWith (front ++ back) part = startsWith front part := by
  rw [Bool.eq_iff_iff, startsWith_iff, startsWith_iff]
  constructor
  · rintro ⟨rest, same⟩
    rcases List.append_eq_append_iff.mp same with ⟨tail, rfl, back'⟩ | ⟨tail, front', -⟩
    · cases tail with
      | nil => exact ⟨[], by simp⟩
      | cons c more =>
          refine absurd ?_ (absent c (List.mem_append_right front List.mem_cons_self))
          rw [back']
          exact List.mem_cons_self
    · exact ⟨tail, front'⟩
  · rintro ⟨rest, rfl⟩
    exact ⟨rest ++ back, List.append_assoc _ _ _⟩

/-- A word of which no character stands in the back of a text occurs in the text if it occurs in
its front. -/
theorem occursIn_append {front back part : Text} (nonempty : part ≠ [])
    (absent : ∀ c ∈ part, c ∉ back) : occursIn part (front ++ back) = occursIn part front := by
  induction front with
  | nil =>
      have empty : occursIn part [] = false := by
        cases part with
        | nil => exact absurd rfl nonempty
        | cons c more => rfl
      have nowhere : ∀ rest, (∀ c ∈ part, c ∉ rest) → occursIn part rest = false := by
        intro rest
        induction rest with
        | nil => exact fun _ => empty
        | cons c more ih =>
            intro absent
            have here := @startsWith_append [] _ _ absent
            rw [List.nil_append] at here
            have never : startsWith [] part = false := by
              cases part with
              | nil => exact absurd rfl nonempty
              | cons c more => rfl
            rw [occursIn, here, never, Bool.false_or]
            exact ih fun d member inside => absent d member (List.mem_cons_of_mem c inside)
      rw [List.nil_append, nowhere back absent, empty]
  | cons c more ih =>
      have here := @startsWith_append (c :: more) _ _ absent
      rw [List.cons_append] at here
      rw [List.cons_append, occursIn, here, ih, occursIn]

end Text

/-! ## Names -/

/-- The semitones that the sign after the letter of a name adds. -/
def signSemitones? (sign : Text) : Option Int :=
  if sign = [] then some 0
  else if sign = ['#'] then some 1
  else if sign = ['b'] then some (-1)
  else none

/-- The pitch class that a name denotes: a capital letter with a sharp, a flat, or nothing. -/
def namedPitchClass? : Text → Option Int
  | [] => none
  | letter :: sign =>
      if letter.isUpper then do
        let natural ← naturalSemitones? letter.toLower
        let alteration ← signSemitones? sign
        return (natural + alteration) % 12
      else none

/-- The name of a pitch: its letter as a capital, and the sign of its accidental. -/
def Pitch.name (pitch : Pitch) : Text :=
  pitch.letter.toUpper ::
    (if pitch.accidental = sharpSuffix then ['#']
      else if pitch.accidental ∈ flatSuffixes then ['b'] else [])

/-- **Accidentals.** A letter with an accidental holds the suffix of a sharp or of a flat only where
the accidental is one, and its name denotes its pitch class. -/
theorem accidental_spec {letter : Char} (note : isNoteLetter letter = true) :
    ∀ accidental ∈ [] :: sharpSuffix :: flatSuffixes,
      Text.occursIn sharpSuffix (letter :: accidental) = decide (accidental = sharpSuffix) ∧
        flatSuffixes.any (Text.occursIn · (letter :: accidental)) =
          decide (accidental ∈ flatSuffixes) ∧
        accidentalSemitones accidental =
          (if accidental = sharpSuffix then 1 else 0) -
            (if accidental ∈ flatSuffixes then 1 else 0) ∧
        (naturalSemitones? letter).isSome = true ∧
        namedPitchClass? (letter.toUpper ::
            (if accidental = sharpSuffix then ['#']
              else if accidental ∈ flatSuffixes then ['b'] else [])) =
          some (((naturalSemitones? letter).getD 0 + accidentalSemitones accidental) % 12) := by
  have known := (isNoteLetter_iff_isSome letter).mp note
  unfold naturalSemitones? at known
  split at known <;> first | decide | cases known

namespace Pitch

variable (pitch : Pitch)

/-- The octave marks of a pitch are no part of a suffix. -/
theorem occursIn_text {part : Text} (nonempty : part ≠ [])
    (letters : part.all (!isOctaveMark ·) = true) :
    Text.occursIn part pitch.text = Text.occursIn part (pitch.letter :: pitch.accidental) := by
  rw [text, ← List.cons_append]
  refine Text.occursIn_append nonempty ?_
  intro c member inMarks
  have noMark := List.all_eq_true.mp letters c member
  rw [pitch.octaves_marks c inMarks] at noMark
  cases noMark

theorem namedPitchClass?_name : namedPitchClass? pitch.name = some (pitch.height % 12) := by
  obtain ⟨-, -, -, -, named⟩ :=
    accidental_spec pitch.letter_note _ pitch.accidental_known
  rw [name, named, height]
  congr 1
  omega

/-! ## Resolving a pitch -/

/-- **Resolving a pitch.** The key of a pitch is as high above the start of the octave as the pitch
is above an unmarked C, folded towards the key before if there is one. -/
theorem resolveBare_text (octave : Int) (previous : Option Int) :
    resolveBare pitch.text (octaveShift pitch.octaves) octave previous =
      some ⟨previous.elim (octaveStart octave + pitch.height)
        (foldTowards · (octaveStart octave + pitch.height)), pitch.name, none⟩ := by
  obtain ⟨sharp, flat, altered, natural, -⟩ :=
    accidental_spec pitch.letter_note _ pitch.accidental_known
  obtain ⟨semitones, natural⟩ := Option.isSome_iff_exists.mp natural
  have first : pitch.text.head? = some pitch.letter := rfl
  have sharp' := (@pitch.occursIn_text sharpSuffix (by decide) (by decide)).trans sharp
  have flat' : flatSuffixes.any (Text.occursIn · pitch.text) =
      decide (pitch.accidental ∈ flatSuffixes) := by
    rw [← flat]
    simp only [flatSuffixes, List.any_cons, List.any_nil]
    rw [pitch.occursIn_text (by decide) (by decide), pitch.occursIn_text (by decide) (by decide)]
  have height : semitones + accidentalSemitones pitch.accidental + octaveStart octave +
      12 * octaveShift pitch.octaves = octaveStart octave + pitch.height := by
    rw [Pitch.height, natural]
    simp only [Option.getD_some]
    omega
  have named : [pitch.letter.toUpper] ++ (if pitch.accidental = sharpSuffix then ['#'] else []) ++
      (if pitch.accidental ∈ flatSuffixes then ['b'] else []) = pitch.name := by
    unfold Pitch.name
    split
    · rename_i same
      rw [same]
      rfl
    · rfl
  simp only [resolveBare, bind, first, natural, sharp', flat', Option.bind_some,
    decide_eq_true_eq, ← altered, height, named, pure]

theorem withoutFingerings_text : withoutFingerings pitch.text = pitch.text := by
  simpa [WrittenNote.word_text, NoteEnding.fingeringText] using
    withoutFingerings_word ⟨pitch, .bare⟩

theorem resolveSpelling_text (octave : Int) (previous : Option Int) :
    resolveSpelling pitch.text octave previous =
      some ⟨previous.elim (octaveStart octave + pitch.height)
        (foldTowards · (octaveStart octave + pitch.height)), pitch.name, none⟩ := by
  rw [resolveSpelling]
  simp only [withoutFingerings_text, octaveShift_text, resolveBare_text]

end Pitch

/-- A note word resolves like its pitch, whatever its fingering. -/
theorem NoteWord.resolve_word (note : WrittenNote) (octave : Int) (previous : Option Int) :
    note.word.resolve octave previous =
      some ⟨previous.elim (octaveStart octave + note.pitch.height)
        (foldTowards · (octaveStart octave + note.pitch.height)), note.pitch.name, none⟩ := by
  rw [NoteWord.resolve, withoutFingerings_word]
  exact note.pitch.resolveBare_text octave previous

/-- A spelling resolves like its pitch, whatever its fingering. -/
theorem resolveSpelling_word (note : WrittenNote) (octave : Int) (previous : Option Int) :
    resolveSpelling note.word.text octave previous =
      some ⟨previous.elim (octaveStart octave + note.pitch.height)
        (foldTowards · (octaveStart octave + note.pitch.height)), note.pitch.name, none⟩ := by
  rw [resolveSpelling]
  simp only [withoutFingerings_word, Pitch.octaveShift_text, Pitch.resolveBare_text]

/-! ## The notes of some note words -/

/-- A note whose key, name and spelling have one pitch class, and whose spelling is a pitch with a
fingering or nothing after it. -/
def Note.Agrees (note : Note) : Prop :=
  ∃ (pitch : Pitch) (fingering : Text), note.spelling = some (pitch.text ++ fingering) ∧
    (fingering = [] ∨ ∃ digits : DigitRun, fingering = '-' :: digits.text) ∧
    semitones (pitch.text ++ fingering) % 12 = note.key % 12 ∧
    namedPitchClass? note.name = some (note.key % 12)

/-- The second of two keys lies in the window around the first. -/
def InWindow (first second : Int) : Prop := (second - first).natAbs ≤ relativeWindow.natAbs

theorem inWindow_foldTowards (previous key : Int) :
    InWindow previous (foldTowards previous key) := by
  have near := foldTowards_near previous key
  unfold relativeWindow at near
  unfold InWindow relativeWindow
  omega

/-- Every note word of a voice is the word of a written note. -/
theorem exists_written_of_mem_scanVoice {body : Text} {word : NoteWord}
    (member : word ∈ scanVoice body) : ∃ note : WrittenNote, word = note.word := by
  obtain ⟨⟨found, duration⟩, inside, rfl⟩ := List.mem_map.mp member
  obtain ⟨before, rest, after, recognised⟩ :=
    Text.exists_of_item_mem (Text.mem_filterMap_item?.mp inside)
  obtain ⟨note, same, -⟩ := exists_written_of_noteAt recognised
  exact ⟨note, same⟩

/-- The note that a written note becomes after a key. -/
def WrittenNote.noteAfter (note : WrittenNote) (octave previous : Int) : Note :=
  ⟨foldTowards previous (octaveStart octave + note.pitch.height), note.pitch.name,
    some note.word.text⟩

theorem WrittenNote.agrees_noteAfter (note : WrittenNote) (octave previous : Int) :
    (note.noteAfter octave previous).Agrees := by
  have folded : foldTowards previous (octaveStart octave + note.pitch.height) % 12 =
      note.pitch.height % 12 := by
    rw [foldTowards_emod, octaveStart]
    omega
  refine ⟨note.pitch, note.ending.fingeringText, congrArg some note.word_text, ?_, ?_, ?_⟩
  · cases note.ending with
    | bare => exact .inl rfl
    | duration digits => exact .inl rfl
    | fingering digits => exact .inr ⟨digits, rfl⟩
  · rw [← note.word_text, semitones_word]
    exact folded.symm
  · exact note.pitch.namedPitchClass?_name.trans (congrArg some folded.symm)

section Words

variable {words : List NoteWord} (octave : Int)

/-- After a key, every note word of a voice becomes a note and the key of the next. -/
theorem resolveWords_cons (note : WrittenNote) (rest : List NoteWord) (previous : Int) :
    resolveWords octave (some previous) (note.word :: rest) =
      note.noteAfter octave previous ::
        resolveWords octave (some (note.noteAfter octave previous).key) rest := by
  rw [resolveWords, NoteWord.resolve_word]
  rfl

/-- **Windows.** Each key of a voice lies in the window around the one before it. -/
theorem isChain_resolveWords (written : ∀ word ∈ words, ∃ note : WrittenNote, word = note.word)
    (previous : Int) :
    List.IsChain InWindow
      (previous :: (resolveWords octave (some previous) words).map Note.key) := by
  induction words generalizing previous with
  | nil => exact .singleton _
  | cons word rest ih =>
      obtain ⟨note, rfl⟩ := written word List.mem_cons_self
      rw [resolveWords_cons, List.map_cons, List.isChain_cons_cons]
      exact ⟨inWindow_foldTowards previous _,
        ih (fun word member => written word (List.mem_cons_of_mem _ member)) _⟩

/-- Every note of a voice has one pitch class. -/
theorem agrees_of_mem_resolveWords
    (written : ∀ word ∈ words, ∃ note : WrittenNote, word = note.word) {previous : Int}
    {found : Note} (member : found ∈ resolveWords octave (some previous) words) :
    found.Agrees := by
  induction words generalizing previous with
  | nil => cases member
  | cons word rest ih =>
      obtain ⟨note, rfl⟩ := written word List.mem_cons_self
      rw [resolveWords_cons] at member
      rcases List.mem_cons.mp member with rfl | later
      · exact note.agrees_noteAfter octave previous
      · exact ih (fun word inside => written word (List.mem_cons_of_mem _ inside)) later

end Words

/-! ## The notes of a declared voice -/

/-- The anchor of a declaration is a pitch. -/
theorem exists_pitch_of_declarationAt {hand : Hand} {before : Option Char}
    {text anchor inside rest : Text}
    (found : declarationAt hand before text = some ((anchor, inside), rest)) :
    ∃ pitch : Pitch, anchor = pitch.text := by
  unfold declarationAt at found
  split at found
  · cases found
  · obtain ⟨afterName, -, found⟩ := Option.bind_eq_some_iff.mp found
    split at found
    · simp only [relativeAt, bind, Option.bind_eq_some_iff, pure, Option.some.injEq,
        Prod.mk.injEq] at found
      obtain ⟨_, -, _, -, ⟨word, _⟩, taken, _, -, ⟨rfl, -⟩, -⟩ := found
      obtain ⟨pitch, rfl, -, -⟩ := exists_pitch_of_takePitch? taken
      exact ⟨pitch, pitch.word_text⟩
    · cases found

/-- A voice whose anchor is a pitch starts from the key of the anchor, in the octave of that key. -/
theorem resolveVoice_pitch (table : Variables) (budget : Nat) (pitch : Pitch) (body : Text) :
    resolveVoice table budget (some pitch.text) body =
      (expand table budget 0 body).map fun text =>
        resolveWords (octaveOfKey (60 + pitch.height)) (some (60 + pitch.height))
          (scanVoice text) := by
  have start : anchorNote? (some pitch.text) = some ⟨60 + pitch.height, pitch.name, none⟩ :=
    pitch.resolveSpelling_text middleOctave none
  rw [resolveVoice, start]
  rfl

/-- The notes of a voice whose anchor is a pitch come from the words of written notes. -/
theorem resolveVoice_eq {table : Variables} {budget : Nat} (pitch : Pitch) {body : Text}
    {notes : List Note} (resolved : resolveVoice table budget (some pitch.text) body = .ok notes) :
    ∃ words : List NoteWord, (∀ word ∈ words, ∃ note : WrittenNote, word = note.word) ∧
      notes = resolveWords (octaveOfKey (60 + pitch.height)) (some (60 + pitch.height)) words := by
  rw [resolveVoice_pitch] at resolved
  cases expanded : expand table budget 0 body with
  | error fault =>
      rw [expanded] at resolved
      cases resolved
  | ok text =>
      rw [expanded] at resolved
      exact ⟨scanVoice text, fun word => exists_written_of_mem_scanVoice,
        (Except.ok.inj resolved).symm⟩

/-- A document has a score exactly when both of its voices resolve, and then these are the voices
of the score. -/
theorem ofSource_eq_ok_iff {source : Text} {score : Score} :
    Score.ofSource source = .ok score ↔
      (∀ hand, declaredVoice source (.ofSource source) hand = .ok (score.voice hand)) ∧
        score.metadata = .ofSource source := by
  constructor
  · intro found
    unfold Score.ofSource at found
    dsimp only at found
    obtain ⟨upper, upperNotes, found⟩ := bind_eq_ok_iff.mp found
    obtain ⟨lower, lowerNotes, found⟩ := bind_eq_ok_iff.mp found
    cases found
    refine ⟨fun hand => ?_, rfl⟩
    cases hand with
    | upper => exact upperNotes
    | lower => exact lowerNotes
  · rintro ⟨voices, metadata⟩
    obtain ⟨upper, lower, about⟩ := score
    have upper' : declaredVoice source (.ofSource source) .upper = .ok upper := voices .upper
    have lower' : declaredVoice source (.ofSource source) .lower = .ok lower := voices .lower
    have about' : about = .ofSource source := metadata
    rw [Score.ofSource, upper', lower', about']
    rfl

/-- A document has no score exactly if a voice that it declares fails. -/
theorem exists_fault_ofSource_iff {source : Text} :
    (∃ fault, Score.ofSource source = .error fault) ↔
      ∃ hand fault, declaredVoice source (.ofSource source) hand = .error fault := by
  constructor
  · rintro ⟨fault, failed⟩
    rcases bind_eq_error_iff.mp failed with upper | ⟨_, -, failed⟩
    · exact ⟨.upper, fault, upper⟩
    · rcases bind_eq_error_iff.mp failed with lower | ⟨_, -, failed⟩
      · exact ⟨.lower, fault, lower⟩
      · cases failed
  · rintro ⟨hand, fault, failed⟩
    cases found : Score.ofSource source with
    | error other => exact ⟨other, rfl⟩
    | ok score => cases failed.symm.trans ((ofSource_eq_ok_iff.mp found).1 hand)

/-- The voice that a document declares for a hand is resolved from the anchor that it declares, and
has no notes if its block never closes. -/
theorem declaredVoice_eq {source : Text} {hand : Hand} {anchor inside rest : Text}
    (declared : Text.firstItem? (declarationAt hand) source = some ((anchor, inside), rest))
    (table : Variables) :
    declaredVoice source table hand =
      match splitBlock? inside with
      | none => .ok []
      | some (body, _) => resolveVoice table defaultBudget (some anchor) body := by
  unfold declaredVoice
  rewrite [declared]
  rfl

/-- **Voices stay near their anchor.** In the score of a document, the first note of a declared
voice lies within six semitones of its anchor, and every other note within six semitones of the
note before it. The key, the name and the spelling of every note have one pitch class, and the
spelling is a complete note. -/
theorem voice_near_anchor {source : Text} {score : Score} (found : Score.ofSource source = .ok score)
    (hand : Hand) {anchor inside rest : Text}
    (declared : Text.firstItem? (declarationAt hand) source = some ((anchor, inside), rest)) :
    List.IsChain (fun previous key => (key - previous).natAbs ≤ 6)
        ((60 + semitones anchor) :: (score.voice hand).map Note.key) ∧
      ∀ note ∈ score.voice hand, note.Agrees := by
  have voice := (ofSource_eq_ok_iff.mp found).1 hand
  rw [declaredVoice_eq declared] at voice
  split at voice
  · rw [← Except.ok.inj voice]
    exact ⟨.singleton _, fun _ member => absurd member List.not_mem_nil⟩
  · obtain ⟨before, text, -, here⟩ := Text.exists_suffix_of_firstItem? declared
    obtain ⟨pitch, rfl⟩ := exists_pitch_of_declarationAt here
    obtain ⟨words, written, notes⟩ := resolveVoice_eq pitch voice
    rw [semitones_pitch, notes]
    exact ⟨isChain_resolveWords _ written _, fun note => agrees_of_mem_resolveWords _ written⟩

/-- A voice with a flat below its octave, a note that is folded up, and a transposed block. -/
theorem voice_near_anchor_flats :
    let inside := " ces-2 f,, \\transpose c bes \x7b g \x7d \x7d".toList
    let source := "upper = \\relative c\x27 \x7b".toList ++ inside
    let score : Score :=
      ⟨[⟨71, "Cb".toList, some "ces-2".toList⟩, ⟨65, "F".toList, some "f,,".toList⟩,
        ⟨65, "F".toList, some "f\x27".toList⟩], [], ⟨none, none⟩⟩
    Score.ofSource source = .ok score ∧
      Text.firstItem? (declarationAt .upper) source = some (("c\x27".toList, inside), inside) ∧
      List.IsChain (fun previous key => (key - previous).natAbs ≤ 6)
        ((60 + semitones "c\x27".toList) :: (score.voice .upper).map Note.key) ∧
      ∀ note ∈ score.voice .upper, note.Agrees := by
  intro inside source score
  have found : Score.ofSource source = .ok score :=
    toOption_eq_some_iff.mp (by decide +kernel)
  have declared : Text.firstItem? (declarationAt .upper) source =
      some (("c\x27".toList, inside), inside) := by decide +kernel
  exact ⟨found, declared, voice_near_anchor found .upper declared⟩

end Clavier
