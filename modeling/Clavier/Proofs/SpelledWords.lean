import Clavier.Proofs.KeySignatures
import Mathlib.Data.Set.List

/-!
# Note words and their spellings

A note word is known from its spelling. It resolves like the text that it is spelled as, although
the one counts octave marks in their place and the other anywhere in the text, and without a key
before it the resolved key is as high as `semitones` finds the text (`exists_resolve`,
`key_resolve_none`). The words that a voice is scanned for, spelled with blanks between them, are
scanned for the same words again (`scanVoice_spelledWords`): the scan may end a word early, before
a larger word, but it takes back what it has taken.

A note keeps the spelling of its word. So the spellings of the notes of a voice say all that the
voice says of its notes (`words_are_their_spellings`).
-/

set_option autoImplicit false

namespace Clavier

/-! ## Resolving a word and its spelling -/

namespace WrittenNote

variable (note : WrittenNote) (octave : Int)

/-- A written note resolves in every octave and after every key, and to the same note from its word
as from its spelling. -/
theorem exists_resolve (previous : Option Int) :
    ∃ found, note.word.resolve octave previous = some found ∧
      resolveSpelling note.word.text octave previous = some found :=
  ⟨_, NoteWord.resolve_word note octave previous, resolveSpelling_word note octave previous⟩

/-- Without a key before it, a word is as high above the start of its octave as its spelling is
above an unmarked C. -/
theorem key_resolve_none :
    (note.word.resolve octave none).map Note.key =
      some (12 * (octave + 1) + semitones note.word.text) := by
  rw [NoteWord.resolve_word, semitones_word]
  rfl

end WrittenNote

/-! ## Scanning the spellings of words -/

/-- Some note words as they are spelled, with a blank between any two of them. -/
def spelledWords (words : List NoteWord) : Text := Text.joinWith [' '] (words.map NoteWord.text)

/-- The words of written notes are printed like the notes without their durations. -/
theorem spelledWords_eq_print (notes : List WrittenNote) :
    spelledWords (notes.map WrittenNote.word) =
      VoiceItem.print ((notes.map WrittenNote.withoutDuration).map .note) := by
  rw [spelledWords, VoiceItem.print, List.map_map, List.map_map, List.map_map]
  refine congrArg _ (List.map_congr_left fun note _ => ?_)
  exact note.withoutDuration_text.symm

/-- **Spelled words** are scanned for the words that are spelled. -/
theorem scanVoice_spelledWords (notes : List WrittenNote) :
    scanVoice (spelledWords (notes.map WrittenNote.word)) = notes.map WrittenNote.word := by
  rw [spelledWords_eq_print, scanVoice_print_eq, scanVoice_spacedItems, notes_map_note,
    List.map_map]
  exact List.map_congr_left fun note _ => note.withoutDuration_word

/-- The note words of a voice are words of written notes. -/
theorem exists_notes_of_scanVoice (body : Text) :
    ∃ notes : List WrittenNote, notes.map WrittenNote.word = scanVoice body := by
  have written : ∀ word ∈ scanVoice body, word ∈ Set.range WrittenNote.word := by
    intro word member
    obtain ⟨note, same⟩ := exists_written_of_mem_scanVoice member
    exact ⟨note, same.symm⟩
  have listed : scanVoice body ∈ Set.range (List.map WrittenNote.word) := by
    rw [Set.range_list_map]
    exact written
  exact listed

/-- The spellings of the notes of a voice are those of its words. -/
theorem spellings_resolveWords (octave : Int) (previous : Option Int) (notes : List WrittenNote) :
    (resolveWords octave previous (notes.map WrittenNote.word)).filterMap Note.spelling =
      (notes.map WrittenNote.word).map NoteWord.text := by
  have spelled := congrArg (List.filterMap id) (map_spelling_resolveWords octave previous notes)
  rw [List.filterMap_map, List.filterMap_map, Function.id_comp] at spelled
  rw [spelled, List.map_map]
  exact congrFun List.filterMap_eq_map notes

/-- **Words are their spellings.** Every note word resolves like the text that it is spelled as, in
every octave and after every key; without a key before it, the key it resolves to is that of the
height of the text. Whatever text a voice is scanned in, its words, spelled with blanks between
them, are scanned for the same words, and the spellings that its notes keep resolve to the
same notes. -/
theorem words_are_their_spellings :
    (∀ (note : WrittenNote) (octave : Int),
        (∀ previous, ∃ found, note.word.resolve octave previous = some found ∧
          resolveSpelling note.word.text octave previous = some found) ∧
        (note.word.resolve octave none).map Note.key =
          some (12 * (octave + 1) + semitones note.word.text)) ∧
      ∀ body : Text, scanVoice (spelledWords (scanVoice body)) = scanVoice body ∧
        ∀ (octave : Int) (previous : Option Int),
          let notes := resolveWords octave previous (scanVoice body)
          resolveWords octave previous
            (scanVoice (Text.joinWith [' '] (notes.filterMap Note.spelling))) = notes := by
  refine ⟨fun note octave => ⟨note.exists_resolve octave, note.key_resolve_none octave⟩,
    fun body => ?_⟩
  obtain ⟨notes, scanned⟩ := exists_notes_of_scanVoice body
  rw [← scanned]
  refine ⟨scanVoice_spelledWords notes, fun octave previous => ?_⟩
  dsimp only
  rw [spellings_resolveWords]
  exact congrArg _ (scanVoice_spelledWords notes)

end Clavier
