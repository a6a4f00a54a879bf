import Clavier.Proofs.BundledFiles
import Clavier.Proofs.DocumentScores
import Clavier.Proofs.ForgedMarkers
import Clavier.Proofs.StudioRuns

/-!
# Replies of a studio

An action is answered with a text that begins with a plus or an exclamation mark and a space,
unless its command ends with a fault (`answers_iff`). There are few causes of that
(`Unanswerable`): a path with a NUL character, a text without a score, and a score that the MIDI
library can neither write nor leave to a refusal. The last does not occur with a library that can be
depended on, while the scores are of moderate size, and a text without a score has a NUL character
too. So an action without one is then answered over all files without one (`answers_of_noNul`).
-/

set_option autoImplicit false

namespace Clavier

/-! ## Characters of parts -/

namespace Text

variable {text : Text} {c : Char}

/-- The characters of words are those of the text, and backslashes. -/
theorem mem_of_mem_shellWordsFrom {mode : QuotingMode} {word : Text} {words : List Text}
    (split : shellWordsFrom mode word text = .ok words) {other : Text} (member : other ∈ words)
    (inside : c ∈ other) : c = '\\' ∨ c ∈ word ∨ c ∈ text := by
  fun_induction shellWordsFrom mode word text generalizing words with
  | case9 word d rest separates ih =>
      -- the word ends, and the words after it come from the rest alone
      cases later : shellWordsFrom .between [] rest with
      | error defect =>
          rw [later] at split
          cases split
      | ok others =>
          rw [later] at split
          cases split
          rcases List.mem_cons.mp member with rfl | member
          · exact .inr (.inl inside)
          · exact (ih later member).imp_right fun kept =>
              .inr (List.mem_cons_of_mem d (kept.resolve_left List.not_mem_nil))
  | _ => grind

theorem mem_of_mem_unifyLineEnds (member : c ∈ unifyLineEnds text) : c = '\n' ∨ c ∈ text := by
  fun_induction unifyLineEnds text <;> grind

theorem mem_of_mem_cutFirstWord (member : c ∈ (cutFirstWord text).2) : c ∈ text := by
  have after := (List.dropWhile_sublist _).mem member
  have start : c ∈ trimStart text := by
    rw [← splitWhile_append (fun c => !isBlank c) (trimStart text)]
    exact List.mem_append_right _ after
  exact (List.dropWhile_sublist _).mem start

end Text

namespace Studio

theorem mem_of_mem_parseAction {action : Text} {c : Char} (member : c ∈ (parseAction action).2) :
    c ∈ action :=
  Text.mem_of_mem_trim (Text.mem_of_mem_cutFirstWord (Text.mem_of_mem_trim member))

section Paths

variable {command argument path : Text}

theorem singlePath_ne_faulted (fault : Fault) :
    singlePath command argument ≠ .error (.faulted fault) := by
  unfold singlePath
  split <;> simp

theorem mem_of_mem_singlePath (named : singlePath command argument = .ok path) {c : Char}
    (member : c ∈ path) : c = '\\' ∨ c ∈ argument := by
  unfold singlePath at named
  split at named
  · cases named
  · rename_i only split
    cases named
    have origin := Text.mem_of_mem_shellWordsFrom split List.mem_cons_self member
    exact origin.imp_right fun kept => kept.resolve_left List.not_mem_nil
  · cases named

end Paths

end Studio

/-! ## Faults of files -/

/-- A text that has no score. -/
def Scoreless (text : Text) : Prop := ∃ fault, Score.ofSource text = .error fault

theorem Scoreless.nul_mem {text : Text} (scoreless : Scoreless text) : '\x00' ∈ text := by
  by_contra clean
  obtain ⟨fault, failed⟩ := scoreless
  obtain ⟨score, found⟩ := exists_ofSource_of_unforged (unforged_of_not_mem clean)
  rw [failed] at found
  cases found

section Files

variable {directory : Directory} {path : Text}

/-- The file at a path is a document without a score. -/
def Directory.HoldsScoreless (directory : Directory) (path : Text) : Prop :=
  ∃ bytes text, directory.read (Path.normal path) = .ok bytes ∧ Utf8.decode bytes = .ok text ∧
    Scoreless (Text.unifyLineEnds text)

/-- **Loading ends with a fault** for a path with a NUL character and for a document without a
score. -/
theorem exists_fault_loadDocument_iff :
    (∃ fault, loadDocument directory path = .error (.faulted fault)) ↔
      '\x00' ∈ path ∨ directory.HoldsScoreless path := by
  unfold loadDocument checkedPath
  by_cases nul : '\x00' ∈ path
  · rw [if_pos nul]
    exact iff_of_true ⟨.nulInPath, rfl⟩ (.inl nul)
  rw [if_neg nul, or_iff_right nul]
  simp only [bind, Except.bind, Directory.HoldsScoreless]
  cases content : directory.read (Path.normal path) with
  | error problem => simp
  | ok bytes =>
      cases decoded : Utf8.decode bytes with
      | error defect => simp [decoded]
      | ok text =>
          cases scored : Score.ofSource (Text.unifyLineEnds text) <;>
            simp [decoded, scored, Scoreless, orFault, Except.mapError]

/-- **Exporting ends with a fault** if making the bytes does, and for a path with a NUL
character. -/
theorem exists_fault_exportScore_iff [MidiLibrary] {settings : ExportSettings} {score : Score} :
    (∃ fault, exportScore directory settings score path = .error (.faulted fault)) ↔
      (∃ fault, midiBytes settings score = .error (.faulted fault)) ∨
        (∃ bytes, midiBytes settings score = .ok bytes) ∧ '\x00' ∈ path := by
  unfold exportScore checkedPath
  cases written : midiBytes settings score with
  | error failure => simp [bind, Except.bind]
  | ok bytes =>
      by_cases nul : '\x00' ∈ path
      · simp [bind, Except.bind, nul]
      · simp only [bind, Except.bind, nul, if_false]
        cases directory.write path bytes <;> simp

/-- What is read is the content of a file. -/
theorem Directory.mem_files_of_read {bytes : Bytes} (found : directory.read path = .ok bytes) :
    ∃ place, (place, bytes) ∈ directory.files := by
  obtain ⟨-, -, found⟩ := bind_eq_ok_iff.mp found
  obtain ⟨place, -, found⟩ := bind_eq_ok_iff.mp found
  split at found
  · rename_i content held
    cases found
    obtain ⟨before, after, files, -⟩ := List.lookup_eq_some_iff.mp held
    exact ⟨place, files ▸ List.mem_append_right _ List.mem_cons_self⟩
  · cases found

/-- No file holds a text with a NUL character. -/
def Directory.NulFree (directory : Directory) : Prop :=
  ∀ file ∈ directory.files, ∀ text ∈ (Utf8.decode file.2).toOption, '\x00' ∉ text

end Files

namespace Studio

/-! ## Answers -/

/-- An action is answered with a text that says whether it was done. -/
def Answers [MidiLibrary] (studio : Studio) (action : Text) : Prop :=
  ∃ reply, (studio.act action).1 = .ok reply ∧
    ("+ ".toList <+: reply.text ∨ "! ".toList <+: reply.text)

theorem marked_text (reply : Reply) :
    "+ ".toList <+: reply.text ∨ "! ".toList <+: reply.text := by
  cases reply with
  | done message => exact .inl ⟨message, rfl⟩
  | refused message hint =>
      refine .inr ?_
      rcases hint with - | _ | _ <;> exact ⟨_, rfl⟩

/-- An action is answered unless its command ends with a fault. -/
theorem answers_iff [MidiLibrary] {studio : Studio} {action : Text} :
    studio.Answers action ↔ ∀ fault,
      (studio.perform (parseAction action).2 (parseAction action).1).1 ≠
        .error (.faulted fault) := by
  unfold Answers act
  dsimp only
  split <;> rename_i outcome <;> rw [outcome]
  · rename_i reply next
    exact iff_of_true ⟨reply, rfl, marked_text reply⟩ fun fault same => by cases same
  · rename_i rejection next
    exact iff_of_true ⟨_, rfl, marked_text _⟩ fun fault same => by cases same
  · rename_i fault next
    refine iff_of_false ?_ fun never => never fault rfl
    rintro ⟨reply, same, -⟩
    cases same

/-- Why a command is not answered. -/
inductive Unanswerable [MidiLibrary] (studio : Studio) (argument : Text) : Command → Prop where
  /-- A document is looked for at a path with a NUL character, or it has no score. -/
  | load {path : Text} (named : singlePath "load".toList argument = .ok path)
      (cause : '\x00' ∈ path ∨ studio.directory.HoldsScoreless path) :
      Unanswerable studio argument .load
  /-- The text that is given has no score. -/
  | source (scoreless : Scoreless argument) : Unanswerable studio argument .source
  /-- The library stops while the score is written, or it is to be written at a path with a NUL
  character. -/
  | export {path : Text} (named : singlePath "export".toList argument = .ok path)
      {loaded : Loaded} (found : studio.loaded = some loaded)
      (cause : (∃ fault, midiBytes .standard loaded.score = .error (.faulted fault)) ∨
        (∃ bytes, midiBytes .standard loaded.score = .ok bytes) ∧ '\x00' ∈ path) :
      Unanswerable studio argument .export

section Causes

variable {studio : Studio} {argument : Text}

theorem load_faulted_iff {fault : Fault} :
    (studio.load argument).1 = .error (.faulted fault) ↔
      ∃ path, singlePath "load".toList argument = .ok path ∧
        loadDocument studio.directory path = .error (.faulted fault) := by
  have same : (studio.load argument).1 = .error (.faulted fault) ↔
      (singlePath "load".toList argument >>= loadDocument studio.directory) =
        .error (.faulted fault) := by
    unfold load
    split <;> rename_i loading <;> rw [loading] <;> simp [take]
  rw [same, bind_eq_error_iff, or_iff_right (singlePath_ne_faulted fault)]

theorem source_faulted_iff {fault : Fault} :
    (studio.source argument).1 = .error (.faulted fault) ↔
      argument ≠ [] ∧ Score.ofSource argument = .error fault := by
  unfold source
  cases argument with
  | nil => simp
  | cons c rest =>
      rw [List.isEmpty_cons, if_neg Bool.false_ne_true]
      cases Score.ofSource (c :: rest) <;> simp [take]

theorem reset_ne_faulted (fault : Fault) : studio.reset.1 ≠ .error (.faulted fault) := by
  unfold reset
  split <;> simp

theorem goTo_ne_faulted (fault : Fault) : (studio.goTo argument).1 ≠ .error (.faulted fault) := by
  unfold goTo
  split
  · simp
  · split
    · simp
    · split <;> simp

theorem exportTo_faulted_iff [MidiLibrary] {fault : Fault} :
    (studio.exportTo argument).1 = .error (.faulted fault) ↔
      ∃ path loaded, singlePath "export".toList argument = .ok path ∧
        studio.loaded = some loaded ∧
        exportScore studio.directory .standard loaded.score path = .error (.faulted fault) := by
  have unnamed := @singlePath_ne_faulted "export".toList argument fault
  unfold exportTo
  cases named : singlePath "export".toList argument with
  | error failure =>
      rw [named] at unnamed
      simpa using unnamed
  | ok path =>
      cases found : studio.loaded with
      | none => simp
      | some loaded =>
          dsimp only
          split <;> rename_i written <;> simp [written]

/-- **Causes.** A command is unanswerable exactly when it ends with a fault. -/
theorem unanswerable_iff [MidiLibrary] {command : Command} :
    studio.Unanswerable argument command ↔
      ∃ fault, (studio.perform argument command).1 = .error (.faulted fault) := by
  cases command with
  | load =>
      simp only [perform, load_faulted_iff]
      constructor
      · rintro (⟨named, cause⟩ | _)
        obtain ⟨fault, failed⟩ := exists_fault_loadDocument_iff.mpr cause
        exact ⟨fault, _, named, failed⟩
      · rintro ⟨fault, path, named, failed⟩
        exact .load named (exists_fault_loadDocument_iff.mp ⟨fault, failed⟩)
  | source =>
      simp only [perform, source_faulted_iff]
      constructor
      · rintro (_ | scoreless)
        have nonempty := List.ne_nil_of_mem scoreless.nul_mem
        obtain ⟨fault, failed⟩ := scoreless
        exact ⟨fault, nonempty, failed⟩
      · rintro ⟨fault, -, failed⟩
        exact .source ⟨fault, failed⟩
  | reset =>
      refine iff_of_false (by rintro ⟨⟩) ?_
      rintro ⟨fault, failed⟩
      exact reset_ne_faulted fault failed
  | goto =>
      refine iff_of_false (by rintro ⟨⟩) ?_
      rintro ⟨fault, failed⟩
      exact goTo_ne_faulted fault failed
  | «export» =>
      simp only [perform, exportTo_faulted_iff]
      constructor
      · rintro (_ | _ | ⟨named, found, cause⟩)
        obtain ⟨fault, failed⟩ := exists_fault_exportScore_iff.mpr cause
        exact ⟨fault, _, _, named, found, failed⟩
      · rintro ⟨fault, path, loaded, named, found, failed⟩
        exact .export named found (exists_fault_exportScore_iff.mp ⟨fault, failed⟩)
  | unknown word =>
      refine iff_of_false (by rintro ⟨⟩) ?_
      rintro ⟨fault, failed⟩
      cases failed

end Causes

/-! ## Actions without NUL -/

/-- The score is of moderate size. -/
def Short (studio : Studio) : Prop := ∀ loaded ∈ studio.loaded, loaded.score.Short

section Short

variable [MidiLibrary] (dependable : MidiLibrary.Dependable ExportSettings.standard.tempo)
  {studio : Studio} (short : studio.Short)
include dependable short

/-- An export of a score of moderate size is unanswerable only for its path. -/
theorem unanswerable_export_iff {argument : Text} :
    studio.Unanswerable argument .export ↔
      ∃ path, singlePath "export".toList argument = .ok path ∧ '\x00' ∈ path ∧
        ∃ loaded ∈ studio.loaded, ∀ hand, ∀ note ∈ loaded.score.voice hand, note.InMidi := by
  constructor
  · rintro (_ | _ | ⟨named, found, cause⟩)
    rcases cause with ⟨fault, failed⟩ | ⟨⟨bytes, written⟩, nul⟩
    · exact absurd failed (ExportSettings.midiBytes_ne_faulted dependable (short _ found) fault)
    · exact ⟨_, named, nul, _, found, inMidi_of_midiBytes written⟩
  · rintro ⟨path, named, nul, loaded, found, inMidi⟩
    exact .export named found
      (.inr ⟨ExportSettings.exists_midiBytes dependable inMidi (short loaded found), nul⟩)

/-- **Actions without a NUL character** are answered over files without one. -/
theorem answers_of_noNul (clean : studio.directory.NulFree) {action : Text}
    (noNul : '\x00' ∉ action) : studio.Answers action := by
  have noNulArgument : '\x00' ∉ (parseAction action).2 := fun member =>
    noNul (mem_of_mem_parseAction member)
  have noNulPath : ∀ command path, singlePath command (parseAction action).2 = .ok path →
      '\x00' ∉ path := fun command path named member =>
    noNulArgument ((mem_of_mem_singlePath named member).resolve_left (by decide))
  rw [answers_iff]
  intro fault failed
  have cause := unanswerable_iff.mpr ⟨fault, failed⟩
  generalize (parseAction action).1 = command at cause
  cases cause with
  | load named cause =>
      rcases cause with nul | ⟨bytes, text, content, decoded, scoreless⟩
      · exact noNulPath _ _ named nul
      · obtain ⟨place, held⟩ := Directory.mem_files_of_read content
        have nul := Text.mem_of_mem_unifyLineEnds scoreless.nul_mem
        exact clean _ held text (Option.mem_def.mpr (toOption_eq_some_iff.mpr decoded))
          (nul.resolve_left (by decide))
  | source scoreless => exact noNulArgument scoreless.nul_mem
  | «export» named found cause =>
      obtain ⟨path, named, nul, -⟩ :=
        (unanswerable_export_iff dependable short).mp (.export named found cause)
      exact noNulPath _ _ named nul

end Short

/-! ## All actions -/

/-- **Replies.** An action is answered unless its command is unanswerable, whatever the MIDI library
does. With a library that can be depended on, and while the score is of moderate size, an export is
unanswerable only if a score that a MIDI file can hold is to be written at a path with a NUL
character, and every action without a NUL character is answered over files without one. -/
theorem answers_iff_not_unanswerable [MidiLibrary] (studio : Studio) (action : Text) :
    (studio.Answers action ↔
        ¬studio.Unanswerable (parseAction action).2 (parseAction action).1) ∧
      (MidiLibrary.Dependable ExportSettings.standard.tempo → studio.Short →
        (∀ argument, studio.Unanswerable argument .export ↔
          ∃ path, singlePath "export".toList argument = .ok path ∧ '\x00' ∈ path ∧
            ∃ loaded ∈ studio.loaded, ∀ hand, ∀ note ∈ loaded.score.voice hand, note.InMidi) ∧
        ('\x00' ∉ action → studio.directory.NulFree → studio.Answers action)) := by
  refine ⟨?_, fun dependable short => ⟨fun argument => unanswerable_export_iff dependable short,
    fun noNul clean => answers_of_noNul dependable short clean noNul⟩⟩
  rw [unanswerable_iff, not_exists]
  exact answers_iff

/-- The bundled library writes a score of one note, but not at a path with a NUL character. -/
theorem answers_iff_not_unanswerable_oneNote :
    let document := "upper = \\relative c \x7b c \x7d".toList
    let studio := (start ⟨[(["a.ly".toList], Utf8.encode document)]⟩).run
      [.action "load a.ly".toList]
    MidiLibrary.Dependable ExportSettings.standard.tempo ∧ studio.Short ∧
      studio.directory.NulFree ∧ studio.Answers "export out.mid".toList ∧
      ¬studio.Answers "export out\x00.mid".toList := by
  intro document studio
  have oneNote : studio.loaded.map Loaded.score =
      some ⟨[⟨60, "C".toList, some "c".toList⟩], [], ⟨none, none⟩⟩ := by
    decide +kernel
  have texts : (studio.directory.files.all fun file =>
      (Utf8.decode file.2).toOption.all fun text => decide ('\x00' ∉ text)) = true := by
    decide +kernel
  obtain ⟨loaded, found, scored⟩ := Option.map_eq_some_iff.mp oneNote
  have short : studio.Short := by
    intro other again
    obtain rfl := Option.some.inj (found.symm.trans again)
    rw [scored]
    exact ⟨fun hand => by cases hand <;> decide, List.forall_mem_nil _⟩
  have inMidi : ∀ hand, ∀ note ∈ loaded.score.voice hand, note.InMidi := by
    rw [scored]
    intro hand
    cases hand <;> simp [Score.voice, Note.InMidi]
  have clean : studio.directory.NulFree := by
    simpa [Directory.NulFree, Option.all_eq_true] using texts
  have exported := ((answers_iff_not_unanswerable studio "export out.mid".toList).2
    dependable_bundled short).2 (by decide +kernel) clean
  refine ⟨dependable_bundled, short, clean, exported, ?_⟩
  have replies := answers_iff_not_unanswerable studio "export out\x00.mid".toList
  have parsed : parseAction "export out\x00.mid".toList = (.export, "out\x00.mid".toList) := by
    decide +kernel
  rw [replies.1, not_not, parsed]
  exact ((replies.2 dependable_bundled short).1 _).mpr ⟨"out\x00.mid".toList,
    toOption_eq_some_iff.mp (by decide +kernel), by decide, loaded, found, inMidi⟩

/-- Not every action is answered: no path holds a NUL character. -/
theorem not_forall_answers : ¬∀ (directory : Directory) (events : List Event) (action : Text),
    ((start directory).run events).Answers action := by
  intro all
  obtain ⟨reply, replied, -⟩ := all .empty [] "load a\x00b".toList
  have none : (((start .empty).run []).act "load a\x00b".toList).1.toOption = none := by
    decide +kernel
  rw [toOption_eq_some_iff.mpr replied] at none
  cases none

end Studio

end Clavier
