import Clavier.Proofs.OnePass
import Clavier.Proofs.ResolvedNotes
import Clavier.Proofs.VoiceHeaders

/-!
# Markers in a document

The expansion of a voice writes place markers into the text and reads them back. A document may
hold the marker edge itself, and then what counts is whether a digit follows it. If none ever
does, no edge of the document begins a marker, and the document has a score whatever else it
holds (`exists_ofSource_of_unforged`). A marker that a document holds itself stands for no parked
text: a voice without commands has nothing parked, so one marker in it and the document has no
score (`exists_fault_of_forged`).
-/

set_option autoImplicit false

namespace Clavier

/-! ## Expansion -/

section Expansion

variable {table : Variables} {body : Text} {pieces : List (Text.Piece Cut)}

/-- A stretch of a cut body is cut out of it as it stands. -/
theorem Cuts.infix_of_stretch (cuts : Cuts table body pieces) {run text : Text}
    (member : .stretch text ∈ joinStretches run pieces) : text <:+: run ++ body := by
  induction cuts generalizing run with
  | nil =>
      obtain rfl : text = run := by
        simpa [joinStretches] using member
      exact (List.prefix_append text []).isInfix
  | @plain c rest pieces _ _ _ ih =>
      have inside := @ih (run ++ [c]) member
      rwa [List.append_assoc] at inside
  | @block rest pieces header body _ _ ih =>
      rcases List.mem_cons.mp member with same | later
      · cases same
        exact (List.prefix_append _ _).isInfix
      · have inside : text <:+: rest := @ih [] (by simpa using later)
        refine inside.trans ⟨run ++ (header.text ++ (body ++ ['}'])), [], ?_⟩
        simp only [List.append_assoc, List.cons_append, List.nil_append, List.append_nil]
  | @reference name _ rest pieces _ _ _ _ _ _ ih =>
      rcases List.mem_cons.mp member with same | later
      · cases same
        exact (List.prefix_append _ _).isInfix
      · have inside : text <:+: rest := @ih [] (by simpa using later)
        refine inside.trans ⟨run ++ ('\\' :: name), [], ?_⟩
        simp only [List.append_assoc, List.cons_append, List.append_nil]

/-- What is inside a cut is cut out of the body, or is the body of a variable. -/
theorem Cuts.infix_of_inner (cuts : Cuts table body pieces) {cut : Cut}
    (member : .item cut ∈ pieces) :
    cut.inner <:+: body ∨ ∃ name, table.body? name = some cut.inner := by
  induction cuts with
  | nil => cases member
  | @plain c _ _ _ _ _ ih =>
      have later := List.mem_of_ne_of_mem (by simp) member
      exact (ih later).imp_left fun inside => inside.trans (List.suffix_cons c _).isInfix
  | @block rest _ header inner _ _ ih =>
      rcases List.mem_cons.mp member with same | later
      · cases same
        exact .inl ⟨header.text, '}' :: rest, by simp only [Cut.inner, List.append_assoc]⟩
      · refine (ih later).imp_left fun inside => inside.trans (List.IsSuffix.isInfix ?_)
        exact ⟨header.text ++ (inner ++ ['}']), by
          simp only [List.append_assoc, List.cons_append, List.nil_append]⟩
  | @reference name _ rest _ _ _ _ _ known _ ih =>
      rcases List.mem_cons.mp member with same | later
      · cases same
        exact .inr ⟨name, known⟩
      · refine (ih later).imp_left fun inside => inside.trans (List.IsSuffix.isInfix ?_)
        exact ⟨'\\' :: name, rfl⟩

/-- **Expansion succeeds.** Without an edge before a digit, neither in the body nor in the table,
every marker that is read back is one that was written. -/
theorem exists_expand_of_unforged
    (unforgedTable : ∀ name text, table.body? name = some text → Unforged text) (budget : Nat)
    (interval : Int) (unforged : Unforged body) :
    ∃ text, expand table budget interval body = .ok text := by
  induction budget generalizing interval body with
  | zero => exact ⟨body, rfl⟩
  | succ budget ih =>
      have cuts := cuts_pieces table body
      have each : ∀ cut, .item cut ∈ Text.pieces (cutAt table) body →
          ∃ text, expandCut table budget interval cut = .ok text := by
        intro cut member
        obtain ⟨moved, same⟩ := @expandCut_eq table budget interval cut
        rw [same]
        rcases cuts.infix_of_inner member with inside | ⟨name, known⟩
        · exact ih moved (unforged.inside inside)
        · exact ih moved (unforgedTable name _ known)
      choose! expanded finished using each
      exact ⟨_, expand_of_unforged cuts finished fun text member =>
        unforged.inside (cuts.infix_of_stretch member)⟩

end Expansion

/-! ## Documents without forged markers -/

theorem Text.isInfix_trim (text : Text) : Text.trim text <:+: text := by
  have start : Text.trimStart text <:+ text := List.dropWhile_suffix _
  have finish : Text.trim text <+: Text.trimStart text := by
    rw [← List.reverse_suffix, Text.trim, Text.trimEnd, List.reverse_reverse]
    exact List.dropWhile_suffix _
  exact finish.isInfix.trans start.isInfix

theorem infix_of_splitBlock? {inside body rest : Text}
    (closes : splitBlock? inside = some (body, rest)) : body <:+: inside :=
  ⟨[], '}' :: rest, (splitBlock?_eq_some_iff.mp closes).1.symm⟩

/-- The body of a variable is cut out of the document. -/
theorem Variables.infix_of_body? {source name body : Text}
    (known : (Variables.ofSource source).body? name = some body) : body <:+: source := by
  rw [body?_ofSource] at known
  obtain ⟨block, found, rfl⟩ := Option.map_eq_some_iff.mp known
  obtain ⟨rest, suffix⟩ := exists_suffix_of_lookup found
  exact (Text.isInfix_trim block).trans
    ((List.prefix_append block _).isInfix.trans suffix.isInfix)

/-- The text after the opening brace of a declaration ends the document. -/
theorem suffix_of_declarationAt {source anchor inside rest : Text} {hand : Hand}
    (declared : Text.firstItem? (declarationAt hand) source = some ((anchor, inside), rest)) :
    inside <:+ source := by
  have first : (Text.items (declarationAt hand) source).head? = some (anchor, inside) := by
    rw [← Text.firstItem?_fst, declared]
    rfl
  exact (findsBlocks_declarationAt hand).suffix (List.mem_of_mem_head? first)

/-- The voice of a hand is known when the bodies in a document expand. -/
theorem exists_declaredVoice {source : Text} {table : Variables}
    (expands : ∀ body, body <:+: source → ∃ text, expand table defaultBudget 0 body = .ok text)
    (hand : Hand) : ∃ notes, declaredVoice source table hand = .ok notes := by
  cases declared : Text.firstItem? (declarationAt hand) source with
  | none => exact ⟨[], by rw [declaredVoice, declared]⟩
  | some found =>
      obtain ⟨⟨anchor, inside⟩, rest⟩ := found
      rw [declaredVoice_eq declared]
      split
      · exact ⟨[], rfl⟩
      · rename_i body after closes
        obtain ⟨text, expanded⟩ := expands body
          ((infix_of_splitBlock? closes).trans (suffix_of_declarationAt declared).isInfix)
        exact ⟨_, bind_eq_ok_iff.mpr ⟨text, expanded, rfl⟩⟩

theorem exists_ofSource_of_unforged {source : Text} (unforged : Unforged source) :
    ∃ score, Score.ofSource source = .ok score := by
  have voices := exists_declaredVoice fun body inside =>
    @exists_expand_of_unforged (.ofSource source) body
      (fun name text known => unforged.inside (Variables.infix_of_body? known)) defaultBudget 0
      (unforged.inside inside)
  obtain ⟨upper, upperNotes⟩ := voices .upper
  obtain ⟨lower, lowerNotes⟩ := voices .lower
  refine ⟨⟨upper, lower, .ofSource source⟩, ofSource_eq_ok_iff.mpr ⟨fun hand => ?_, rfl⟩⟩
  cases hand with
  | upper => exact upperNotes
  | lower => exact lowerNotes

/-! ## Documents with forged markers -/

/-- No marker can be filled when nothing is parked. Its digits are read as any numeral is. -/
theorem parkedText_nil (digits : Text) :
    parkedText [] digits =
      .error (if (Text.readNat? digits).isNone then .markerTooLong else .markerOutOfRange) := by
  have positive : ∀ exponent, 0 < Nat.pow 10 exponent := fun _ => Nat.pow_pos (by decide)
  have limit : markerDigits [] = Text.maxDigits := markerDigits_eq (positive Text.maxDigits)
  rw [parkedText, limit, ← Text.readNat?]
  cases Text.readNat? digits <;> rfl

/-- Filling fails where an item that cannot be filled is. -/
theorem exists_fault_fillPieces {α : Type} {fill : α → Except Fault Text} {value : α}
    (refused : ∃ fault, fill value = .error fault) {pieces : List (Text.Piece α)}
    (member : .item value ∈ pieces) : ∃ fault, fillPieces fill pieces = .error fault := by
  induction pieces with
  | nil => cases member
  | cons piece rest ih =>
      cases piece with
      | plain c =>
          obtain ⟨fault, later⟩ := ih (List.mem_of_ne_of_mem (by simp) member)
          exact ⟨fault, by rw [fillPieces, later]; rfl⟩
      | item other =>
          cases here : fill other with
          | error fault => exact ⟨fault, by rw [fillPieces, here]; rfl⟩
          | ok text =>
              have different : Text.Piece.item value ≠ .item other := by
                rintro same
                obtain ⟨fault, failed⟩ := refused
                cases same
                rw [failed] at here
                cases here
              obtain ⟨fault, later⟩ := ih (List.mem_of_ne_of_mem different member)
              exact ⟨fault, by rw [fillPieces, here, later]; rfl⟩

/-- A body without commands is left as it is by every round. -/
theorem settled_of_no_command (table : Variables) {body : Text} (noCommand : '\\' ∉ body)
    (parked : List Text) : (⟨body, parked⟩ : Draft).Settled table where
  noBlocks := Text.pieces_eq_map_plain fun _ _ _ suffix =>
    transposedBlockAt_of_ne (ne_of_mem_of_not_mem (suffix.mem List.mem_cons_self) noCommand) _
  noReferences := Text.pieces_eq_map_plain fun _ _ _ suffix =>
    referenceAt_of_ne (ne_of_mem_of_not_mem (suffix.mem List.mem_cons_self) noCommand) table _

/-- A body without commands that holds a marker does not expand. -/
theorem exists_fault_expand (table : Variables) (budget : Nat) {body : Text}
    (noCommand : '\\' ∉ body) (forged : Text.items markerAt body ≠ []) :
    ∃ fault, expand table (budget + 1) 0 body = .error fault := by
  obtain ⟨digits, more, items⟩ := List.exists_cons_of_ne_nil forged
  have member : digits ∈ Text.items markerAt body := by
    rw [items]
    exact List.mem_cons_self
  have place := Text.mem_filterMap_item?.mp member
  have rounds := @expandRounds_stable table 0 _
    (settled_of_no_command table noCommand []) (budget + 1)
  obtain ⟨fault, failed⟩ := exists_fault_fillPieces ⟨_, parkedText_nil digits⟩ place
  refine ⟨fault, ?_⟩
  rw [expand, if_neg (Nat.succ_ne_zero budget), rounds]
  exact failed

/-- A declared voice without commands that holds a marker leaves its document without a score. -/
theorem exists_fault_of_forged {source anchor inside rest body after : Text} {hand : Hand}
    (declared : Text.firstItem? (declarationAt hand) source = some ((anchor, inside), rest))
    (closes : splitBlock? inside = some (body, after)) (noCommand : '\\' ∉ body)
    (forged : Text.items markerAt body ≠ []) :
    ∃ fault, Score.ofSource source = .error fault := by
  obtain ⟨fault, failed⟩ := exists_fault_expand (.ofSource source) 49 noCommand forged
  refine exists_fault_ofSource_iff.mpr ⟨hand, fault, ?_⟩
  rw [declaredVoice_eq declared, closes]
  exact bind_eq_error_iff.mpr (.inl failed)

/-- **Which documents have a score.** A document in which no marker edge stands before a digit has a
score: unbalanced braces, unknown references and variables that refer to themselves are no
faults. A document that declares a voice without commands in which a marker stands has none. -/
theorem score_unless_forged (source : Text) :
    (Unforged source → ∃ score, Score.ofSource source = .ok score) ∧
      ∀ (hand : Hand) (anchor inside rest body after : Text),
        Text.firstItem? (declarationAt hand) source = some ((anchor, inside), rest) →
        splitBlock? inside = some (body, after) → '\\' ∉ body →
        Text.items markerAt body ≠ [] → ∃ fault, Score.ofSource source = .error fault :=
  ⟨exists_ofSource_of_unforged, fun _ _ _ _ _ _ => exists_fault_of_forged⟩

/-- An edge before a note is no marker, and an edge before a digit and an edge is one. -/
theorem score_unless_forged_edges :
    (∃ score, Score.ofSource
      "upper = \\relative c \x7b \x00c\x00 \\m \x7d m = \x7b \\m \x7d".toList = .ok score) ∧
      ∃ fault, Score.ofSource "lower = \\relative c \x7b c \x007\x00 \x7d".toList = .error fault :=
  ⟨(score_unless_forged _).1 (by decide +kernel),
    (score_unless_forged _).2 .lower "c".toList " c \x007\x00 \x7d".toList
      " c \x007\x00 \x7d".toList " c \x007\x00 ".toList [] (by decide +kernel) (by decide +kernel)
      (by decide +kernel) (by decide +kernel)⟩

/-- Not every document has a score: nothing is parked that the marker in this one could stand for. -/
theorem not_forall_exists_score : ¬ ∀ source, ∃ score, Score.ofSource source = .ok score := by
  intro all
  obtain ⟨score, found⟩ := all "upper = \\relative c \x7b \x005\x00 \x7d".toList
  have none : (Score.ofSource "upper = \\relative c \x7b \x005\x00 \x7d".toList).toOption = none := by
    decide +kernel
  rw [found] at none
  cases none

end Clavier
