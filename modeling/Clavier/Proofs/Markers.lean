import Clavier.Voice.Expansion
import Clavier.Proofs.Runs
import Clavier.Proofs.Scanning

/-!
# Place markers

Parking numbers the items of a text from left to right, starting with the number of
texts parked before, and appends their finished texts to the list (`parkPieces_eq`). The
numeral of a parked text is always read back (`parkedText_ofNat`), so filling replaces the
marker of a parked text by that text (`fillMarkers_marker`). It keeps every text in which no
marker edge stands before a digit (`fillMarkers_append`), because nothing there looks like the
start of a marker.
-/

set_option autoImplicit false

namespace Clavier

/-! ## Numerals -/

namespace Text

theorem digitValue?_of_ascii {c : Char} (digit : c.isDigit = true) :
    digitValue? c = some (c.toNat - '0'.toNat) := by
  simp only [Char.isDigit, Bool.and_eq_true, decide_eq_true_eq] at digit
  have low : '0' ≤ c := digit.1
  have high : c ≤ '9' := digit.2
  simp [digitValue?, low, high]

theorem isDigit_of_mem_ofNat {n : Nat} {c : Char} (member : c ∈ ofNat n) : isDigit c = true := by
  have digit := Nat.isDigit_of_mem_toDigits (by decide) (by decide) member
  rw [isDigit, digitValue?_of_ascii digit]
  rfl

/-- A run of ASCII digits holds no underscores, so its groups are single digits. -/
theorem groupedDigits?_of_ascii {text : Text} (nonempty : text ≠ [])
    (digits : ∀ c ∈ text, c.isDigit = true) :
    groupedDigits? text = some (text.map fun c => c.toNat - '0'.toNat) := by
  induction text with
  | nil => exact absurd rfl nonempty
  | cons c rest ih =>
      have first := digitValue?_of_ascii (digits c List.mem_cons_self)
      cases rest with
      | nil => simp [groupedDigits?, first]
      | cons d more =>
          have others := ih (List.cons_ne_nil _ _) fun e member =>
            digits e (List.mem_cons_of_mem c member)
          have plain : d ≠ '_' := by
            rintro rfl
            exact absurd (digits '_' (List.mem_cons_of_mem c List.mem_cons_self)) (by decide)
          rw [groupedDigits?]
          · simp [first, others]
          · intro same
            cases same
          · intro rest same
            exact plain (List.cons.inj same).1

/-- A numeral is read back as its number, if the limit allows its digits. -/
theorem readNatUpTo?_ofNat {limit n : Nat} (short : (ofNat n).length ≤ limit) :
    readNatUpTo? limit (ofNat n) = some n := by
  have digits : ∀ c ∈ ofNat n, c.isDigit = true := fun c member =>
    Nat.isDigit_of_mem_toDigits (by decide) (by decide) member
  have value : digitsValue ((ofNat n).map fun c => c.toNat - '0'.toNat) = n := by
    rw [digitsValue, List.foldl_map]
    exact Nat.ofDigitChars_ten_toDigits
  have nonempty : ofNat n ≠ [] := Nat.toDigits_ne_nil
  simp only [readNatUpTo?, groupedDigits?_of_ascii nonempty digits, bind, Option.bind_some,
    List.length_map, short, if_true, value]

/-- A smaller number has no more digits. -/
theorem length_ofNat_le {m n : Nat} (le : m ≤ n) : (ofNat m).length ≤ (ofNat n).length := by
  have positive : 0 < (ofNat n).length := Nat.length_toDigits_pos
  have bound := (Nat.length_toDigits_le_iff (by decide) positive).mp (Nat.le_refl _)
  exact (Nat.length_toDigits_le_iff (by decide) positive).mpr (Nat.lt_of_le_of_lt le bound)

end Text

/-- The numeral of a parked text stands for it, however many texts are parked. -/
theorem parkedText_ofNat {parked : List Text} {number : Nat} {text : Text}
    (found : parked[number]? = some text) : parkedText parked (Text.ofNat number) = .ok text := by
  have below : number ≤ parked.length := by
    obtain ⟨inside, -⟩ := List.getElem?_eq_some_iff.mp found
    exact Nat.le_of_lt inside
  have short : (Text.ofNat number).length ≤ markerDigits parked :=
    Nat.le_trans (Text.length_ofNat_le below) (Nat.le_max_right _ _)
  simp only [parkedText, Text.readNatUpTo?_ofNat short, found]

/-! ## Filling -/

theorem markerAt_marker (before : Option Char) (number : Nat) (rest : Text) :
    markerAt before (marker number ++ rest) = some (Text.ofNat number, rest) := by
  have run : takeRun? Text.isDigit (Text.ofNat number ++ markerEdge :: rest) =
      some (Text.ofNat number, markerEdge :: rest) :=
    takeRun?_eq_some_iff.mpr ⟨Nat.toDigits_ne_nil, rfl,
      fun _ member => Text.isDigit_of_mem_ofNat member, Text.stops_cons.mpr rfl⟩
  simp only [marker, List.cons_append, List.append_assoc, List.nil_append, markerAt, if_true, run]

theorem markerAt_of_ne {c : Char} (other : c ≠ markerEdge) (before : Option Char) (rest : Text) :
    markerAt before (c :: rest) = none := by
  simp only [markerAt, if_neg other]

theorem fillPieces_append {α : Type} (fill : α → Except Fault Text) (run : Text)
    (rest : List (Text.Piece α)) :
    fillPieces fill (run.map .plain ++ rest) = (fillPieces fill rest).map (run ++ ·) := by
  induction run with
  | nil => cases h : fillPieces fill rest <;> simp [h, Except.map]
  | cons c more ih =>
      rw [List.map_cons, List.cons_append, fillPieces, ih]
      cases fillPieces fill rest <;> rfl

/-- A text in which no marker edge stands before a digit. -/
def Unforged (text : Text) : Prop :=
  ∀ rest, markerEdge :: rest <:+ text → Text.Stops Text.isDigit rest

theorem unforged_of_not_mem {text : Text} (clean : markerEdge ∉ text) : Unforged text :=
  fun _ place => absurd (place.mem List.mem_cons_self) clean

theorem unforged_cons {c : Char} {rest : Text} :
    Unforged (c :: rest) ↔ (c = markerEdge → Text.Stops Text.isDigit rest) ∧ Unforged rest := by
  constructor
  · intro unforged
    refine ⟨?_, fun more place => unforged more (place.trans (List.suffix_cons c rest))⟩
    rintro rfl
    exact unforged rest (List.suffix_refl _)
  · rintro ⟨here, later⟩ more place
    rcases List.suffix_cons_iff.mp place with same | inside
    · obtain ⟨rfl, rfl⟩ := List.cons.inj same
      exact here rfl
    · exact later more inside

instance decidableUnforged : (text : Text) → Decidable (Unforged text)
  | [] => .isTrue (unforged_of_not_mem List.not_mem_nil)
  | _ :: rest =>
      have := decidableUnforged rest
      decidable_of_iff _ unforged_cons.symm

/-- Whatever is cut out of a text holds no edge before a digit either. -/
theorem Unforged.inside {text part : Text} (unforged : Unforged text) (inside : part <:+: text) :
    Unforged part := by
  obtain ⟨front, back, rfl⟩ := inside
  rintro rest ⟨before, rfl⟩
  refine @Text.stops_of_append _ _ back (unforged (rest ++ back) ⟨front ++ before, ?_⟩)
  simp only [List.append_assoc, List.cons_append]

/-- A text without edges forges no marker with the text after it. -/
theorem Unforged.append_left {front text : Text} (unforged : Unforged text)
    (clean : markerEdge ∉ front) : Unforged (front ++ text) := by
  induction front with
  | nil => exact unforged
  | cons c more ih =>
      obtain ⟨noEdge, clean⟩ := not_or.mp (mt List.mem_cons.mpr clean)
      exact unforged_cons.mpr ⟨fun same => absurd same.symm noEdge, ih clean⟩

theorem markerAt_of_stops {rest : Text} (stops : Text.Stops Text.isDigit rest)
    (before : Option Char) : markerAt before (markerEdge :: rest) = none := by
  have noRun : takeRun? Text.isDigit rest = none := by
    have split : Text.splitWhile Text.isDigit rest = ([], rest) :=
      Text.splitWhile_eq_iff.mpr ⟨rfl, List.forall_mem_nil _, stops⟩
    rw [takeRun?, split]
  simp only [markerAt, if_true, noRun]

/-- Filling keeps a stretch in which no edge stands before a digit, unless a digit follows it. -/
theorem fillMarkers_append {run rest : Text} (unforged : Unforged run)
    (stops : Text.Stops Text.isDigit rest) (parked : List Text) :
    fillMarkers parked (run ++ rest) = (fillMarkers parked rest).map (run ++ ·) := by
  have scan : Text.pieces markerAt (run ++ rest) =
      run.map .plain ++ Text.pieces markerAt rest := by
    rw [Text.pieces, Text.piecesFrom_append_plain none]
    · exact congrArg _ (Text.piecesFrom_before rfl)
    · intro before c more suffix
      by_cases edge : c = markerEdge
      · subst edge
        refine markerAt_of_stops ?_ before
        cases more with
        | nil => exact stops
        | cons d others => exact unforged (d :: others) suffix
      · exact markerAt_of_ne edge before _
  rw [fillMarkers, scan, fillPieces_append]
  rfl

/-- Filling replaces the marker of a parked text by that text. -/
theorem fillMarkers_marker {parked : List Text} {number : Nat} {text : Text}
    (found : parked[number]? = some text) (rest : Text) :
    fillMarkers parked (marker number ++ rest) = (fillMarkers parked rest).map (text ++ ·) := by
  have scan : Text.pieces markerAt (marker number ++ rest) =
      .item (Text.ofNat number) :: Text.pieces markerAt rest := by
    rw [Text.pieces, marker, Text.piecesFrom_of_item (markerAt_marker none number rest)]
    exact congrArg _ (Text.piecesFrom_before rfl)
  rw [fillMarkers, scan, fillPieces, parkedText_ofNat found]
  change (fillPieces (parkedText parked) (Text.pieces markerAt rest) >>= _) = _
  rw [fillMarkers]
  cases fillPieces (parkedText parked) (Text.pieces markerAt rest) <;> rfl

/-! ## Parking -/

/-- The pieces of a text with the items numbered from left to right. -/
def numbered {α : Type} : Nat → List (Text.Piece α) → List (Text.Piece Nat)
  | _, [] => []
  | number, .plain c :: rest => .plain c :: numbered number rest
  | number, .item _ :: rest => .item number :: numbered (number + 1) rest

/-- **Parking.** When every item can be finished, each item gives way to the marker of its number,
and the finished texts are parked in the order of the items. -/
theorem parkPieces_eq {α : Type} {finish : α → Except Fault Text} {result : α → Text}
    {pieces : List (Text.Piece α)}
    (finished : ∀ value, .item value ∈ pieces → finish value = .ok (result value))
    (parked : List Text) :
    parkPieces finish parked pieces =
      .ok ⟨Text.writePieces marker (numbered parked.length pieces),
        parked ++ (pieces.filterMap Text.Piece.item?).map result⟩ := by
  induction pieces generalizing parked with
  | nil => simp [parkPieces, numbered]
  | cons piece rest ih =>
      have later := ih fun value member => finished value (List.mem_cons_of_mem piece member)
      cases piece with
      | plain c =>
          rw [parkPieces, later]
          rfl
      | item value =>
          rw [parkPieces, finished value List.mem_cons_self]
          change (parkPieces finish (parked ++ [result value]) rest >>= _) = _
          rw [later, List.length_append, List.append_assoc]
          rfl

end Clavier
