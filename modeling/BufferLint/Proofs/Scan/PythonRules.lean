import BufferLint.Proofs.Scan.Rules

/-! The rules of Python, exactly. Each line is looked at by itself, so it is enough to tell which
lines call for a finding, by the characters at their places and without the walk along them. -/
namespace BufferLint.Scan.Python

open BufferLint.Text

open Script (Place occurs_iff)

def At (kind : Char → Prop) (l : List Char) (i : Nat) : Prop := ∃ c ∈ l[i]?, kind c

def Blank (c : Char) : Prop := isBlank c = true

def Value (c : Char) : Prop := ('0' ≤ c ∧ c ≤ '9') ∨ c = '\x22' ∨ c = '\x27'

/-- Two values with blanks between them, at least one, and nothing else. -/
def SideBySide (l : List Char) : Prop :=
  ∃ j < l.length, ∃ i < j, i + 2 ≤ j ∧ At Value l i ∧ At Value l j ∧ ∀ k < j, i < k → At Blank l k

def Mixed (l : List Char) : Prop := '\t' ∈ l ∧ List.replicate 4 ' ' <:+: l

/-- More square and round brackets are opened than closed, two values stand side by side, and no
comma separates anything. -/
def Unseparated (l : List Char) : Prop :=
  l.countP (· ∈ [']', ')']) < l.countP (· ∈ ['[', '(']) ∧ ',' ∉ l ∧ SideBySide l

instance (kind : Char → Prop) [DecidablePred kind] (l : List Char) : DecidablePred (At kind l) :=
  fun i => Option.decidableExistsMem l[i]?

instance : DecidablePred Blank := fun c => inferInstanceAs (Decidable (isBlank c = true))

instance : DecidablePred Value := fun _ => inferInstanceAs (Decidable (_ ∨ _))

instance : DecidablePred SideBySide := fun l =>
  inferInstanceAs (Decidable (∃ j < l.length, ∃ i < j, _))

instance : DecidablePred Mixed := fun _ => inferInstanceAs (Decidable (_ ∧ _))

instance : DecidablePred Unseparated := fun _ => inferInstanceAs (Decidable (_ ∧ _ ∧ _))

section

variable {kind : Char → Prop} {c : Char} {l rest : List Char} {i : Nat}

@[simp] theorem at_nil : ¬ At kind [] i := by
  simp [At]

@[simp] theorem at_zero : At kind (c :: rest) 0 ↔ kind c := by
  simp [At]

@[simp] theorem at_succ : At kind (c :: rest) (i + 1) ↔ At kind rest i := by
  simp [At]

theorem At.lt (here : At kind l i) : i < l.length := by
  obtain ⟨c, found, _⟩ := here
  exact (List.getElem?_eq_some_iff.mp found).1

theorem isValue_iff (c : Char) : isValue c = true ↔ Value c := by
  have digit : c.isDigit = true ↔ '0' ≤ c ∧ c ≤ '9' := by
    simp [Char.isDigit, Char.le_def]
  simp [isValue, Value, digit, or_assoc]

theorem Value.not_blank (value : Value c) : ¬ Blank c := by
  rcases value with ⟨low, high⟩ | rfl | rfl
  · change 48 ≤ c.toNat at low
    change c.toNat ≤ 57 at high
    simp only [Blank, isBlank, Bool.or_eq_true, Bool.and_eq_true, decide_eq_true_eq, beq_iff_eq]
    omega
  · decide
  · decide

theorem head_value_iff (cs : List Char) : (cs.dropWhile isBlank).head?.any isValue = true ↔
    ∃ n, At Value cs n ∧ ∀ k < n, At Blank cs k := by
  induction cs with
  | nil => simp
  | cons c rest ih =>
    rw [List.dropWhile_cons]
    split
    · rename_i blank
      rw [ih]
      constructor
      · rintro ⟨n, value, before⟩
        refine ⟨n + 1, at_succ.mpr value, fun k low => ?_⟩
        cases k with
        | zero => exact at_zero.mpr blank
        | succ k => exact at_succ.mpr (before k (by omega))
      · rintro ⟨n, value, before⟩
        cases n with
        | zero => exact absurd blank (at_zero.mp value).not_blank
        | succ n =>
          exact ⟨n, at_succ.mp value, fun k low => at_succ.mp (before (k + 1) (by omega))⟩
    · rename_i solid
      rw [List.head?_cons, Option.any_some, isValue_iff]
      constructor
      · exact fun value => ⟨0, at_zero.mpr value, fun k low => absurd low (Nat.not_lt_zero k)⟩
      · rintro ⟨n, value, before⟩
        cases n with
        | zero => exact at_zero.mp value
        | succ n => exact absurd (at_zero.mp (before 0 (Nat.succ_pos n))) solid

theorem gapThenValue_iff (cs : List Char) : gapThenValue cs = true ↔
    ∃ n, 0 < n ∧ At Value cs n ∧ ∀ k < n, At Blank cs k := by
  rw [gapThenValue, Bool.and_eq_true, head_value_iff]
  cases cs with
  | nil => simp
  | cons c rest =>
    rw [List.head?_cons, Option.any_some]
    constructor
    · rintro ⟨blank, n, value, before⟩
      refine ⟨n, Nat.pos_of_ne_zero ?_, value, before⟩
      rintro rfl
      exact (at_zero.mp value).not_blank blank
    · rintro ⟨n, positive, value, before⟩
      exact ⟨at_zero.mp (before 0 positive), n, value, before⟩

theorem sideBySide_cons : SideBySide (c :: rest) ↔
    (Value c ∧ ∃ n, 0 < n ∧ At Value rest n ∧ ∀ k < n, At Blank rest k) ∨ SideBySide rest := by
  constructor
  · rintro ⟨j, _, i, _, apart, first, second, between⟩
    obtain ⟨n, rfl⟩ : ∃ n, j = n + 1 := ⟨j - 1, by omega⟩
    cases i with
    | zero =>
      refine .inl ⟨at_zero.mp first, n, by omega, at_succ.mp second, fun k low => ?_⟩
      exact at_succ.mp (between (k + 1) (by omega) (by omega))
    | succ i =>
      have second := at_succ.mp second
      refine .inr ⟨n, second.lt, i, by omega, by omega, at_succ.mp first, second, ?_⟩
      exact fun k low above => at_succ.mp (between (k + 1) (by omega) (by omega))
  · rintro (⟨value, n, positive, second, between⟩ |
      ⟨j, inside, i, before, apart, first, second, between⟩)
    · refine ⟨n + 1, Nat.succ_lt_succ second.lt, 0, by omega, by omega, at_zero.mpr value,
        at_succ.mpr second, fun k low above => ?_⟩
      obtain ⟨k, rfl⟩ : ∃ m, k = m + 1 := ⟨k - 1, by omega⟩
      exact at_succ.mpr (between k (by omega))
    · refine ⟨j + 1, Nat.succ_lt_succ inside, i + 1, by omega, by omega, at_succ.mpr first,
        at_succ.mpr second, fun k low above => ?_⟩
      obtain ⟨k, rfl⟩ : ∃ m, k = m + 1 := ⟨k - 1, by omega⟩
      exact at_succ.mpr (between k (by omega) (by omega))

theorem adjacentValues_iff (l : List Char) : adjacentValues l = true ↔ SideBySide l := by
  induction l with
  | nil => simp [adjacentValues, SideBySide]
  | cons c rest ih =>
    rw [adjacentValues, Bool.or_eq_true, Bool.and_eq_true, isValue_iff, gapThenValue_iff, ih,
      sideBySide_cons]

theorem mixedIndentation_iff (l : List Char) : mixedIndentation l = true ↔ Mixed l := by
  rw [mixedIndentation, Bool.and_eq_true, occurs_iff, List.contains_iff_mem]
  rfl

theorem missingComma_iff (l : List Char) : missingComma l = true ↔ Unseparated l := by
  have opens : l.countP (fun c => c == '[' || c == '(') = l.countP (· ∈ ['[', '(']) :=
    List.countP_congr (by simp)
  have closes : l.countP (fun c => c == ']' || c == ')') = l.countP (· ∈ [']', ')']) :=
    List.countP_congr (by simp)
  simp [missingComma, Unseparated, adjacentValues_iff, opens, closes, and_assoc]

end

/-- All that a finding says: its place in natural numbers, its rule, how much it matters, its
message and its source. -/
abbrev Remark := Place × Option String × Severity × String × String

def told (d : Diagnostic) : Remark := (spot d, d.rule, d.severity, d.message, d.source)

/-- What a line calls for: mixed indentation is told at its first character, and values that lack a
comma at its last. -/
def calledFor (line : Nat) (l : List Char) : List Remark :=
  (if Mixed l then
    [(⟨line, 0⟩, some "mixed-indentation", .warning, "Mixed tabs and spaces", "Local Checker")]
    else []) ++
  (if Unseparated l then
    [(⟨line, l.length - 1⟩, some "missing-comma", .warning, "Missing comma in list or tuple",
      "Local Checker")]
    else [])

theorem lineFindings_told {line : Nat} {l : List Char} (low : line < UInt32.size)
    (left : l.length < UInt32.size) : (lineFindings line l).map told = calledFor line l := by
  have last : lastColumn l < UInt32.size := Nat.lt_of_le_of_lt (Nat.sub_le _ _) left
  have first : told (.place line 0 "Mixed tabs and spaces" .warning localSource
      "mixed-indentation") = (⟨line, 0⟩, some "mixed-indentation", .warning,
        "Mixed tabs and spaces", "Local Checker") := by
    rw [told, spot_place low (by decide)]
    rfl
  have second : told (.place line (lastColumn l) "Missing comma in list or tuple" .warning
      localSource "missing-comma") = (⟨line, l.length - 1⟩, some "missing-comma", .warning,
        "Missing comma in list or tuple", "Local Checker") := by
    rw [told, spot_place low last]
    rfl
  simp only [lineFindings, calledFor, ← mixedIndentation_iff, ← missingComma_iff]
  split <;> split <;> simp [first, second]

/-- A scan tells exactly what the lines call for, one line after the other. -/
theorem lines_are_checked_exactly (content : List Char) (short : content.length < UInt32.size) :
    (scan content).map told =
      (lines content).zipIdx.flatMap (fun x => calledFor x.2 (dropReturn x.1)) := by
  rw [scan, List.map_flatMap]
  refine List.flatMap_congr fun x member => ?_
  have fits := fits_lines short
  have number := List.snd_lt_of_mem_zipIdx member
  have inside := fits.columns x.1 (List.fst_mem_of_mem_zipIdx member)
  have shorter := length_dropReturn_le x.1
  have lines := fits.lines
  exact lineFindings_told (by omega) (by omega)

/-- A line with both findings and a carriage return, one with quotes and a wide blank, one that
separates, and one where nothing is between the digits. -/
theorem lines_are_checked_exactly_mixed :
    let content := "\t    x = [1 2\r\n['a'\u3000\x22b\x22\nf(1, 2 3\n(12".toList
    content.length < UInt32.size ∧ (scan content).map told =
      [(⟨0, 0⟩, some "mixed-indentation", .warning, "Mixed tabs and spaces", "Local Checker"),
        (⟨0, 12⟩, some "missing-comma", .warning, "Missing comma in list or tuple",
          "Local Checker"),
        (⟨1, 7⟩, some "missing-comma", .warning, "Missing comma in list or tuple",
          "Local Checker")] := by
  intro content
  have short : content.length < UInt32.size := by decide
  exact ⟨short, (lines_are_checked_exactly content short).trans (by decide +kernel)⟩

end BufferLint.Scan.Python
