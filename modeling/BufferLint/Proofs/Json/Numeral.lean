import BufferLint.Json.Printer
import Mathlib.Data.List.DropRight

/-! What a printed number looks like: a whole part without zeros in front, and perhaps a fraction
and an exponent. -/
namespace BufferLint.Json

structure Digits (cs : List Char) : Prop where
  some : cs ≠ []
  all : ∀ c ∈ cs, c.isDigit = true

/-- The part before the point. No zero stands in front of other digits. -/
inductive Whole : List Char → Prop where
  | zero : Whole ['0']
  | digits {c : Char} {rest : List Char} (nonzero : c ≠ '0')
      (all : ∀ d ∈ c :: rest, d.isDigit = true) : Whole (c :: rest)

inductive Fraction : List Char → Prop where
  | none : Fraction []
  | digits {ds : List Char} (digits : Digits ds) : Fraction ('.' :: ds)

inductive Exponent : List Char → Prop where
  | none : Exponent []
  | digits {sign : Char} {ds : List Char} (signed : sign = '-' ∨ sign = '+')
      (digits : Digits ds) : Exponent ('e' :: sign :: ds)

inductive Unsigned : List Char → Prop where
  | parts {whole fraction exponent : List Char} (isWhole : Whole whole)
      (isFraction : Fraction fraction) (isExponent : Exponent exponent) :
      Unsigned (whole ++ fraction ++ exponent)

inductive Numeral : List Char → Prop where
  | unsigned {cs : List Char} (isUnsigned : Unsigned cs) : Numeral cs
  | negative {cs : List Char} (isUnsigned : Unsigned cs) : Numeral ('-' :: cs)

theorem digit_range {c : Char} (digit : c.isDigit = true) : 48 ≤ c.toNat ∧ c.toNat ≤ 57 := by
  simpa [Char.isDigit, UInt32.le_iff_toNat_le] using digit

theorem digit_unsigned {c : Char} (digit : c.isDigit = true) : c ≠ '-' ∧ c ≠ '+' := by
  constructor <;> (rintro rfl; simp at digit)

theorem Whole.isDigits {cs : List Char} (whole : Whole cs) : Digits cs := by
  cases whole with
  | zero => exact ⟨by simp, by simp⟩
  | digits nonzero all => exact ⟨by simp, all⟩

theorem Whole.isUnsigned {cs : List Char} (whole : Whole cs) : Unsigned cs := by
  simpa using Unsigned.parts whole .none .none

theorem Unsigned.first {cs : List Char} (isUnsigned : Unsigned cs) :
    ∃ c rest, cs = c :: rest ∧ c.isDigit = true := by
  obtain ⟨isWhole, _, _⟩ := isUnsigned
  obtain ⟨c, rest, same⟩ := List.exists_cons_of_ne_nil isWhole.isDigits.some
  refine ⟨c, _, by rw [same, List.cons_append, List.cons_append], ?_⟩
  exact isWhole.isDigits.all c (same ▸ List.mem_cons_self)

theorem Numeral.first {cs : List Char} (numeral : Numeral cs) :
    ∃ c rest, cs = c :: rest ∧ (c = '-' ∨ c.isDigit = true) := by
  cases numeral with
  | negative isUnsigned => exact ⟨'-', _, rfl, .inl rfl⟩
  | unsigned isUnsigned =>
    obtain ⟨c, rest, same, digit⟩ := isUnsigned.first
    exact ⟨c, rest, same, .inr digit⟩

theorem digits_toDigits (n : Nat) : Digits (Nat.toDigits 10 n) :=
  ⟨Nat.toDigits_ne_nil,
    fun _ member => Nat.isDigit_of_mem_toDigits (b := 10) (by omega) (by omega) member⟩

theorem toDigits_eq_cons {n : Nat} (positive : 0 < n) :
    ∃ c rest, Nat.toDigits 10 n = c :: rest ∧ c ≠ '0' := by
  induction n using Nat.strongRecOn with
  | ind n ih =>
    rw [Nat.toDigits_eq_if (by omega)]
    split
    · rename_i small
      refine ⟨_, [], rfl, ?_⟩
      rw [ne_eq, Nat.digitChar_eq_zero]
      omega
    · rename_i large
      obtain ⟨c, rest, digits, nonzero⟩ := ih (n / 10) (by omega) (by omega)
      exact ⟨c, rest ++ [Nat.digitChar (n % 10)], by rw [digits, List.cons_append], nonzero⟩

theorem whole_toDigits (n : Nat) : Whole (Nat.toDigits 10 n) := by
  rcases Nat.eq_zero_or_pos n with rfl | positive
  · exact .zero
  · have all := (digits_toDigits n).all
    obtain ⟨c, rest, digits, nonzero⟩ := toDigits_eq_cons positive
    rw [digits] at all ⊢
    exact .digits nonzero all

theorem text_ofNat (n : Nat) : (toString (Int.ofNat n)).toList = Nat.toDigits 10 n := by
  change (Nat.repr n).toList = _
  rw [Nat.repr_eq_ofList_toDigits, String.toList_ofList]

theorem text_negSucc (n : Nat) :
    (toString (Int.negSucc n)).toList = '-' :: Nat.toDigits 10 (n + 1) := by
  change ("-" ++ Nat.repr (n + 1)).toList = _
  simp [Nat.repr_eq_ofList_toDigits]

theorem numeral_integer (i : Int) : Numeral (toString i).toList := by
  cases i with
  | ofNat n =>
    rw [text_ofNat]
    exact .unsigned (whole_toDigits n).isUnsigned
  | negSucc n =>
    rw [text_negSucc]
    exact .negative (whole_toDigits (n + 1)).isUnsigned

open Decimal

/-- Of two neighbours on a grid the lower one is not taken when it is zero. -/
theorem neighbour_positive {down : Nat} {downHolds upIn nearer : Bool} {exponent : Int}
    {d : Scientific}
    (found : (if decide (down ≠ 0) && downHolds && upIn then
        if nearer then some ⟨down, exponent⟩ else some ⟨down + 1, exponent⟩
      else if decide (down ≠ 0) && downHolds then some ⟨down, exponent⟩
      else if upIn then some ⟨down + 1, exponent⟩ else none) = some d) : 0 < d.digits := by
  by_cases positive : down = 0
  · cases upIn with
    | false => simp [positive] at found
    | true =>
      simp only [positive, ne_eq, not_true_eq_false, decide_false, Bool.false_and,
        Bool.false_eq_true, if_false, if_true] at found
      cases Option.some.inj found
      exact Nat.succ_pos 0
  · have either : d.digits = down ∨ d.digits = down + 1 := by
      cases downHolds <;> cases upIn <;> cases nearer <;> simp [positive] at found <;>
        simp [← found]
    omega

theorem onGrid_positive {i : Interval} {unit : Nat × Nat} {exponent : Int} {d : Scientific}
    (found : onGrid i unit exponent = some d) : 0 < d.digits := by
  by_cases below : exponent < 0
  · simp only [onGrid, if_pos below] at found
    exact neighbour_positive found
  · simp only [onGrid, if_neg below] at found
    exact neighbour_positive found

theorem shortestSearch_positive (i : Interval) (unit : Nat × Nat) (top : Int)
    (positive : 0 < i.value) (fuel places : Nat) :
    0 < (shortestSearch i unit top fuel places).digits := by
  induction fuel generalizing places with
  | zero => exact positive
  | succ fuel ih =>
    rw [shortestSearch]
    cases found : onGrid i unit (top - places) with
    | none => exact ih (places + 1)
    | some d => exact onGrid_positive found

theorem shortest_positive {x : Binary64} (nonzero : x.isZero = false) :
    0 < (shortest x).digits := by
  have magnitude : x.magnitude ≠ 0 := by simpa [Binary64.isZero] using nonzero
  have significand : 0 < x.parts.1 := by
    unfold Binary64.parts
    dsimp only
    split
    · rename_i small
      have below : x.magnitude < Binary64.hiddenBit := by
        simpa [Binary64.hiddenBit, Nat.div_eq_zero_iff] using small
      rw [Nat.mod_eq_of_lt below]
      omega
    · exact Nat.lt_of_lt_of_le (by decide) (Nat.le_add_right Binary64.hiddenBit _)
  have unfolded : shortest x = shortestSearch (.ofParts x.parts.1 x.parts.2)
      (scaled 1 4 x.parts.2) (floorLog10 x.ratio.1 x.ratio.2) 17 0 := rfl
  rw [unfolded]
  refine shortestSearch_positive _ _ _ ?_ _ _
  simp only [Interval.ofParts]
  omega

/-- Digits without zeros at the end still begin with the first. -/
theorem normal_digits {d : Scientific} (positive : 0 < d.digits) :
    ∃ c rest, d.normal.1 = c :: rest ∧ c ≠ '0' ∧ ∀ e ∈ c :: rest, e.isDigit = true := by
  obtain ⟨c, rest, digits, nonzero⟩ := toDigits_eq_cons positive
  have all := (digits_toDigits d.digits).all
  have stripped : d.normal.1 = (Nat.toDigits 10 d.digits).rdropWhile (· == '0') := rfl
  have before : d.normal.1 <+: c :: rest := by
    rw [stripped, ← digits]
    exact List.rdropWhile_prefix _ _
  have some : d.normal.1 ≠ [] := by
    rw [stripped, ne_eq, List.rdropWhile_eq_nil_iff, digits]
    intro zeros
    exact nonzero (by simpa using zeros c List.mem_cons_self)
  obtain ⟨first, tail, same⟩ := List.exists_cons_of_ne_nil some
  rw [same] at before ⊢
  obtain ⟨rfl, _⟩ := List.cons_prefix_cons.mp before
  refine ⟨first, tail, rfl, nonzero, ?_⟩
  intro e member
  exact all e (digits ▸ before.subset member)

section layouts

variable {c : Char} {rest : List Char}

theorem unsigned_scientific (nonzero : c ≠ '0') (all : ∀ e ∈ c :: rest, e.isDigit = true)
    {sign : Char} (signed : sign = '-' ∨ sign = '+') (power : Nat) :
    Unsigned ((match c :: rest with
      | [] => []
      | [d] => [d]
      | d :: rest => d :: '.' :: rest) ++ ['e', sign] ++ Nat.toDigits 10 power) := by
  have first : Whole [c] := .digits nonzero (by simpa using all c List.mem_cons_self)
  have mark : Exponent ('e' :: sign :: Nat.toDigits 10 power) :=
    .digits signed (digits_toDigits power)
  cases rest with
  | nil => simpa using Unsigned.parts first .none mark
  | cons next more =>
    have behind : Digits (next :: more) :=
      ⟨by simp, fun e member => all e (List.mem_cons_of_mem c member)⟩
    simpa using Unsigned.parts first (.digits behind) mark

theorem unsigned_small (all : ∀ e ∈ c :: rest, e.isDigit = true) (zeros : Nat) :
    Unsigned (['0', '.'] ++ List.replicate zeros '0' ++ c :: rest) := by
  have behind : Digits (List.replicate zeros '0' ++ c :: rest) := by
    refine ⟨by simp, ?_⟩
    intro e member
    rcases List.mem_append.mp member with zero | digit
    · rw [(List.mem_replicate.mp zero).2]
      decide
    · exact all e digit
  simpa using Unsigned.parts .zero (.digits behind) .none

theorem unsigned_positional (nonzero : c ≠ '0') (all : ∀ e ∈ c :: rest, e.isDigit = true)
    (places : Nat) :
    Unsigned ((c :: rest).take (places + 1) ++ ['.'] ++
      (if ((c :: rest).drop (places + 1)).isEmpty then ['0']
      else (c :: rest).drop (places + 1))) := by
  have before : Whole ((c :: rest).take (places + 1)) := by
    rw [List.take_succ_cons]
    refine .digits nonzero ?_
    intro e member
    exact all e ((List.take_subset (places + 1) (c :: rest)) (by simpa using member))
  have behind : Digits (if ((c :: rest).drop (places + 1)).isEmpty then ['0']
      else (c :: rest).drop (places + 1)) := by
    split
    · exact Whole.zero.isDigits
    · rename_i some
      refine ⟨by simpa using some, ?_⟩
      intro e member
      exact all e (List.mem_of_mem_drop member)
  simpa using Unsigned.parts before (.digits behind) .none

end layouts

theorem numeral_double (x : Binary64) : Numeral (numberText x) := by
  have signed : ∀ {cs : List Char}, Unsigned cs →
      Numeral ((if x.isNegative then ['-'] else []) ++ cs) := by
    intro cs isUnsigned
    cases x.isNegative with
    | true => exact .negative isUnsigned
    | false => exact .unsigned isUnsigned
  unfold numberText
  dsimp only
  split
  · exact signed (.parts .zero (.digits Whole.zero.isDigits) .none)
  · rename_i nonzero
    obtain ⟨c, rest, digits, head, all⟩ :=
      normal_digits (shortest_positive (Bool.not_eq_true _ ▸ nonzero))
    rw [digits]
    refine signed ?_
    split
    · by_cases down : (shortest x).normal.2 < 0
      · rw [if_pos down]
        exact unsigned_scientific head all (.inl rfl) _
      · rw [if_neg down]
        exact unsigned_scientific head all (.inr rfl) _
    · split
      · exact unsigned_small all _
      · refine unsigned_positional head ?_ _
        intro e (member : e ∈ c :: rest ++ _)
        rcases List.mem_append.mp member with digit | zero
        · exact all e digit
        · rw [(List.mem_replicate.mp zero).2]
          decide

theorem Number.numeral (n : Number) : Numeral n.text := by
  cases n with
  | integer i => exact numeral_integer i
  | double x => exact numeral_double x

end BufferLint.Json
