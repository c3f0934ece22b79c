import BufferLint.Json.Relaxed
import BufferLint.Proofs.Json.Numeral
import BufferLint.Proofs.Text.Encoding

/-! Whole numbers come back exactly as long as they fit 64 bits. -/
namespace BufferLint.Json

open BufferLint.Text

theorem encodeChar_ascii {c : Char} (ascii : c.toNat < 0x80) :
    String.utf8EncodeChar c = [byte c] := by
  rcases encodeChar_cases c with ⟨_, one⟩ | ⟨large, _⟩
  · exact one
  · omega

theorem toNat_byte {c : Char} (ascii : c.toNat < 0x80) : (byte c).toNat = c.toNat := by
  change c.toNat % 256 = c.toNat
  omega

theorem ascii_digit {c : Char} (digit : c.isDigit = true) : c.toNat < 0x80 := by
  have high := (digit_range digit).2
  omega

theorem byte_digit {c : Char} (digit : c.isDigit = true) :
    isDigitByte (byte c) = true ∧ digitValue (byte c) = c.toNat - '0'.toNat := by
  obtain ⟨low, high⟩ := digit_range digit
  have value := toNat_byte (ascii_digit digit)
  constructor
  · have zero : (byte '0').toNat = 48 := rfl
    have nine : (byte '9').toNat = 57 := rfl
    simp [isDigitByte, UInt8.le_iff_toNat_le, zero, nine, value, low, high]
  · rw [digitValue, value]
    rfl

theorem utf8_digits {ds : List Char} (all : ∀ c ∈ ds, c.isDigit = true) :
    utf8 (String.ofList ds) = ds.map byte := by
  rw [utf8_ofList]
  induction ds with
  | nil => rfl
  | cons c rest ih =>
    rw [encoded_cons, encodeChar_ascii (ascii_digit (all c List.mem_cons_self)),
      ih (fun d member => all d (List.mem_cons_of_mem c member))]
    rfl

theorem le_ofDigitChars (ds : List Char) (n : Nat) : n ≤ Nat.ofDigitChars 10 ds n := by
  induction ds generalizing n with
  | nil => exact Nat.le_refl n
  | cons c rest ih =>
    rw [Nat.ofDigitChars_cons]
    exact Nat.le_trans (by omega) (ih _)

/-- Bytes that do not go on with a number. -/
def Ended (rest : Bytes) : Prop :=
  ∀ b ∈ rest.head?, isDigitByte b = false ∧ (b == byte '.') = false ∧ isExponentMark b = false

theorem ended_nil : Ended [] := nofun

theorem finishWhole_ended (negative : Bool) (n : Nat) {rest : Bytes} (ended : Ended rest) :
    finishWhole negative n rest = .ok (wholeNumber negative n, rest) := by
  cases rest with
  | nil => rfl
  | cons b rest =>
    obtain ⟨_, point, mark⟩ := ended b rfl
    simp [finishWhole, point, mark]

theorem readWhole_ended (negative : Bool) (n : Nat) {rest : Bytes} (ended : Ended rest) :
    readWhole negative n rest = .ok (wholeNumber negative n, rest) := by
  cases rest with
  | nil => rfl
  | cons b rest =>
    rw [readWhole, (ended b rfl).1]
    exact finishWhole_ended negative n ended

theorem readWhole_digits (negative : Bool) {ds : List Char} (all : ∀ c ∈ ds, c.isDigit = true)
    (n : Nat) (fits : Nat.ofDigitChars 10 ds n ≤ largestWord) {rest : Bytes}
    (ended : Ended rest) :
    readWhole negative n (ds.map byte ++ rest) =
      .ok (wholeNumber negative (Nat.ofDigitChars 10 ds n), rest) := by
  induction ds generalizing n with
  | nil => exact readWhole_ended negative n ended
  | cons c more ih =>
    obtain ⟨digit, value⟩ := byte_digit (all c List.mem_cons_self)
    rw [Nat.ofDigitChars_cons, Nat.mul_comm 10 n] at fits ⊢
    have small := Nat.le_trans (le_ofDigitChars more _) fits
    rw [List.map_cons, List.cons_append, readWhole, if_pos digit, value,
      if_neg (Nat.not_lt.mpr small)]
    exact ih (fun d member => all d (List.mem_cons_of_mem c member)) _ fits

theorem readNumber_toDigits (negative : Bool) {n : Nat} (fits : n ≤ largestWord) {rest : Bytes}
    (ended : Ended rest) :
    readNumber negative (utf8 (String.ofList (Nat.toDigits 10 n)) ++ rest) =
      .ok (wholeNumber negative n, rest) := by
  have all := (digits_toDigits n).all
  rw [utf8_digits all]
  rcases Nat.eq_zero_or_pos n with rfl | positive
  · rw [Nat.toDigits_zero, List.map_singleton, List.singleton_append, readNumber.eq_def]
    cases rest with
    | nil => rfl
    | cons b rest =>
      simp only [beq_self_eq_true, if_true, (ended b rfl).1, Bool.false_eq_true, if_false]
      exact finishWhole_ended negative 0 ended
  · have total : Nat.ofDigitChars 10 (Nat.toDigits 10 n) 0 = n := Nat.ofDigitChars_ten_toDigits
    obtain ⟨c, more, digits, nonzero⟩ := toDigits_eq_cons positive
    rw [digits] at all total ⊢
    obtain ⟨digit, value⟩ := byte_digit (all c List.mem_cons_self)
    have other : (byte c == byte '0') = false := by
      rw [beq_eq_false_iff_ne]
      intro same
      have zero : c.toNat - 48 = 0 := value ▸ same ▸ rfl
      have range := digit_range (all c List.mem_cons_self)
      exact nonzero (Char.toNat_inj.mp (show c.toNat = 48 by omega))
    rw [Nat.ofDigitChars_cons, Nat.mul_zero, Nat.zero_add, ← value] at total
    rw [List.map_cons, List.cons_append, readNumber.eq_def]
    simp only [other, Bool.false_eq_true, if_false, if_pos digit]
    rw [readWhole_digits negative (fun d member => all d (List.mem_cons_of_mem c member)) _
      (total ▸ fits) ended, total]

namespace Relaxed

theorem literalValue_whole {cs : List Char} (whole : Whole cs) {n : Number}
    (value : decimalNumber cs = some n) : literalValue cs = .number n := by
  cases whole with
  | zero => simp [literalValue, value]
  | digits nonzero all =>
    rename_i c rest
    simp [literalValue, digit_unsigned (all c List.mem_cons_self), nonzero, value]

theorem literalValue_negative {cs : List Char} (whole : Whole cs) {n : Number}
    (value : decimalNumber ('-' :: cs) = some n) : literalValue ('-' :: cs) = .number n := by
  cases whole with
  | zero => simp [literalValue, value]
  | digits nonzero all => simp [literalValue, nonzero, value]

theorem literalValue_integer {i : Int} (low : -0x8000000000000000 ≤ i) (high : i ≤ largestWord) :
    literalValue (Number.integer i).text = .number (.integer i) := by
  cases i with
  | ofNat n =>
    rw [Number.text, text_ofNat]
    apply literalValue_whole (whole_toDigits n)
    have fits : n ≤ largestWord := Int.ofNat_le.mp high
    have read := readNumber_toDigits false fits ended_nil
    rw [List.append_nil] at read
    obtain ⟨c, rest, digits, digit⟩ := (whole_toDigits n).isUnsigned.first
    rw [digits] at read ⊢
    simp [decimalNumber, (digit_unsigned digit).1, read, wholeNumber, -String.ofList_cons]
  | negSucc n =>
    rw [Number.text, text_negSucc]
    apply literalValue_negative (whole_toDigits (n + 1))
    have small : n + 1 ≤ 0x8000000000000000 := by omega
    have fits : n + 1 ≤ largestWord := by
      simp [largestWord]
      omega
    have read := readNumber_toDigits true fits ended_nil
    rw [List.append_nil] at read
    have large : ¬ 0x8000000000000000 < n + 1 := by omega
    simp [decimalNumber, read, wholeNumber, large, Int.negSucc_eq]

end Relaxed
end BufferLint.Json
