import BufferLint.Proofs.Scan.Lexer
import Mathlib.Data.List.Induction

/-! Pairing brackets with a stack, and what comes of it told by counting. Kinds are not compared: a
bracket opens or it closes. -/
namespace BufferLint.Scan.Script

structure Bracket where
  char : Char
  line : Nat
  column : Nat
  isBracket : (isOpening char || isClosing char) = true

theorem isClosing_of_isOpening {c : Char} (opening : isOpening c = true) : isClosing c = false := by
  simp only [isOpening, Bool.or_eq_true, beq_iff_eq] at opening
  rcases opening with (rfl | rfl) | rfl <;> decide

theorem Bracket.isClosing_eq (b : Bracket) : isClosing b.char = !isOpening b.char := by
  have either := b.isBracket
  cases opening : isOpening b.char with
  | true => simp [isClosing_of_isOpening opening]
  | false => simpa [opening] using either

def opens (bs : List Bracket) : Nat := bs.countP (fun b => isOpening b.char)

def closes (bs : List Bracket) : Nat := bs.countP (fun b => isClosing b.char)

def segment (bs : List Bracket) (j k : Nat) : List Bracket := (bs.take (k + 1)).drop j

/-- Up to the `k`th bracket everything closes more than it opens; so it closes itself (`j = k`). -/
def ClosesTooMuch (bs : List Bracket) (k : Nat) : Prop :=
  ∀ j ≤ k, opens (segment bs j k) < closes (segment bs j k)

/-- From the `k`th bracket on everything opens more than it closes. -/
def StaysOpen (bs : List Bracket) (k : Nat) : Prop :=
  ∀ m < bs.length, k ≤ m → closes (segment bs k m) < opens (segment bs k m)

instance (bs : List Bracket) (k : Nat) : Decidable (ClosesTooMuch bs k) :=
  inferInstanceAs (Decidable (∀ j ≤ k, opens (segment bs j k) < closes (segment bs j k)))

instance (bs : List Bracket) (k : Nat) : Decidable (StaysOpen bs k) :=
  inferInstanceAs (Decidable (∀ m < bs.length, k ≤ m →
    closes (segment bs k m) < opens (segment bs k m)))

structure Balanced (bs : List Bracket) : Prop where
  inside : ∀ front, front <+: bs → closes front ≤ opens front
  whole : opens bs = closes bs

/-- The brackets that wait for a partner, the innermost first, and the closing ones that found
none, the newest first. -/
structure Paired where
  pending : List Bracket := []
  extra : List Bracket := []

def Paired.read (s : Paired) (b : Bracket) : Paired :=
  if isOpening b.char then { s with pending := b :: s.pending }
  else
    match s.pending with
    | [] => { s with extra := b :: s.extra }
    | _ :: outer => { s with pending := outer }

def pairing (bs : List Bracket) : Paired := bs.foldl Paired.read {}

namespace Paired

variable {s : Paired} {b : Bracket}

theorem read_of_opens (opening : isOpening b.char = true) :
    s.read b = { s with pending := b :: s.pending } := by
  simp [read, opening]

theorem read_pending_of_closes (closing : isOpening b.char = false) :
    (s.read b).pending = s.pending.tail := by
  unfold read
  cases s.pending <;> simp [closing]

theorem read_extra_of_closes (closing : isOpening b.char = false) :
    (s.read b).extra = if s.pending = [] then b :: s.extra else s.extra := by
  unfold read
  cases s.pending <;> simp [closing]

end Paired

theorem pairing_concat (bs : List Bracket) (b : Bracket) :
    pairing (bs ++ [b]) = (pairing bs).read b := by
  simp [pairing]

@[simp] theorem opens_nil : opens [] = 0 := rfl

@[simp] theorem closes_nil : closes [] = 0 := rfl

theorem opens_append (xs ys : List Bracket) : opens (xs ++ ys) = opens xs + opens ys :=
  List.countP_append

theorem closes_append (xs ys : List Bracket) : closes (xs ++ ys) = closes xs + closes ys :=
  List.countP_append

theorem opens_cons (b : Bracket) (bs : List Bracket) :
    opens (b :: bs) = opens bs + if isOpening b.char then 1 else 0 :=
  List.countP_cons

theorem closes_cons (b : Bracket) (bs : List Bracket) :
    closes (b :: bs) = closes bs + if isOpening b.char then 0 else 1 := by
  simp only [closes, List.countP_cons, b.isClosing_eq]
  cases isOpening b.char <;> rfl

/-- As many brackets wait as some part at the end opens more than it closes. -/
theorem pending_length_le (bs : List Bracket) (n : Nat) :
    (pairing bs).pending.length ≤ n ↔ ∀ back, back <:+ bs → opens back ≤ closes back + n := by
  induction bs using List.reverseRecOn generalizing n with
  | nil => simp [pairing]
  | append_singleton bs b ih =>
    have longer : (∀ back, back <:+ bs ++ [b] → opens back ≤ closes back + n) ↔
        ∀ back, back <:+ bs → opens (back ++ [b]) ≤ closes (back ++ [b]) + n := by
      constructor
      · intro all back inside
        exact all _ (List.suffix_concat_iff.mpr (.inr ⟨back, rfl, inside⟩))
      · intro all back inside
        rcases List.suffix_concat_iff.mp inside with rfl | ⟨inner, rfl, shorter⟩
        · simp
        · exact all inner shorter
    rw [longer, pairing_concat]
    simp only [opens_append, closes_append, opens_cons, closes_cons, opens_nil, closes_nil]
    cases opening : isOpening b.char with
    | true =>
      rw [Paired.read_of_opens opening]
      cases n with
      | zero =>
        refine iff_of_false (by simp) ?_
        intro all
        have none := all [] List.nil_suffix
        simp at none
      | succ n =>
        rw [List.length_cons, Nat.add_le_add_iff_right, ih n]
        refine forall_congr' fun back => imp_congr_right fun _ => ?_
        simp only [if_true]
        omega
    | false =>
      rw [Paired.read_pending_of_closes opening, List.length_tail, Nat.sub_le_iff_le_add,
        ih (n + 1)]
      refine forall_congr' fun back => imp_congr_right fun _ => ?_
      simp only [Bool.false_eq_true, if_false]
      omega

theorem segment_concat {bs : List Bracket} (b : Bracket) {j : Nat} (inside : j ≤ bs.length) :
    segment (bs ++ [b]) j bs.length = bs.drop j ++ [b] := by
  rw [segment, List.take_of_length_le (by simp), List.drop_append_of_le_length inside]

theorem closesTooMuch_last (bs : List Bracket) (b : Bracket) :
    ClosesTooMuch (bs ++ [b]) bs.length ↔
      isOpening b.char = false ∧ (pairing bs).pending = [] := by
  have counted : ClosesTooMuch (bs ++ [b]) bs.length ↔
      ∀ back, back <:+ bs → opens (back ++ [b]) < closes (back ++ [b]) := by
    constructor
    · intro all back inside
      obtain ⟨front, rfl⟩ := inside
      have here := all front.length (by simp)
      rwa [segment_concat b (by simp), List.drop_left] at here
    · intro all j inside
      rw [segment_concat b inside]
      exact all _ (List.drop_suffix j bs)
  rw [counted, ← List.length_eq_zero_iff, ← Nat.le_zero, pending_length_le]
  simp only [opens_append, closes_append, opens_cons, closes_cons, opens_nil, closes_nil]
  constructor
  · intro all
    have alone := all [] List.nil_suffix
    cases opening : isOpening b.char with
    | true => simp [opening] at alone
    | false =>
      refine ⟨rfl, fun back inside => ?_⟩
      have more := all back inside
      simp only [opening, Bool.false_eq_true, if_false] at more
      omega
  · rintro ⟨closing, all⟩ back inside
    have more := all back inside
    simp only [closing, Bool.false_eq_true, if_false]
    omega

theorem closesTooMuch_concat {bs : List Bracket} (b : Bracket) {k : Nat} (inside : k < bs.length) :
    ClosesTooMuch (bs ++ [b]) k ↔ ClosesTooMuch bs k := by
  unfold ClosesTooMuch segment
  rw [List.take_append_of_le_length inside]

theorem extra_eq (bs : List Bracket) :
    (pairing bs).extra.reverse =
      (bs.zipIdx.filter (fun x => ClosesTooMuch bs x.2)).map Prod.fst := by
  induction bs using List.reverseRecOn with
  | nil => rfl
  | append_singleton bs b ih =>
    have before : bs.zipIdx.filter (fun x => ClosesTooMuch (bs ++ [b]) x.2) =
        bs.zipIdx.filter (fun x => ClosesTooMuch bs x.2) := by
      refine List.filter_congr fun x member => ?_
      simp only [closesTooMuch_concat b (List.snd_lt_of_mem_zipIdx member)]
    have last := closesTooMuch_last bs b
    rw [List.zipIdx_append, List.filter_append, List.map_append, before, ← ih, pairing_concat]
    simp only [List.zipIdx_singleton, Nat.zero_add, List.filter_cons, List.filter_nil, last]
    cases opening : isOpening b.char with
    | true => simp [Paired.read_of_opens opening]
    | false =>
      rw [Paired.read_extra_of_closes opening]
      by_cases none : (pairing bs).pending = [] <;> simp [none]

/- How many brackets before them the closing ones of a text need. -/
def debt : List Bracket → Nat
  | [] => 0
  | b :: bs => if isOpening b.char then debt bs - 1 else debt bs + 1

def leftOpen : List Bracket → List Bracket
  | [] => []
  | b :: bs => if isOpening b.char ∧ debt bs = 0 then b :: leftOpen bs else leftOpen bs

theorem read_pending (bs : List Bracket) (s : Paired) :
    (bs.foldl Paired.read s).pending = (leftOpen bs).reverse ++ s.pending.drop (debt bs) := by
  induction bs generalizing s with
  | nil => rfl
  | cons b bs ih =>
    rw [List.foldl_cons, ih, leftOpen, debt]
    cases opening : isOpening b.char with
    | true =>
      rw [Paired.read_of_opens opening]
      cases debt bs <;> simp
    | false =>
      rw [Paired.read_pending_of_closes opening]
      simp [Nat.add_comm]

theorem read_extra_length (bs : List Bracket) (s : Paired) :
    (bs.foldl Paired.read s).extra.length =
      s.extra.length + (debt bs - s.pending.length) := by
  induction bs generalizing s with
  | nil => simp [debt]
  | cons b bs ih =>
    rw [List.foldl_cons, ih, debt]
    cases opening : isOpening b.char with
    | true =>
      simp only [Paired.read_of_opens opening, List.length_cons, if_true]
      omega
    | false =>
      rw [Paired.read_pending_of_closes opening, Paired.read_extra_of_closes opening,
        if_neg Bool.false_ne_true]
      cases s.pending with
      | nil =>
        simp
        omega
      | cons inner outer => simp

theorem debt_le (bs : List Bracket) (n : Nat) :
    debt bs ≤ n ↔ ∀ front, front <+: bs → closes front ≤ opens front + n := by
  induction bs generalizing n with
  | nil => simp [debt]
  | cons b bs ih =>
    have longer : (∀ front, front <+: b :: bs → closes front ≤ opens front + n) ↔
        ∀ front, front <+: bs → closes (b :: front) ≤ opens (b :: front) + n := by
      constructor
      · intro all front inside
        exact all _ (List.prefix_cons_iff.mpr (.inr ⟨front, rfl, inside⟩))
      · intro all front inside
        rcases List.prefix_cons_iff.mp inside with rfl | ⟨inner, rfl, shorter⟩
        · simp
        · exact all inner shorter
    rw [longer, debt]
    simp only [opens_cons, closes_cons]
    cases opening : isOpening b.char with
    | true =>
      rw [if_pos rfl, Nat.sub_le_iff_le_add, ih (n + 1)]
      refine forall_congr' fun front => imp_congr_right fun _ => ?_
      simp only [if_true]
      omega
    | false =>
      rw [if_neg Bool.false_ne_true]
      cases n with
      | zero =>
        refine iff_of_false (by omega) ?_
        intro all
        have none := all [] List.nil_prefix
        simp at none
      | succ n =>
        rw [Nat.add_le_add_iff_right, ih n]
        refine forall_congr' fun front => imp_congr_right fun _ => ?_
        simp only [Bool.false_eq_true, if_false]
        omega

theorem staysOpen_zero (b : Bracket) (bs : List Bracket) :
    StaysOpen (b :: bs) 0 ↔ isOpening b.char = true ∧ debt bs = 0 := by
  have counted : StaysOpen (b :: bs) 0 ↔
      ∀ front, front <+: bs → closes (b :: front) < opens (b :: front) := by
    constructor
    · intro all front inside
      have here := all front.length (Nat.lt_succ_of_le inside.length_le) (Nat.zero_le _)
      rwa [segment, List.drop_zero, List.take_succ_cons,
        ← List.prefix_iff_eq_take.mp inside] at here
    · intro all m inside _
      exact all _ (List.take_prefix m bs)
  rw [counted, ← Nat.le_zero, debt_le]
  simp only [opens_cons, closes_cons]
  constructor
  · intro all
    have alone := all [] List.nil_prefix
    cases opening : isOpening b.char with
    | true =>
      refine ⟨rfl, fun front inside => ?_⟩
      have more := all front inside
      simp only [opening, if_true] at more
      omega
    | false => simp [opening] at alone
  · rintro ⟨opening, all⟩ front inside
    have more := all front inside
    simp only [opening, if_true]
    omega

theorem staysOpen_succ (b : Bracket) (bs : List Bracket) (k : Nat) :
    StaysOpen (b :: bs) (k + 1) ↔ StaysOpen bs k := by
  constructor
  · intro all m inside behind
    exact all (m + 1) (by simpa using inside) (Nat.succ_le_succ behind)
  · intro all m inside behind
    cases m with
    | zero => exact absurd behind (by omega)
    | succ m => exact all m (by simpa using inside) (Nat.le_of_succ_le_succ behind)

theorem leftOpen_eq (bs : List Bracket) :
    leftOpen bs = (bs.zipIdx.filter (fun x => StaysOpen bs x.2)).map Prod.fst := by
  induction bs with
  | nil => rfl
  | cons b bs ih =>
    have behind : (((bs.zipIdx.map (Prod.map id (· + 1))).filter
        (fun x => StaysOpen (b :: bs) x.2)).map Prod.fst) = leftOpen bs := by
      rw [List.filter_map, List.map_map, ih]
      simp only [Function.comp_def, Prod.map_snd, Prod.map_fst, staysOpen_succ, id_eq]
    rw [leftOpen, List.zipIdx_cons', List.filter_cons]
    simp only [staysOpen_zero, decide_eq_true_eq]
    split
    · rw [List.map_cons, behind]
    · exact behind.symm

theorem pending_eq (bs : List Bracket) :
    (pairing bs).pending.reverse = (bs.zipIdx.filter (fun x => StaysOpen bs x.2)).map Prod.fst := by
  rw [pairing, read_pending, List.drop_nil, List.append_nil, List.reverse_reverse, leftOpen_eq]

/-- Every opening bracket waits or has a partner, every closing one is too many or has one. -/
theorem pairing_counts (bs : List Bracket) :
    opens bs + (pairing bs).extra.length = closes bs + (pairing bs).pending.length := by
  induction bs using List.reverseRecOn with
  | nil => rfl
  | append_singleton bs b ih =>
    rw [pairing_concat]
    simp only [opens_append, closes_append, opens_cons, closes_cons, opens_nil, closes_nil]
    cases opening : isOpening b.char with
    | true =>
      rw [Paired.read_of_opens opening]
      simp only [List.length_cons, if_true]
      omega
    | false =>
      rw [Paired.read_pending_of_closes opening, Paired.read_extra_of_closes opening]
      cases waits : (pairing bs).pending with
      | nil =>
        simp only [waits, List.length_nil] at ih
        simp
        omega
      | cons inner outer =>
        simp only [waits, List.length_cons] at ih
        simp
        omega

theorem balanced_iff (bs : List Bracket) :
    Balanced bs ↔ (pairing bs).extra = [] ∧ (pairing bs).pending = [] := by
  have counts := pairing_counts bs
  have owed := read_extra_length bs {}
  have fronts := debt_le bs 0
  simp only [List.length_nil, Nat.zero_add, Nat.sub_zero, Nat.le_zero, Nat.add_zero] at owed fronts
  rw [← pairing] at owed
  rw [← List.length_eq_zero_iff, ← List.length_eq_zero_iff, owed, fronts]
  constructor
  · rintro ⟨inside, whole⟩
    have none := fronts.mpr inside
    exact ⟨inside, by omega⟩
  · rintro ⟨inside, closed⟩
    have none := fronts.mpr inside
    exact ⟨inside, by omega⟩

end BufferLint.Scan.Script
