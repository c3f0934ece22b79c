import BufferLint.Diagnostic
import Mathlib.Data.List.Basic
import Mathlib.Data.Prod.Lex

/-! Findings on display. Where a finding stands is told by its severity, its line and its column,
and a list in that order is determined by what stands at each place. So there is one way only to
sort without disturbing what stands at one place, and sorting and filtering cannot get in each
other's way. -/
namespace BufferLint

/-- The elements of `before` in the order of their keys, those with one key in their old order. -/
structure ArrangedBy {α κ : Type} [LinearOrder κ] (key : α → κ) (before after : List α) : Prop where
  perm : after.Perm before
  ordered : after.Pairwise (fun a b => key a ≤ key b)
  stable : ∀ k, after.filter (fun a => key a = k) = before.filter (fun a => key a = k)

section

variable {α κ : Type} [LinearOrder κ] {key : α → κ} {before after : List α}

theorem head_le_of_filter_eq {a b : α} {first second : List α}
    (ordered : (a :: first).Pairwise (fun a b => key a ≤ key b))
    (same : ∀ k, (a :: first).filter (fun a => key a = k) =
      (b :: second).filter (fun a => key a = k)) : key a ≤ key b := by
  have there : b ∈ (a :: first).filter (fun a => key a = key b) := by simp [same]
  rcases List.mem_cons.mp (List.mem_filter.mp there).1 with rfl | later
  · exact le_refl _
  · exact (List.pairwise_cons.mp ordered).1 b later

/-- A list in order is determined by what it has for each key. -/
theorem eq_of_filter_eq {first second : List α}
    (ordered : first.Pairwise (fun a b => key a ≤ key b))
    (others : second.Pairwise (fun a b => key a ≤ key b))
    (same : ∀ k, first.filter (fun a => key a = k) = second.filter (fun a => key a = k)) :
    first = second := by
  induction first generalizing second with
  | nil =>
    cases second with
    | nil => rfl
    | cons b rest => simpa using same (key b)
  | cons a rest ih =>
    cases second with
    | nil => simpa using same (key a)
    | cons b more =>
      have level : key a = key b := le_antisymm (head_le_of_filter_eq ordered same)
        (head_le_of_filter_eq others fun k => (same k).symm)
      have heads : a = b := by
        have here := same (key b)
        simp only [List.filter_cons, level, decide_true, if_true, List.cons.injEq] at here
        exact here.1
      subst heads
      have rests : rest = more := by
        refine ih (List.pairwise_cons.mp ordered).2 (List.pairwise_cons.mp others).2 fun k => ?_
        have here := same k
        simp only [List.filter_cons] at here
        split at here
        · exact (List.cons.inj here).2
        · exact here
      rw [rests]

theorem ArrangedBy.unique {other : List α} (one : ArrangedBy key before after)
    (another : ArrangedBy key before other) : other = after :=
  eq_of_filter_eq another.ordered one.ordered fun k => (another.stable k).trans (one.stable k).symm

theorem ArrangedBy.refl (ordered : before.Pairwise (fun a b => key a ≤ key b)) :
    ArrangedBy key before before :=
  ⟨.refl _, ordered, fun _ => rfl⟩

theorem ArrangedBy.filter (arranged : ArrangedBy key before after) (test : α → Bool) :
    ArrangedBy key (before.filter test) (after.filter test) where
  perm := arranged.perm.filter test
  ordered := arranged.ordered.filter test
  stable k := by
    rw [List.filter_comm, arranged.stable, List.filter_comm]

/-- What has one key is in order as it stands, so a merge sort leaves it in its order. -/
theorem arrangedBy_mergeSort {le : α → α → Bool} (tells : ∀ a b, le a b = true ↔ key a ≤ key b)
    (l : List α) : ArrangedBy key l (l.mergeSort le) := by
  have chained : ∀ a b c, le a b = true → le b c = true → le a c = true := by
    simp only [tells]
    exact fun _ _ _ => le_trans
  have either : ∀ a b, (le a b || le b a) = true := by
    simp only [Bool.or_eq_true, tells]
    exact fun a b => le_total (key a) (key b)
  have perm := List.mergeSort_perm l le
  refine ⟨perm, (List.pairwise_mergeSort chained either l).imp (fun {a b} => (tells a b).mp), ?_⟩
  intro k
  have level : (l.filter (fun a => key a = k)).Pairwise (fun a b => le a b = true) := by
    refine List.pairwise_of_forall_mem_list fun a one b other => (tells a b).mpr ?_
    have here := (List.mem_filter.mp one).2
    have there := (List.mem_filter.mp other).2
    simp only [decide_eq_true_eq] at here there
    exact le_of_eq (here.trans there.symm)
  have kept := (List.sublist_mergeSort chained either level List.filter_sublist).filter
    (fun a => key a = k)
  rw [List.filter_filter] at kept
  simp only [Bool.and_self] at kept
  exact (kept.eq_of_length (perm.filter _).length_eq.symm).symm

end

namespace Severity

/-- What a level lets through: errors only, errors and warnings, or everything. -/
def admitted : Severity → List Severity
  | error => [error]
  | warning => [error, warning]
  | info => [error, warning, info]

def stricter : Severity → Severity → Severity
  | error, _ | _, error => error
  | warning, _ | _, warning => warning
  | info, info => info

theorem atLeast_iff (s least : Severity) : s.atLeast least = true ↔ s ∈ least.admitted := by
  cases s <;> cases least <;> decide

theorem atLeast_stricter (s one other : Severity) :
    s.atLeast (one.stricter other) = (s.atLeast other && s.atLeast one) := by
  cases s <;> cases one <;> cases other <;> rfl

end Severity

namespace Diagnostic

/-- Where a finding stands on display: errors come first, then the line counts, then the column. -/
def standing (d : Diagnostic) : Nat ×ₗ Nat ×ₗ Nat :=
  toLex (d.severity.rank, toLex (d.line.toNat, d.column.toNat))

theorem displayedBefore_iff (a b : Diagnostic) :
    displayedBefore a b = true ↔ a.standing ≤ b.standing := by
  simp only [displayedBefore, standing, Prod.Lex.toLex_le_toLex, ← UInt32.toNat_inj,
    UInt32.le_iff_toNat_le, UInt32.lt_iff_toNat_lt]
  split
  · split <;> simp [*]
  · simp [*]

theorem sortForDisplay_arranged (ds : List Diagnostic) :
    ArrangedBy standing ds (sortForDisplay ds) :=
  arrangedBy_mergeSort displayedBefore_iff ds

/-- Sorting for display is the one stable sort by severity, line and column, so it changes nothing
the second time, and it does not matter whether one sorts or filters first. Two filters are one
filter by the stricter level, and a filter leaves every admitted finding where it was, as often as
it was there, and no other. -/
theorem findings_are_sorted_and_filtered_stably (ds : List Diagnostic) (one other : Severity) :
    (∀ shown, ArrangedBy standing ds shown ↔ shown = sortForDisplay ds) ∧
    sortForDisplay (sortForDisplay ds) = sortForDisplay ds ∧
    keepAtLeast one (sortForDisplay ds) = sortForDisplay (keepAtLeast one ds) ∧
    keepAtLeast other (keepAtLeast one ds) = keepAtLeast (one.stricter other) ds ∧
    (keepAtLeast (one.stricter other) ds).Sublist ds ∧
    ∀ d, (keepAtLeast (one.stricter other) ds).count d =
      if d.severity ∈ one.admitted ∧ d.severity ∈ other.admitted then ds.count d else 0 := by
  have sorted := sortForDisplay_arranged ds
  refine ⟨fun shown => ⟨sorted.unique, ?_⟩, ?_, ?_, ?_, List.filter_sublist, fun d => ?_⟩
  · rintro rfl
    exact sorted
  · exact (ArrangedBy.refl sorted.ordered).unique (sortForDisplay_arranged _)
  · exact (sortForDisplay_arranged _).unique (sorted.filter _)
  · simp only [keepAtLeast, List.filter_filter, Severity.atLeast_stricter]
  · have admits : d.severity.atLeast (one.stricter other) = true ↔
        d.severity ∈ one.admitted ∧ d.severity ∈ other.admitted := by
      rw [Severity.atLeast_stricter, Bool.and_eq_true, Severity.atLeast_iff, Severity.atLeast_iff,
        and_comm]
    split
    · rename_i both
      exact List.count_filter (admits.mpr both)
    · rename_i out
      exact List.count_eq_zero.mpr fun kept => out (admits.mp (List.mem_filter.mp kept).2)

end Diagnostic
end BufferLint
