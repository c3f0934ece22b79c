import BufferLint.Check.Stats
import BufferLint.Json.Reader
import Mathlib.Tactic.Tauto

/-! What is counted is there, nothing else is, and all counts together are the number of findings,
so none is larger. -/
namespace BufferLint

open Json (largestWord)

namespace Tally

def sum {κ : Type} : Tally κ → Nat
  | [] => 0
  | row :: rest => row.2 + sum rest

theorem le_sum {κ : Type} {t : Tally κ} : ∀ row ∈ t, row.2 ≤ t.sum := by
  induction t with
  | nil => simp
  | cons first rest ih =>
    refine List.forall_mem_cons.mpr ⟨Nat.le_add_right _ _, fun row member => ?_⟩
    exact Nat.le_trans (ih row member) (Nat.le_add_left _ _)

section

variable {κ : Type} [LT κ] [DecidableLT κ] [DecidableEq κ]

theorem keys_add (key other : κ) (t : Tally κ) :
    other ∈ (add key t).map Prod.fst ↔ other = key ∨ other ∈ t.map Prod.fst := by
  induction t with
  | nil => simp [add]
  | cons row rest ih =>
    rw [add]
    split
    · simp
    split
    · rename_i same
      simp [same]
    · rw [List.map_cons, List.mem_cons, ih, List.map_cons, List.mem_cons]
      tauto

theorem keys_of (keys : List κ) (key : κ) : key ∈ (Tally.of keys).map Prod.fst ↔ key ∈ keys := by
  suffices counted : ∀ t : Tally κ,
      key ∈ (keys.foldl (fun t key => add key t) t).map Prod.fst ↔
        key ∈ keys ∨ key ∈ t.map Prod.fst by
    rw [Tally.of, counted]
    simp
  induction keys with
  | nil => simp
  | cons first rest ih =>
    intro t
    rw [List.foldl_cons, ih, keys_add, List.mem_cons]
    tauto

theorem sum_add (key : κ) (t : Tally κ) : (add key t).sum = t.sum + 1 := by
  induction t with
  | nil => rfl
  | cons row rest ih => grind [add, sum]

theorem sum_of (keys : List κ) : (of keys).sum = keys.length := by
  suffices counted : ∀ t : Tally κ,
      (keys.foldl (fun t key => add key t) t).sum = t.sum + keys.length by
    exact (counted []).trans (Nat.zero_add _)
  induction keys with
  | nil => simp
  | cons key rest ih =>
    intro t
    rw [List.foldl_cons, ih, sum_add, List.length_cons]
    omega

theorem count_of (keys : List κ) : ∀ row ∈ Tally.of keys, row.2 ≤ keys.length :=
  fun row member => Nat.le_trans (le_sum row member) (Nat.le_of_eq (sum_of keys))

end

def Fits {κ : Type} (t : Tally κ) : Prop := ∀ row ∈ t, row.2 ≤ largestWord

end Tally

structure Stats.Fits (s : Stats) : Prop where
  total : s.total ≤ largestWord
  errors : s.errors ≤ largestWord
  warnings : s.warnings ≤ largestWord
  infos : s.infos ≤ largestWord
  bySource : s.bySource.Fits
  byRule : s.byRule.Fits
  byLine : s.byLine.Fits

/-- As many findings as a word can count are counted with words. -/
theorem Stats.fits_of {ds : List Diagnostic} (few : ds.length ≤ largestWord) :
    (Stats.of ds).Fits := by
  have counts : ∀ severity, Diagnostic.count severity ds ≤ largestWord :=
    fun severity => Nat.le_trans List.countP_le_length few
  have tallies : ∀ {κ : Type} [LT κ] [DecidableLT κ] [DecidableEq κ] (key : Diagnostic → κ),
      (Tally.of (ds.map key)).Fits := by
    intro κ _ _ _ key row member
    have bound := Tally.count_of (ds.map key) row member
    rw [List.length_map] at bound
    exact Nat.le_trans bound few
  rw [Stats.of_eq]
  exact ⟨few, counts _, counts _, counts _, tallies _, tallies _, tallies _⟩

end BufferLint
