import BufferLint.Check.Status
import BufferLint.Proofs.Check.Counts

/-! Counts against what they count. A tally has one row for each key that was counted, with the
number of times it was counted, and nothing else; so the counts of a list of findings add up, in
every section, to the number of findings. -/
namespace BufferLint

namespace Tally

variable {κ : Type} [DecidableEq κ]

def seen (t : Tally κ) (key : κ) : Nat := (t.lookup key).getD 0

theorem lookup_row (key : κ) (row : κ × Nat) (rest : Tally κ) :
    List.lookup key (row :: rest) = if key = row.1 then some row.2 else rest.lookup key := by
  obtain ⟨own, count⟩ := row
  rw [List.lookup_cons]
  by_cases same : key = own
  · simp [same]
  · simp [same, beq_false_of_ne same]

variable [LT κ]

/-- At most one row for each key, in the order of the keys. -/
def Sorted {κ : Type} [LT κ] (t : Tally κ) : Prop := t.Pairwise (fun a b => a.1 < b.1)

/-- What a tally of these keys has to be: a row for each of them, with its count. -/
structure Counts (t : Tally κ) (keys : List κ) : Prop where
  sorted : t.Sorted
  found : ∀ key, t.lookup key = if key ∈ keys then some (keys.count key) else none

theorem Counts.seen {t : Tally κ} {keys : List κ} (counts : t.Counts keys) (key : κ) :
    t.seen key = keys.count key := by
  rw [Tally.seen, counts.found]
  split
  · rfl
  · rename_i missing
    exact (List.count_eq_zero.mpr missing).symm

section

variable [LE κ] [Std.IsLinearOrder κ] [Std.LawfulOrderLT κ] {t : Tally κ}

theorem lookup_before {key : κ} (before : ∀ row ∈ t, key < row.1) : t.lookup key = none := by
  refine List.lookup_eq_none_iff.mpr fun row member => ?_
  have := before row member
  grind

theorem Sorted.lookup_eq_some (sorted : t.Sorted) (key : κ) (n : Nat) :
    t.lookup key = some n ↔ (key, n) ∈ t := by
  induction t with
  | nil => simp
  | cons row rest ih =>
    obtain ⟨first, others⟩ := List.pairwise_cons.mp sorted
    rw [lookup_row, List.mem_cons]
    split
    · rename_i here
      have once : (key, n) ∉ rest := by
        intro again
        have after := first _ again
        grind
      have head : (key, n) = row ↔ row.2 = n := by
        rw [Prod.ext_iff, and_iff_right here]
        exact eq_comm
      simp only [head, once, or_false, Option.some.injEq]
    · rename_i elsewhere
      have other : (key, n) ≠ row := fun same => elsewhere (congrArg Prod.fst same)
      simp only [other, false_or, ih others]

variable [DecidableLT κ]

theorem Sorted.add (sorted : t.Sorted) (key : κ) : (t.add key).Sorted := by
  induction t with
  | nil => exact List.pairwise_singleton _ _
  | cons row rest ih =>
    obtain ⟨first, others⟩ := List.pairwise_cons.mp sorted
    rw [Tally.add]
    split
    · rename_i before
      refine List.pairwise_cons.mpr ⟨fun other member => ?_, sorted⟩
      rcases List.mem_cons.mp member with rfl | later
      · exact before
      · exact Std.lt_trans before (first other later)
    split
    · rename_i same
      exact List.pairwise_cons.mpr ⟨same ▸ first, others⟩
    · rename_i above other
      refine List.pairwise_cons.mpr ⟨fun behind member => ?_, ih others⟩
      rcases (keys_add key behind.1 rest).mp (List.mem_map_of_mem member) with is | was
      · grind
      · obtain ⟨old, member, same⟩ := List.mem_map.mp was
        exact same ▸ first old member

/-- The row of the key that is added goes up by one, or comes in; the others stay. -/
theorem lookup_add (sorted : t.Sorted) (key other : κ) :
    (t.add key).lookup other = if other = key then some (t.seen key + 1) else t.lookup other := by
  induction t with
  | nil => simp [Tally.add, seen, lookup_row]
  | cons row rest ih =>
    obtain ⟨first, others⟩ := List.pairwise_cons.mp sorted
    rw [Tally.add]
    split
    · rename_i before
      have fresh : List.lookup key (row :: rest) = none := by
        refine lookup_before (List.forall_mem_cons.mpr ⟨before, fun later member => ?_⟩)
        exact Std.lt_trans before (first later member)
      rw [lookup_row, seen, fresh]
      rfl
    split
    · rename_i same
      simp only [seen, lookup_row, same, if_true, Option.getD_some]
      grind
    · rename_i above apart
      simp only [seen, lookup_row, ih others, apart, if_false]
      grind

theorem Counts.add {keys : List κ} (counts : t.Counts keys) (key : κ) :
    (t.add key).Counts (keys ++ [key]) where
  sorted := counts.sorted.add key
  found other := by
    rw [lookup_add counts.sorted, counts.seen, counts.found]
    by_cases same : other = key
    · simp [same]
    · have apart : key ≠ other := fun is => same is.symm
      simp [same, apart]

theorem counts_of (keys : List κ) : (of keys).Counts keys := by
  suffices counted : ∀ (t : Tally κ) (before : List κ), t.Counts before →
      (keys.foldl (fun t key => Tally.add key t) t).Counts (before ++ keys) from
    counted [] [] ⟨.nil, fun _ => rfl⟩
  induction keys with
  | nil => exact fun t before counts => (List.append_nil before).symm ▸ counts
  | cons key rest ih =>
    intro t before counts
    have one := ih (t.add key) (before ++ [key]) (counts.add key)
    rwa [List.append_assoc] at one

end

/-- What a tally says about findings of which each has one of its keys: one row for each key that
some of them have, in the order of the keys, and in it how many have it. -/
structure Breakdown (has : Diagnostic → κ → Prop) [∀ d, DecidablePred (has d)]
    (ds : List Diagnostic) (t : Tally κ) : Prop where
  sorted : t.Sorted
  rows : ∀ key n, (key, n) ∈ t ↔ 0 < n ∧ n = ds.countP (fun d => has d key)
  seen : ∀ key, t.seen key = ds.countP (fun d => has d key)
  sum : t.sum = ds.length

theorem breakdown_of [DecidableLT κ] [LE κ] [Std.IsLinearOrder κ] [Std.LawfulOrderLT κ]
    {has : Diagnostic → κ → Prop} [∀ d, DecidablePred (has d)] {key : Diagnostic → κ}
    (own : ∀ d k, key d = k ↔ has d k) (ds : List Diagnostic) :
    Breakdown has ds (of (ds.map key)) := by
  have counts := counts_of (ds.map key)
  have count (k : κ) : (ds.map key).count k = ds.countP (fun d => has d k) := by
    rw [List.count_eq_countP, List.countP_map]
    refine List.countP_congr fun d _ => ?_
    simp [own]
  refine ⟨counts.sorted, fun k n => ?_, fun k => (counts.seen k).trans (count k), ?_⟩
  · rw [← counts.sorted.lookup_eq_some, counts.found, ← count]
    split
    · rename_i present
      have positive := List.count_pos_iff.mpr present
      rw [Option.some.injEq]
      omega
    · rename_i missing
      have none := List.count_eq_zero.mpr missing
      simp only [reduceCtorEq, none, false_iff]
      omega
  · rw [sum_of, List.length_map]

theorem Breakdown.seen_append {has : Diagnostic → κ → Prop} [∀ d, DecidablePred (has d)]
    {ds more : List Diagnostic} {first second both : Tally κ} (one : first.Breakdown has ds)
    (other : second.Breakdown has more) (all : both.Breakdown has (ds ++ more)) (key : κ) :
    both.seen key = first.seen key + second.seen key := by
  rw [all.seen, one.seen, other.seen, List.countP_append]

end Tally

namespace Diagnostic

/-- A finding counts for its source, and for "unknown" if that is empty. -/
def OfSource (d : Diagnostic) (key : String) : Prop :=
  (d.source ≠ "" ∧ d.source = key) ∨ (d.source = "" ∧ key = "unknown")

def OfRule (d : Diagnostic) (key : String) : Prop :=
  d.rule = some key ∨ (d.rule = none ∧ key = "unknown")

def OfLine (d : Diagnostic) (key : UInt32) : Prop := d.line = key

instance (d : Diagnostic) : DecidablePred d.OfSource := fun _ => inferInstanceAs (Decidable (_ ∨ _))

instance (d : Diagnostic) : DecidablePred d.OfRule := fun _ => inferInstanceAs (Decidable (_ ∨ _))

instance (d : Diagnostic) : DecidablePred d.OfLine := fun _ => inferInstanceAs (Decidable (_ = _))

end Diagnostic

namespace Stats

theorem sourceKey_eq (d : Diagnostic) (key : String) : sourceKey d = key ↔ d.OfSource key := by
  rw [sourceKey, Diagnostic.OfSource, @eq_comm _ key]
  by_cases empty : d.source = ""
  · simp [empty, unknownKey]
  · simp [empty]

theorem ruleKey_eq (d : Diagnostic) (key : String) : ruleKey d = key ↔ d.OfRule key := by
  rw [ruleKey, Diagnostic.OfRule, @eq_comm _ key]
  cases d.rule <;> simp [unknownKey]

theorem count_severities (ds : List Diagnostic) : Diagnostic.count .error ds +
    Diagnostic.count .warning ds + Diagnostic.count .info ds = ds.length := by
  induction ds with
  | nil => rfl
  | cons d rest ih =>
    rw [List.length_cons, ← ih]
    cases severity : d.severity <;> simp [Diagnostic.count, severity] <;> omega

/-- What the counts of a list of findings have to be. -/
structure Describes (s : Stats) (ds : List Diagnostic) : Prop where
  total : s.total = ds.length
  severities : s.errors + s.warnings + s.infos = ds.length
  bySource : s.bySource.Breakdown Diagnostic.OfSource ds
  byRule : s.byRule.Breakdown Diagnostic.OfRule ds
  byLine : s.byLine.Breakdown Diagnostic.OfLine ds

/-- The counts of two lists of findings together. -/
structure Joins (first second both : Stats) : Prop where
  total : both.total = first.total + second.total
  errors : both.errors = first.errors + second.errors
  warnings : both.warnings = first.warnings + second.warnings
  infos : both.infos = first.infos + second.infos
  bySource : ∀ key, both.bySource.seen key = first.bySource.seen key + second.bySource.seen key
  byRule : ∀ key, both.byRule.seen key = first.byRule.seen key + second.byRule.seen key
  byLine : ∀ line, both.byLine.seen line = first.byLine.seen line + second.byLine.seen line

theorem describes_of (ds : List Diagnostic) : (of ds).Describes ds := by
  rw [of_eq]
  exact ⟨rfl, count_severities ds, Tally.breakdown_of sourceKey_eq ds,
    Tally.breakdown_of ruleKey_eq ds, Tally.breakdown_of (fun _ _ => Iff.rfl) ds⟩

theorem joins_append (ds more : List Diagnostic) : Joins (of ds) (of more) (of (ds ++ more)) := by
  have one := describes_of ds
  have other := describes_of more
  have all := describes_of (ds ++ more)
  have severity (level : Severity) : Diagnostic.count level (ds ++ more) =
      Diagnostic.count level ds + Diagnostic.count level more := List.countP_append
  refine ⟨?_, ?_, ?_, ?_, one.bySource.seen_append other.bySource all.bySource,
    one.byRule.seen_append other.byRule all.byRule, one.byLine.seen_append other.byLine all.byLine⟩
  · rw [all.total, one.total, other.total, List.length_append]
  all_goals simp only [of_eq, severity]

/-- Nothing is lost in counting and nothing is counted twice, whatever the order of the findings;
the counts of two lists are those of the list of both, and a status shows the same numbers. -/
theorem counting_conserves_and_ignores_order (ds : List Diagnostic) :
    (of ds).Describes ds ∧
    (∀ others, others.Perm ds → of others = of ds) ∧
    (∀ more, Joins (of ds) (of more) (of (ds ++ more))) ∧
    Status.ofFindings ds = .done (of ds).errors (of ds).warnings (of ds).infos := by
  refine ⟨describes_of ds, fun others perm => of_perm perm, joins_append ds, ?_⟩
  rw [of_eq]
  rfl

/-- A source and a rule that are called "unknown", one finding that has neither, and two lines. -/
theorem counting_conserves_and_ignores_order_mixed :
    let plain : Diagnostic := { line := 3, column := 0, message := "a", severity := .error }
    let named : Diagnostic :=
      { line := 0, column := 1, message := "b", severity := .info, source := "unknown",
        rule := some "unknown" }
    let ruled : Diagnostic :=
      { line := 3, column := 2, message := "c", source := "ESLint", rule := some "eqeqeq" }
    [ruled, plain, named].Perm [plain, named, ruled] ∧
    of [ruled, plain, named] = of [plain, named, ruled] ∧
    of [plain, named, ruled] =
      { total := 3, errors := 1, warnings := 1, infos := 1,
        bySource := [("ESLint", 1), ("unknown", 2)], byRule := [("eqeqeq", 1), ("unknown", 2)],
        byLine := [(0, 1), (3, 2)] } ∧
    Status.ofFindings [plain, named, ruled] = .done 1 1 1 := by
  intro plain named ruled
  have perm : [ruled, plain, named].Perm [plain, named, ruled] := by decide
  have counted : of [plain, named, ruled] =
      { total := 3, errors := 1, warnings := 1, infos := 1,
        bySource := [("ESLint", 1), ("unknown", 2)], byRule := [("eqeqeq", 1), ("unknown", 2)],
        byLine := [(0, 1), (3, 2)] } := by
    decide +kernel
  obtain ⟨_, ordered, _, status⟩ := counting_conserves_and_ignores_order [plain, named, ruled]
  refine ⟨perm, ordered _ perm, counted, status.trans ?_⟩
  rw [counted]

end Stats
end BufferLint
