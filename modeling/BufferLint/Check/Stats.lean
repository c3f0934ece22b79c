import BufferLint.Decimal.Shortest
import BufferLint.Diagnostic

/-! Counting what a check found. -/
namespace BufferLint

/-- Keys with how often they were seen, in the order of the keys. -/
abbrev Tally (κ : Type) := List (κ × Nat)

namespace Tally

variable {κ : Type} [LT κ] [DecidableLT κ] [DecidableEq κ]

def add (key : κ) : Tally κ → Tally κ
  | [] => [(key, 1)]
  | row :: rest =>
    if key < row.1 then (key, 1) :: row :: rest
    else if key = row.1 then (key, row.2 + 1) :: rest
    else row :: add key rest

def of (keys : List κ) : Tally κ := keys.foldl (fun t key => add key t) []

section order

variable [LE κ] [Std.IsLinearOrder κ] [Std.LawfulOrderLT κ]

theorem add_add_comm (a b : κ) (t : Tally κ) : add a (add b t) = add b (add a t) := by
  induction t with
  | nil => grind [add]
  | cons row rest ih => grind [add]

theorem of_perm {keys others : List κ} (perm : keys.Perm others) : of keys = of others :=
  perm.foldl_eq' (fun a _ b _ t => add_add_comm b a t) []

end order

end Tally

structure Stats where
  total : Nat
  errors : Nat := 0
  warnings : Nat := 0
  infos : Nat := 0
  bySource : Tally String := []
  byRule : Tally String := []
  byLine : Tally UInt32 := []
  deriving DecidableEq, Repr

namespace Stats

def unknownKey : String := "unknown"

def sourceKey (d : Diagnostic) : String := if d.source.isEmpty then unknownKey else d.source

def ruleKey (d : Diagnostic) : String := d.rule.getD unknownKey

def addSeverity (s : Stats) : Severity → Stats
  | .error => { s with errors := s.errors + 1 }
  | .warning => { s with warnings := s.warnings + 1 }
  | .info => { s with infos := s.infos + 1 }

/-- One more finding. How many there are is known beforehand. -/
def add (s : Stats) (d : Diagnostic) : Stats :=
  { s.addSeverity d.severity with
    bySource := s.bySource.add (sourceKey d)
    byRule := s.byRule.add (ruleKey d)
    byLine := s.byLine.add d.line }

def of (ds : List Diagnostic) : Stats := ds.foldl add { total := ds.length }

theorem foldl_add (ds : List Diagnostic) (s : Stats) : ds.foldl add s =
    { total := s.total
      errors := s.errors + Diagnostic.count .error ds
      warnings := s.warnings + Diagnostic.count .warning ds
      infos := s.infos + Diagnostic.count .info ds
      bySource := (ds.map sourceKey).foldl (fun t key => t.add key) s.bySource
      byRule := (ds.map ruleKey).foldl (fun t key => t.add key) s.byRule
      byLine := (ds.map Diagnostic.line).foldl (fun t key => t.add key) s.byLine } := by
  induction ds generalizing s with
  | nil => rfl
  | cons d rest ih =>
    rw [List.foldl_cons, ih]
    cases severity : d.severity <;>
      simp [add, addSeverity, severity, Diagnostic.count, Nat.add_assoc, Nat.add_comm 1]

theorem of_eq (ds : List Diagnostic) : of ds =
    { total := ds.length
      errors := Diagnostic.count .error ds
      warnings := Diagnostic.count .warning ds
      infos := Diagnostic.count .info ds
      bySource := Tally.of (ds.map sourceKey)
      byRule := Tally.of (ds.map ruleKey)
      byLine := Tally.of (ds.map Diagnostic.line) } := by
  simp only [of, foldl_add, Nat.zero_add, Tally.of]

theorem of_perm {ds others : List Diagnostic} (perm : ds.Perm others) : of ds = of others := by
  simp only [of_eq, perm.length_eq, Diagnostic.count, perm.countP_eq, Tally.of_perm (perm.map _)]

/- The share of `count` in the total, in percent, as a double: multiplied first, then divided. -/
def percentage (s : Stats) (count : Nat) : Decimal.Binary64 :=
  if s.total = 0 then .ofNat 0
  else ((Decimal.Binary64.ofNat count).mul (.ofNat 100)).div (.ofNat s.total)

end Stats
end BufferLint
