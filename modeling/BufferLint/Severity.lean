/-! How much a finding matters. The most severe level comes first. -/
namespace BufferLint

inductive Severity where
  | error
  | warning
  | info
  deriving DecidableEq, Repr, Inhabited

namespace Severity

def all : List Severity := [.error, .warning, .info]

def rank : Severity → Nat
  | .error => 0
  | .warning => 1
  | .info => 2

def word : Severity → String
  | .error => "error"
  | .warning => "warning"
  | .info => "info"

def ofWord? (w : String) : Option Severity := all.find? (fun s => s.word == w)

@[simp] theorem ofWord_word (s : Severity) : ofWord? s.word = some s := by
  cases s <;> decide

theorem rank_injective {a b : Severity} (h : a.rank = b.rank) : a = b := by
  cases a <;> cases b <;> simp_all [rank]

def atLeast (s least : Severity) : Bool := s.rank ≤ least.rank

end Severity

end BufferLint
