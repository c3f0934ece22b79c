import BufferLint.Command.Report

/-! What can be printed. A position is told as the number one higher, unless it is the last that can
be stored, and a report is printed whole unless such a position is in it. -/
namespace BufferLint

namespace Diagnostic

def last : UInt32 := 0xffffffff

def exactly (position : UInt32) : String := toString (position.toNat + 1)

/-- The text of a finding with the positions as a person counts them. -/
def exactText (d : Diagnostic) : String :=
  let head := exactly d.line ++ ":" ++ exactly d.column ++ " " ++ d.severity.word ++ " " ++
    d.message
  match d.rule with
  | some rule => head ++ " (" ++ rule ++ ")"
  | none => head

theorem shown_eq (position : UInt32) :
    shown position = if position = last then none else some (exactly position) := by
  by_cases end_ : position = last
  · rw [end_, if_pos rfl]
    rfl
  · have different : position.toNat ≠ 0xffffffff := fun same => end_ (UInt32.toNat_inj.mp same)
    have small : position.toNat + 1 < 2 ^ 32 := by
      have bound := position.toNat_lt
      omega
    have next : (position + 1).toNat = position.toNat + 1 := by
      rw [UInt32.toNat_add, UInt32.toNat_one, Nat.mod_eq_of_lt small]
    have positive : position + 1 ≠ 0 := by
      intro zero
      rw [zero] at next
      cases next
    rw [shown, if_neg positive, if_neg end_, next, exactly]

theorem text_eq (d : Diagnostic) :
    d.text = if d.line = last ∨ d.column = last then none else some d.exactText := by
  rw [text, shown_eq, shown_eq]
  by_cases line : d.line = last
  · simp [line]
  · by_cases column : d.column = last
    · simp [line, column]
    · simp only [line, column, if_false, or_self]
      rfl

end Diagnostic

namespace Command.Report

open Diagnostic (last exactly)

theorem lineRow_eq (r : UInt32 × Nat) :
    lineRow r = if r.1 = last then none else line (row (exactly r.1) r.2) := by
  rw [lineRow, Diagnostic.shown_eq]
  split <;> rfl

end Command.Report
end BufferLint
