import BufferLint.Severity

/-! A finding at a place of a buffer. Lines and columns are stored as 32-bit words counted from
zero and shown counted from one. The sum is a 32-bit word as well, and one that overflows is no
number: what it belongs to cannot be shown. -/
namespace BufferLint

structure Diagnostic where
  line : UInt32
  column : UInt32
  message : String
  severity : Severity := .warning
  source : String := ""
  rule : Option String := none
  deriving DecidableEq, Repr, Inhabited

namespace Diagnostic

/-- A place that was counted with natural numbers. -/
def place (line column : Nat) (message : String) (severity : Severity) (source : String)
    (rule : String) : Diagnostic :=
  { line := UInt32.ofNat line, column := UInt32.ofNat column, message, severity, source,
    rule := some rule }

/-- A stored position as a person counts it, unless that overflows. -/
def shown (position : UInt32) : Option String :=
  if position + 1 = 0 then none else some (toString (position + 1).toNat)

def text (d : Diagnostic) : Option String := do
  let line ← shown d.line
  let column ← shown d.column
  let head := line ++ ":" ++ column ++ " " ++ d.severity.word ++ " " ++ d.message
  return match d.rule with
    | some rule => head ++ " (" ++ rule ++ ")"
    | none => head

/-- Worst first, then from the top of the buffer down. -/
def displayedBefore (a b : Diagnostic) : Bool :=
  if a.severity.rank = b.severity.rank then
    if a.line = b.line then a.column ≤ b.column else a.line < b.line
  else a.severity.rank < b.severity.rank

def sortForDisplay (ds : List Diagnostic) : List Diagnostic := ds.mergeSort displayedBefore

def keepAtLeast (least : Severity) (ds : List Diagnostic) : List Diagnostic :=
  ds.filter (fun d => d.severity.atLeast least)

def count (severity : Severity) (ds : List Diagnostic) : Nat :=
  ds.countP (fun d => d.severity == severity)

end Diagnostic
end BufferLint
