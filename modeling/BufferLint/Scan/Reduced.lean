import BufferLint.Scan.Heuristic

/-! The analysis for buffers that are too long and for languages without a scanner of their own:
loose equality, once a line, without telling code from literals and comments. -/
namespace BufferLint.Scan.Reduced

open BufferLint.Text

def notice : Diagnostic :=
  .place 0 0 "File too large for detailed analysis. Using basic checks only." .info "Performance"
    "large-file"

/-- The first index, counted from `index`, at which the rest of the line is a loose equality. -/
def firstLoose : List Char → Nat → Option Nat
  | [], _ => none
  | c :: rest, index =>
    if looseEquality.applies ⟨none, c :: rest, false⟩ then some index
    else firstLoose rest (index + 1)

def lineFindings (number : Nat) (line : List Char) : List Diagnostic :=
  ((firstLoose line 0).map (looseEquality.report number)).toList

def scan (content : List Char) : List Diagnostic :=
  (lines content).zipIdx.flatMap (fun l => lineFindings l.2 l.1)

end BufferLint.Scan.Reduced
