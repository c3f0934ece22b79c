import BufferLint.Scan.Heuristic

/-! Checks on Python, each line by itself. -/
namespace BufferLint.Scan.Python

open BufferLint.Text

def mixedIndentation (line : List Char) : Bool :=
  line.contains '\t' && occurs [' ', ' ', ' ', ' '] line

def isValue (c : Char) : Bool := c.isDigit || c == '\x22' || c == '\x27'

def gapThenValue (cs : List Char) : Bool :=
  cs.head?.any isBlank && (cs.dropWhile isBlank).head?.any isValue

def adjacentValues : List Char → Bool
  | [] => false
  | c :: rest => (isValue c && gapThenValue rest) || adjacentValues rest

/-- A bracket stays open, nothing on the line separates, and two values stand side by side. -/
def missingComma (line : List Char) : Bool :=
  let opens := line.countP (fun c => c == '[' || c == '(')
  let closes := line.countP (fun c => c == ']' || c == ')')
  closes < opens && !line.contains ',' && adjacentValues line

def lineFindings (number : Nat) (line : List Char) : List Diagnostic :=
  (if mixedIndentation line then
    [.place number 0 "Mixed tabs and spaces" .warning localSource "mixed-indentation"] else []) ++
  (if missingComma line then
    [.place number (lastColumn line) "Missing comma in list or tuple" .warning localSource
      "missing-comma"] else [])

def scan (content : List Char) : List Diagnostic :=
  (lines content).zipIdx.flatMap (fun l => lineFindings l.2 (dropReturn l.1))

end BufferLint.Scan.Python
