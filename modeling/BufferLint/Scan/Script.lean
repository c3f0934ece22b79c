import BufferLint.Scan.Heuristic

/-! The scanner for JavaScript and TypeScript. One pass from left to right keeps apart code,
string literals and comments, pairs brackets over the whole text, and asks the heuristics at the
places that are code. Between two lines only the region and the open brackets are kept. The brackets
of a line are counted in signed 32-bit words; a count that they cannot hold wraps around, where the
build does not stop at it. -/
namespace BufferLint.Scan.Script

open BufferLint.Text

/-- What the next character belongs to. A line comment needs no region: it ends its line. -/
inductive Region where
  | code
  | literal (delimiter : Char)
  | comment
  deriving DecidableEq, Repr

structure Opening where
  bracket : Char
  line : Nat
  column : Nat
  deriving DecidableEq, Repr

/-- What is kept from one line to the next. `openings` has the innermost bracket first, `found` the
newest finding first. -/
structure Pass where
  region : Region := .code
  openings : List Opening := []
  found : List Diagnostic := []

structure Row where
  braces : Int32 := 0
  squares : Int32 := 0
  hasCode : Bool := false

def isOpening (c : Char) : Bool := c == '(' || c == '[' || c == '\x7b'

def isClosing (c : Char) : Bool := c == ')' || c == ']' || c == '\x7d'

def bracketName (c : Char) : String :=
  if c == '(' || c == ')' then "parenthesis"
  else if c == '\x7b' || c == '\x7d' then "brace"
  else "bracket"

def extraClosing (line column : Nat) (c : Char) : Diagnostic :=
  .place line column ("Extra closing " ++ bracketName c) .error localSource
    "extra-closing-bracket"

def unclosed (o : Opening) : Diagnostic :=
  .place o.line o.column ("Unclosed " ++ bracketName o.bracket) .error localSource
    "unclosed-bracket"

namespace Row

def inContainer (row : Row) : Bool := row.braces > 0 || row.squares > 0

def see (row : Row) (c : Char) : Row :=
  let row := { row with hasCode := row.hasCode || !isBlank c }
  if c == '\x7b' then { row with braces := row.braces + 1 }
  else if c == '\x7d' then { row with braces := row.braces - 1 }
  else if c == '[' then { row with squares := row.squares + 1 }
  else if c == ']' then { row with squares := row.squares - 1 }
  else row

end Row

namespace Pass

/-- A bracket in code. A closing one takes the innermost opening, whatever its kind. -/
def pairBracket (pass : Pass) (line column : Nat) (c : Char) : Pass :=
  if isOpening c then { pass with openings := ⟨c, line, column⟩ :: pass.openings }
  else if isClosing c then
    match pass.openings with
    | [] => { pass with found := extraClosing line column c :: pass.found }
    | _ :: outer => { pass with openings := outer }
  else pass

def report (pass : Pass) (ds : List Diagnostic) : Pass :=
  { pass with found := ds.reverse ++ pass.found }

/-- A code character that begins neither a comment nor a literal. -/
def readCode (pass : Pass) (line column : Nat) (cursor : Cursor) (c : Char) : Pass :=
  (pass.pairBracket line column c).report (findingsAt line column cursor)

end Pass

/- Reads a line from `column` on; `before` is the character left of it. A backslash in a literal
takes the character after it along, and at the end of the line it takes the line break. -/
def readFrom (line : Nat) : List Char → Nat → Option Char → Row → Pass → Row × Pass
  | [], _, _, row, pass => (row, pass)
  | c :: rest, column, before, row, pass =>
    match pass.region with
    | .literal delimiter =>
      if c == '\x5c' then
        match rest with
        | [] => (row, pass)
        | escaped :: rest => readFrom line rest (column + 2) (some escaped) row pass
      else if c == delimiter then
        readFrom line rest (column + 1) (some c) row { pass with region := .code }
      else readFrom line rest (column + 1) (some c) row pass
    | .comment =>
      match c, rest with
      | '*', '/' :: rest =>
        readFrom line rest (column + 2) (some '/') row { pass with region := .code }
      | _, rest => readFrom line rest (column + 1) (some c) row pass
    | .code =>
      match c, rest with
      | '/', '/' :: _ => (row, pass)
      | '/', '*' :: rest =>
        readFrom line rest (column + 2) (some '*') row { pass with region := .comment }
      | _, rest =>
        let row := row.see c
        if isQuote c then
          readFrom line rest (column + 1) (some c) row { pass with region := .literal c }
        else
          readFrom line rest (column + 1) (some c) row
            (pass.readCode line column ⟨before, c :: rest, row.inContainer⟩ c)

def readLine (pass : Pass) (line : Nat) (text : List Char) : Pass :=
  let (row, pass) := readFrom line text 0 none {} pass
  pass.report (findingsAtEnd line ⟨text, row.hasCode, pass.region == .code⟩)

def readLines (content : List Char) : Pass :=
  (lines content).zipIdx.foldl (fun pass l => readLine pass l.2 (dropReturn l.1)) {}

/-- Findings in the order of the text, then the brackets that nothing closed. -/
def scan (content : List Char) : List Diagnostic :=
  let pass := readLines content
  pass.found.reverse ++ pass.openings.reverse.map unclosed

end BufferLint.Scan.Script
