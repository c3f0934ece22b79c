import BufferLint.Json.Reader
import BufferLint.Scan.Heuristic

/-! The check of a JSON buffer: the first fault that reading it meets, if any. The reader counts
bytes from one, a finding counts characters from zero. -/
namespace BufferLint.Scan.JsonSyntax

open BufferLint.Text

def charactersBefore (offset : Nat) : List Char → Nat → Nat
  | [], _ => 0
  | c :: rest, position =>
    if position < offset then charactersBefore offset rest (position + c.utf8Size) + 1 else 0

/-- Line and column of a fault, kept inside the text. -/
def position (content : List Char) (line byteColumn : Nat) : Nat × Nat :=
  let ls := lines content
  let index := min (line - 1) (ls.length - 1)
  (index, charactersBefore (byteColumn - 1) (ls[index]?.getD []) 0)

def scan (content : List Char) : List Diagnostic :=
  match Json.parse (String.ofList content) with
  | .ok _ => []
  | .error e =>
    let (line, column) := position content e.line e.column
    [.place line column ("JSON syntax error: " ++ e.message) .error "JSON Parser" "json-syntax"]

end BufferLint.Scan.JsonSyntax
