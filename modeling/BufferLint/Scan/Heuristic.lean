import BufferLint.Diagnostic
import BufferLint.Text.Alphanumeric
import BufferLint.Text.Blank
import BufferLint.Text.Lines

/-! Pattern checks on one line. A rule says what is wrong and how it is reported; whoever walks
the line decides at which places a rule is asked. -/
namespace BufferLint.Scan

open BufferLint.Text

def localSource : String := "Local Checker"

/- A place inside a line. `inContainer` holds when the line has opened more braces or more square
brackets than it has closed up to here. -/
structure Cursor where
  before : Option Char
  ahead : List Char
  inContainer : Bool

structure PositionRule where
  name : String
  severity : Severity
  message : String
  /-- How far behind the cursor the finding is reported. -/
  offset : Nat
  applies : Cursor → Bool

def PositionRule.report (rule : PositionRule) (line index : Nat) : Diagnostic :=
  .place line (index + rule.offset) rule.message rule.severity localSource rule.name

structure LineEnd where
  text : List Char
  hasCode : Bool
  endsInCode : Bool

structure LineRule where
  name : String
  severity : Severity
  message : String
  applies : LineEnd → Bool

/-- A finding about a whole line stands at its last character. -/
def lastColumn (line : List Char) : Nat := line.length - 1

def LineRule.report (rule : LineRule) (line : Nat) (text : List Char) : Diagnostic :=
  .place line (lastColumn text) rule.message rule.severity localSource rule.name

def isQuote (c : Char) : Bool := c == '\x22' || c == '\x27' || c == '\x60'

def startsValue (c : Char) : Bool := isAlphanumeric c || isQuote c || c == '_' || c == '$'

def endsValue (c : Char) : Bool := startsValue c || c == ']' || c == '\x7d' || c == ')'

/-- Two equal signs between spaces; three of them do not match. -/
def looseEqualityPattern : List Char := [' ', '=', '=', ' ']

def looseEquality : PositionRule where
  name := "eqeqeq"
  severity := .warning
  message := "Suggest using === instead of =="
  offset := 1
  applies cursor := looseEqualityPattern.isPrefixOf cursor.ahead

/-- The first blank after a value, when another value follows it inside an open container. -/
def gapBetweenValues (cursor : Cursor) : Bool :=
  match cursor.before, cursor.ahead with
  | some previous, here :: _ =>
    cursor.inContainer && isBlank here && !isBlank previous && endsValue previous &&
      (cursor.ahead.find? (fun c => !isBlank c)).any startsValue
  | _, _ => false

def missingSeparator : PositionRule where
  name := "missing-comma"
  severity := .warning
  message := "Missing comma in array or object"
  offset := 0
  applies := gapBetweenValues

/-- In the order in which findings at one place are reported. -/
def positionRules : List PositionRule := [looseEquality, missingSeparator]

/-- Words that make a line a block header. They count anywhere in the line, inside names too. -/
def headerWords : List String := ["function", "if", "for", "while", "=>"]

def lineCommentMark : List Char := ['/', '/']

def endsStatement (c : Char) : Bool := c == ';' || c == '\x7b' || c == '\x7d'

def lacksSemicolon (l : LineEnd) : Bool :=
  let trimmed := trim l.text
  !trimmed.isEmpty && l.hasCode && l.endsInCode && !trimmed.getLast?.any endsStatement &&
    !lineCommentMark.isPrefixOf trimmed && !headerWords.any (fun w => occurs w.toList trimmed)

def missingSemicolon : LineRule where
  name := "semi"
  severity := .info
  message := "Suggest adding semicolon"
  applies := lacksSemicolon

def lineRules : List LineRule := [missingSemicolon]

def findingsAt (line index : Nat) (cursor : Cursor) : List Diagnostic :=
  (positionRules.filter (fun rule => rule.applies cursor)).map (fun rule => rule.report line index)

def findingsAtEnd (line : Nat) (l : LineEnd) : List Diagnostic :=
  (lineRules.filter (fun rule => rule.applies l)).map (fun rule => rule.report line l.text)

end BufferLint.Scan
