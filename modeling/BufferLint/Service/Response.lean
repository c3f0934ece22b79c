import BufferLint.Diagnostic
import BufferLint.Json.Reader
import BufferLint.Service.Basic
import BufferLint.Service.Error

/-! What a service found, read from its answer. An answer that is not JSON is an error; inside JSON
whatever is missing or of another type has a default. -/
namespace BufferLint.Service

def follow : List String → Json → Option Json
  | [], j => some j
  | name :: rest, j => (j.field? name).bind (follow rest)

/- A position; what does not fit 32 bits is cut down to the largest that does. -/
def positionAt (path : List String) (item : Json) : Option UInt32 :=
  ((follow path item).bind Json.natural?).map (fun n => UInt32.ofNat (min n 0xffffffff))

def textAt (path : List String) (item : Json) : Option String :=
  (follow path item).bind Json.string?

/-- A rule is named by a string or by a number. -/
def codeAt (path : List String) (item : Json) : Option String :=
  match follow path item with
  | some (.string s) => some s
  | some (.number n) => some (String.ofList n.text)
  | _ => none

/- A position counted from one; nothing lies before the first. -/
def fromOne (position : Option UInt32) : UInt32 :=
  let p := position.getD 1
  if p = 0 then 0 else p - 1

def severityOfNumber : Option Json → Severity
  | some (.number (.integer 2)) => .error
  | _ => .warning

def severityOfWord (error info : String) (value : Option Json) : Severity :=
  match value with
  | some (.string s) => if s = error then .error else if s = info then .info else .warning
  | _ => .warning

def readItem (s : Service) (item : Json) : Diagnostic :=
  match s with
  | .eslint =>
    { line := fromOne (positionAt ["line"] item)
      column := fromOne (positionAt ["column"] item)
      message := (textAt ["message"] item).getD ""
      severity := severityOfNumber (follow ["severity"] item)
      source := s.source
      rule := textAt ["ruleId"] item }
  | .typescript =>
    { line := (positionAt ["start", "line"] item).getD 0
      column := (positionAt ["start", "character"] item).getD 0
      message := (textAt ["messageText"] item).getD ""
      severity := severityOfWord "error" "suggestion" (follow ["category"] item)
      source := s.source
      rule := codeAt ["code"] item }
  | .pyright =>
    { line := (positionAt ["range", "start", "line"] item).getD 0
      column := (positionAt ["range", "start", "character"] item).getD 0
      message := (textAt ["message"] item).getD ""
      severity := severityOfWord "error" "information" (follow ["severity"] item)
      source := s.source
      rule := codeAt ["rule"] item }

def listField : Service → String
  | .eslint => "messages"
  | .typescript | .pyright => "diagnostics"

def readItems (s : Service) (answer : Json) : List Diagnostic :=
  (((answer.field? s.listField).bind Json.array?).getD []).map s.readItem

def readResponse (s : Service) (body : Text.Bytes) : Except ServiceError (List Diagnostic) :=
  match Json.parseBytes body with
  | .ok answer => .ok (s.readItems answer)
  | .error e => .error (.payload e.message)

end BufferLint.Service
