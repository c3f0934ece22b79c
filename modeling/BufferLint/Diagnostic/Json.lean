import BufferLint.Diagnostic
import BufferLint.Json.Decode

/-! Diagnostics as JSON. A missing rule is written as no field at all; reading takes a missing or
null rule for none and a missing severity for a warning. -/
namespace BufferLint.Diagnostic

open BufferLint.Json (DecodeError)

def fieldNames : List String := ["line", "column", "message", "severity", "source", "rule"]

def toJson (d : Diagnostic) : Json :=
  .object ([("column", .nat d.column.toNat), ("line", .nat d.line.toNat),
      ("message", .string d.message)] ++
    (d.rule.map (fun rule => ("rule", Json.string rule))).toList ++
    [("severity", .string d.severity.word), ("source", .string d.source)])

structure Draft where
  line : Option UInt32 := none
  column : Option UInt32 := none
  message : Option String := none
  severity : Severity := .warning
  source : Option String := none
  rule : Option String := none

def Draft.read (draft : Draft) (field : String × Json) : Except DecodeError Draft :=
  match field.1 with
  | "line" => return { draft with line := some (← Json.decodeWord32 field.2) }
  | "column" => return { draft with column := some (← Json.decodeWord32 field.2) }
  | "message" => return { draft with message := some (← Json.decodeString field.2) }
  | "severity" =>
    return { draft with severity := ← Json.decodeVariant Severity.word Severity.all field.2 }
  | "source" => return { draft with source := some (← Json.decodeString field.2) }
  | "rule" => return { draft with rule := ← Json.decodeOptional Json.decodeString field.2 }
  | _ => return draft

/- How a record that lacks the field at `index` is reported: an object by the name, an array by
the number of items it should have had before it. -/
def lacking (j : Json) (index : Nat) (name : String) : DecodeError :=
  match j with
  | .array _ => .wrongLength index "struct Diagnostic with 6 elements"
  | _ => .missingField name

def required {α : Type} (j : Json) (index : Nat) (name : String) (value : Option α) :
    Except DecodeError α :=
  match value with
  | some a => .ok a
  | none => .error (lacking j index name)

def ofJson (j : Json) : Except DecodeError Diagnostic := do
  let fields ← Json.recordFields "struct Diagnostic" fieldNames j
  let draft ← fields.foldlM Draft.read {}
  let line ← required j 0 "line" draft.line
  let column ← required j 1 "column" draft.column
  let message ← required j 2 "message" draft.message
  let source ← required j 4 "source" draft.source
  Json.checkLength fieldNames j
  return ⟨line, column, message, draft.severity, source, draft.rule⟩

def listToJson (ds : List Diagnostic) : Json := .array (ds.map toJson)

end BufferLint.Diagnostic
