import BufferLint.Json.Basic
import BufferLint.Text.Quoted

/-! Turning JSON values into values of the domain, with the reason why one does not fit. -/
namespace BufferLint.Json

/-- What stood where something else was expected. -/
inductive Found where
  | bool (value : Bool)
  | integer (value : Int)
  | double (value : Decimal.Binary64)
  | string (value : String)
  | null
  | sequence
  | map
  deriving DecidableEq, Repr

def Found.text : Found → String
  | .bool b => "boolean `" ++ (if b then "true" else "false") ++ "`"
  | .integer i => "integer `" ++ toString i ++ "`"
  | .double x => "floating point `" ++ String.ofList (Decimal.numberText x) ++ "`"
  | .string s => "string " ++ Text.quoted s
  | .null => "null"
  | .sequence => "sequence"
  | .map => "map"

def found : Json → Found
  | .null => .null
  | .bool b => .bool b
  | .number (.integer i) => .integer i
  | .number (.double x) => .double x
  | .string s => .string s
  | .array _ => .sequence
  | .object _ => .map

inductive DecodeError where
  | wrongType (found : Found) (expected : String)
  | wrongValue (found : Found) (expected : String)
  | wrongLength (length : Nat) (expected : String)
  | unknownVariant (name : String) (known : List String)
  | missingField (name : String)
  deriving DecidableEq, Repr

def oneOf (names : List String) : String :=
  ", ".intercalate (names.map (fun name => "`" ++ name ++ "`"))

def DecodeError.message : DecodeError → String
  | .wrongType found expected => "invalid type: " ++ found.text ++ ", expected " ++ expected
  | .wrongValue found expected => "invalid value: " ++ found.text ++ ", expected " ++ expected
  | .wrongLength length expected =>
    "invalid length " ++ toString length ++ ", expected " ++ expected
  | .unknownVariant name known =>
    "unknown variant `" ++ name ++ "`, expected one of " ++ oneOf known
  | .missingField name => "missing field `" ++ name ++ "`"

def mismatch {α : Type} (j : Json) (expected : String) : Except DecodeError α :=
  .error (.wrongType j.found expected)

def decodeBool : Json → Except DecodeError Bool
  | .bool b => .ok b
  | j => mismatch j "a boolean"

def decodeString : Json → Except DecodeError String
  | .string s => .ok s
  | j => mismatch j "a string"

def decodeOptional {α : Type} (decode : Json → Except DecodeError α) :
    Json → Except DecodeError (Option α)
  | .null => .ok none
  | j => (decode j).map some

def decodeWord (expected : String) (bound : Nat) : Json → Except DecodeError Nat
  | .number (.integer i) =>
    if 0 ≤ i ∧ i < bound then .ok i.toNat else .error (.wrongValue (.integer i) expected)
  | j => mismatch j expected

def decodeWord32 (j : Json) : Except DecodeError UInt32 :=
  (decodeWord "u32" 0x100000000 j).map UInt32.ofNat

def decodeWord64 (j : Json) : Except DecodeError UInt64 :=
  (decodeWord "u64" 0x10000000000000000 j).map UInt64.ofNat

def decodeName {α : Type} (word : α → String) (known : List α) (name : String) :
    Except DecodeError α :=
  match known.find? (fun a => word a == name) with
  | some a => .ok a
  | none => .error (.unknownVariant name (known.map word))

/- One of a list of names: a string, or an object with that name alone and nothing behind it. -/
def decodeVariant {α : Type} (word : α → String) (known : List α) : Json → Except DecodeError α
  | .string name => decodeName word known name
  | .object [(name, value)] => do
    let a ← decodeName word known name
    match value with
    | .null => return a
    | _ => mismatch value "unit"
  | .object _ => .error (.wrongValue .map "map with a single key")
  | j => mismatch j "string or map"

def decodeList {α : Type} (decode : Json → Except DecodeError α) :
    Json → Except DecodeError (List α)
  | .array items => items.mapM decode
  | j => mismatch j "a sequence"

/- The fields of a record: those of an object in the order of their names, or the items of an
array under the names given, in that order. -/
def recordFields (record : String) (names : List String) :
    Json → Except DecodeError (List (String × Json))
  | .object fields => .ok fields
  | .array items => .ok (names.zip items)
  | j => mismatch j record

def checkLength (names : List String) : Json → Except DecodeError Unit
  | .array items =>
    if names.length < items.length then .error (.wrongLength items.length "fewer elements in array")
    else .ok ()
  | _ => .ok ()

end BufferLint.Json
