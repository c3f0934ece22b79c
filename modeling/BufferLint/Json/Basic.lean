import BufferLint.Decimal.Shortest

/-! JSON values. An object keeps its fields in the order of their names, each name once. -/
namespace BufferLint

/- Whole numbers stay exact when they fit 64 bits; everything else is a double. -/
inductive Json.Number where
  | integer (value : Int)
  | double (value : Decimal.Binary64)
  deriving DecidableEq, Repr

inductive Json where
  | null
  | bool (value : Bool)
  | number (value : Json.Number)
  | string (value : String)
  | array (items : List Json)
  | object (fields : List (String × Json))
  deriving Repr, Inhabited

namespace Json

def Number.text : Number → List Char
  | .integer i => (toString i).toList
  | .double x => Decimal.numberText x

/-- The fields with `name` set to `value`, where they stay sorted. -/
def put (name : String) (value : Json) : List (String × Json) → List (String × Json)
  | [] => [(name, value)]
  | field :: rest =>
    if name < field.1 then (name, value) :: field :: rest
    else if name = field.1 then (name, value) :: rest
    else field :: put name value rest

/-- An object from fields as they were written; of two fields with one name the later one counts. -/
def ofFields (fields : List (String × Json)) : Json :=
  .object (fields.foldl (fun done field => put field.1 field.2 done) [])

def lookup (name : String) (fields : List (String × Json)) : Option Json :=
  (fields.find? (fun field => field.1 == name)).map Prod.snd

def field? (name : String) : Json → Option Json
  | .object fields => lookup name fields
  | _ => none

def array? : Json → Option (List Json)
  | .array items => some items
  | _ => none

def string? : Json → Option String
  | .string s => some s
  | _ => none

def natural? : Json → Option Nat
  | .number (.integer (.ofNat n)) => some n
  | _ => none

def nat (n : Nat) : Json := .number (.integer n)

end Json
end BufferLint
