import BufferLint.Json.Decode
import BufferLint.Json.Printer
import BufferLint.Json.Relaxed
import BufferLint.Settings.Basic

/-! Settings as text. They are written as indented JSON and read with every relaxation; a field
that is not there keeps its default, and a field that nobody knows is passed over. -/
namespace BufferLint.Settings

open BufferLint.Json (DecodeError)

def fieldNames : List String :=
  ["enabled", "realtimeChecking", "useRemote", "fallbackToLocal", "severityLevel", "timeoutMs",
    "checkDelayMs", "endpoints", "strictRemote"]

def endpointFields (s : Settings) : List (String × Json) :=
  FileType.all.filterMap (fun t => (s.endpoints t).map (fun url => (t.word, Json.string url)))

def fields (s : Settings) : List (String × Json) := [
  ("enabled", .bool s.enabled),
  ("realtimeChecking", .bool s.realtime),
  ("useRemote", .bool s.useRemote),
  ("fallbackToLocal", .bool s.fallbackToLocal),
  ("severityLevel", .string s.level.word),
  ("timeoutMs", .nat s.timeoutMs.toNat),
  ("checkDelayMs", .nat s.delayMs.toNat),
  ("endpoints", .object s.endpointFields),
  ("strictRemote", .array (s.strict.map (fun t => Json.string t.word)))]

def toJson (s : Settings) : Json := .object s.fields

def toText (s : Settings) : String := Json.pretty s.toJson

def setEndpoint (endpoints : FileType → Option String) (field : String × Json) :
    Except DecodeError (FileType → Option String) := do
  let t ← Json.decodeName FileType.word FileType.all field.1
  let url ← Json.decodeString field.2
  return fun u => if u = t then some url else endpoints u

def decodeEndpoints : Json → Except DecodeError (FileType → Option String)
  | .object fields => fields.foldlM setEndpoint (fun _ => none)
  | j => Json.mismatch j "a map"

def setField (s : Settings) (field : String × Json) : Except DecodeError Settings :=
  match field.1 with
  | "enabled" => return { s with enabled := ← Json.decodeBool field.2 }
  | "realtimeChecking" => return { s with realtime := ← Json.decodeBool field.2 }
  | "useRemote" => return { s with useRemote := ← Json.decodeBool field.2 }
  | "fallbackToLocal" => return { s with fallbackToLocal := ← Json.decodeBool field.2 }
  | "severityLevel" =>
    return { s with level := ← Json.decodeVariant Severity.word Severity.all field.2 }
  | "timeoutMs" => return { s with timeoutMs := ← Json.decodeWord64 field.2 }
  | "checkDelayMs" => return { s with delayMs := ← Json.decodeWord64 field.2 }
  | "endpoints" => return { s with endpoints := ← decodeEndpoints field.2 }
  | "strictRemote" =>
    return { s with
      strict := ← Json.decodeList (Json.decodeVariant FileType.word FileType.all) field.2 }
  | _ => return s

def ofJson (j : Json) : Except DecodeError Settings := do
  let fields ← Json.recordFields "struct Settings" fieldNames j
  let settings ← fields.foldlM setField {}
  Json.checkLength fieldNames j
  return settings

/-- A text without a value stands for the defaults. -/
def decodeText (text : String) : Except SettingsError Settings :=
  match Json.Relaxed.parse text with
  | .error e => .error (.unreadable ("Invalid JSON: " ++ e.message))
  | .ok none => .ok {}
  | .ok (some j) =>
    match ofJson j with
    | .error e => .error (.unreadable ("Invalid settings: " ++ e.message))
    | .ok s => .ok s

def ofText (text : String) : Except SettingsError Settings := do
  let s ← decodeText text
  s.validate
  return s

end BufferLint.Settings
