import BufferLint.Severity
import BufferLint.Text.Lowered

/-! What can be wrong with settings. -/
namespace BufferLint

inductive SettingsError where
  /-- The text is not settings. -/
  | unreadable (reason : String)
  /-- A value is out of range or unknown. -/
  | invalid (reason : String)
  /-- The file cannot be read or written. -/
  | inaccessible (reason : String)
  deriving DecidableEq, Repr

def SettingsError.message : SettingsError → String
  | .unreadable reason => "Parse error: " ++ reason
  | .invalid reason => "Invalid setting: " ++ reason
  | .inaccessible reason => "I/O error: " ++ reason

def Severity.ofText (t : String) : Except SettingsError Severity :=
  match Severity.ofWord? (Text.lowered t) with
  | some s => .ok s
  | none => .error (.invalid ("unknown severity level: " ++ Text.lowered t))

end BufferLint
