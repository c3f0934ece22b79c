import BufferLint.Settings.Json

/-! Where settings are kept: in memory, or in a file that others may change. -/
namespace BufferLint

/-- A file and the directory it is in. -/
structure SettingsFile where
  hasDirectory : Bool := true
  contents : Option Text.Bytes := none
  deriving DecidableEq, Repr

namespace SettingsFile

def defaultName : String := ".hybridcheck.json"

def load (f : SettingsFile) : Except SettingsError Settings :=
  match f.contents with
  | none => .ok {}
  | some bytes =>
    match Text.decodeUtf8? bytes with
    | none => .error (.inaccessible "stream did not contain valid UTF-8")
    | some text => Settings.ofText text

def get (f : SettingsFile) : Settings :=
  match f.load with
  | .ok s => s
  | .error _ => {}

def write (f : SettingsFile) (bytes : Text.Bytes) : Except SettingsError SettingsFile :=
  if f.hasDirectory then .ok { f with contents := some bytes }
  else .error (.inaccessible "No such file or directory (os error 2)")

def save (f : SettingsFile) (s : Settings) : Except SettingsError SettingsFile := do
  s.validate
  f.write (Text.utf8 s.toText)

def remove (f : SettingsFile) : SettingsFile := { f with contents := none }

def removeDirectory (_ : SettingsFile) : SettingsFile := ⟨false, none⟩

end SettingsFile

inductive SettingsStore where
  | memory (settings : Settings)
  | file (file : SettingsFile)

namespace SettingsStore

def get : SettingsStore → Settings
  | .memory s => s
  | .file f => f.get

/-- Memory takes what it is given; a file only what it could give back. -/
def save (store : SettingsStore) (s : Settings) : Except SettingsError SettingsStore :=
  match store with
  | .memory _ => .ok (.memory s)
  | .file f => (f.save s).map .file

/-- The file of a store that has one, changed by somebody else. -/
def changeFile (change : SettingsFile → SettingsFile) : SettingsStore → SettingsStore
  | .memory s => .memory s
  | .file f => .file (change f)

end SettingsStore
end BufferLint
