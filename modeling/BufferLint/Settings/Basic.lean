import BufferLint.FileType
import BufferLint.Settings.Error

/-! What a user decides about checking. -/
namespace BufferLint

structure Settings where
  enabled : Bool := true
  /-- Check again after every change of the buffer. -/
  realtime : Bool := true
  useRemote : Bool := false
  /-- Run the local engine when a service fails. -/
  fallbackToLocal : Bool := true
  /-- The least severity that is delivered. -/
  level : Severity := .warning
  timeoutMs : UInt64 := 5000
  /-- How long a buffer has to be quiet before it is checked. -/
  delayMs : UInt64 := 1500
  endpoints : FileType → Option String := fun _ => none
  /-- The languages whose service failures are not taken for an empty answer. -/
  strict : List FileType := [.typescript]

namespace Settings

instance : Inhabited Settings := ⟨{}⟩

def validate (s : Settings) : Except SettingsError Unit :=
  if s.timeoutMs = 0 then .error (.invalid "timeoutMs must be greater than 0") else .ok ()

def defaultEndpoint : FileType → Option String
  | .javascript => some "https://eslint.org/api/playground"
  | .typescript => some "https://typescript-compiler.vercel.app/api"
  | .python => some "https://pyright-checker.vercel.app/api"
  | _ => none

def endpoint (s : Settings) (t : FileType) : Option String :=
  (s.endpoints t).or (defaultEndpoint t)

def isStrict (s : Settings) (t : FileType) : Bool := s.strict.contains t

def timeout (s : Settings) : Nat := s.timeoutMs.toNat

def delay (s : Settings) : Nat := s.delayMs.toNat

end Settings
end BufferLint
