import BufferLint.Diagnostic
import BufferLint.FileType

/-! The result of the last scan. It answers for the same text in the same language, and only for a
while. -/
namespace BufferLint

structure CachedScan where
  content : String
  type : FileType
  diagnostics : List Diagnostic
  storedAt : Nat
  deriving DecidableEq, Repr

structure Cache where
  /-- For how many milliseconds a result is good. -/
  life : Nat := 1000
  slot : Option CachedScan := none
  deriving DecidableEq, Repr

namespace Cache

def isFresh (c : Cache) (scan : CachedScan) (now : Nat) : Bool := now - scan.storedAt < c.life

def get? (c : Cache) (content : String) (type : FileType) (now : Nat) :
    Option (List Diagnostic) :=
  match c.slot with
  | some scan =>
    if c.isFresh scan now && scan.type = type && scan.content = content then some scan.diagnostics
    else none
  | none => none

def store (c : Cache) (content : String) (type : FileType) (ds : List Diagnostic) (now : Nat) :
    Cache :=
  { c with slot := some ⟨content, type, ds, now⟩ }

def clear (c : Cache) : Cache := { c with slot := none }

def isEmpty (c : Cache) : Bool := c.slot.isNone

@[simp] theorem get_clear (c : Cache) (content : String) (type : FileType) (now : Nat) :
    c.clear.get? content type now = none := rfl

end Cache
end BufferLint
