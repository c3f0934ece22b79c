/-! The text being edited. Every change counts, also one that leaves the text as it was. -/
namespace BufferLint

structure Buffer where
  name : Option String := none
  text : String := ""
  revision : Nat := 0
  deriving DecidableEq, Repr

namespace Buffer

def replace (b : Buffer) (name : Option String) (text : String) : Buffer :=
  ⟨name, text, b.revision + 1⟩

def setText (b : Buffer) (text : String) : Buffer := b.replace b.name text

def switchTo (b : Buffer) (name text : String) : Buffer := b.replace (some name) text

def close (b : Buffer) : Buffer := b.replace none ""

def opened (name text : String) : Buffer := ({} : Buffer).switchTo name text

end Buffer
end BufferLint
