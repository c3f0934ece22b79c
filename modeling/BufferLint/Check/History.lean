import BufferLint.Check.Stats
import BufferLint.FileType
import BufferLint.Text.Lines

/-! What was delivered, and for which file. Only the newest records are kept. -/
namespace BufferLint

/-- The file that was checked; its size is in characters. -/
structure FileMeta where
  name : String
  type : FileType
  size : Nat
  lines : Nat
  deriving DecidableEq, Repr

def FileMeta.of (name : String) (type : FileType) (content : String) : FileMeta where
  name
  type
  size := content.toList.length
  lines := (Text.lines content.toList).length

structure CheckRecord where
  diagnostics : List Diagnostic
  file : FileMeta
  stats : Stats
  deriving DecidableEq, Repr

def CheckRecord.of (ds : List Diagnostic) (file : FileMeta) : CheckRecord :=
  ⟨ds, file, Stats.of ds⟩

/-- Records, oldest first. -/
abbrev History := List CheckRecord

namespace History

def limit : Nat := 50

def push (h : History) (record : CheckRecord) : History :=
  (if h.length = limit then h.drop 1 else h) ++ [record]

end History
end BufferLint
