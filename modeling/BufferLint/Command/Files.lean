import BufferLint.Text.Utf8

/-! The files a command may read, and how a path leads to one. -/
namespace BufferLint.Command

inductive Lookup where
  | missing
  | unreadable
  | contents (bytes : Text.Bytes)
  deriving DecidableEq, Repr

abbrev Files := String → Lookup

/-- A place among directories: the names that lead to it from the root. -/
abbrev Place := List String

/-- Files with their places, and directories that need not have any file in them. -/
structure FileTree where
  files : List (Place × Text.Bytes)
  directories : List Place := []

namespace FileTree

def isDirectory (t : FileTree) (place : Place) : Bool :=
  place.isEmpty || t.directories.any (fun d => place.isPrefixOf d) ||
    t.files.any (fun f => place.isPrefixOf f.1 && place != f.1)

/- Follows the parts of a path. Only a directory can be gone through, be it to stay there. -/
def follow (t : FileTree) : Place → List String → Option Place
  | place, [] => some place
  | place, part :: rest =>
    if !t.isDirectory place then none
    else if part = "" || part = "." then follow t place rest
    else if part = ".." then follow t place.dropLast rest
    else follow t (place ++ [part]) rest

def contentsAt (t : FileTree) (place : Place) : Lookup :=
  if t.isDirectory place then .unreadable
  else
    match t.files.lookup place with
    | some bytes => .contents bytes
    | none => .missing

def lookup (t : FileTree) (directory : Place) : Files := fun path =>
  match t.follow (if path.startsWith "/" then [] else directory) (path.splitOn "/") with
  | some place => t.contentsAt place
  | none => .missing

end FileTree
end BufferLint.Command
