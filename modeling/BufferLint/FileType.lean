import BufferLint.Text.Lowered

/-! The languages a buffer can be written in, and how a file name tells which. -/
namespace BufferLint

inductive FileType where
  | javascript
  | typescript
  | python
  | json
  | html
  | css
  | lua
  | c
  | cpp
  | csharp
  | unknown
  deriving DecidableEq, Repr, Inhabited

namespace FileType

def all : List FileType :=
  [.javascript, .typescript, .python, .json, .html, .css, .lua, .c, .cpp, .csharp, .unknown]

def rank : FileType → Nat
  | .javascript => 0
  | .typescript => 1
  | .python => 2
  | .json => 3
  | .html => 4
  | .css => 5
  | .lua => 6
  | .c => 7
  | .cpp => 8
  | .csharp => 9
  | .unknown => 10

def word : FileType → String
  | .javascript => "javascript"
  | .typescript => "typescript"
  | .python => "python"
  | .json => "json"
  | .html => "html"
  | .css => "css"
  | .lua => "lua"
  | .c => "c"
  | .cpp => "cpp"
  | .csharp => "csharp"
  | .unknown => "unknown"

def displayName : FileType → String
  | .javascript => "JavaScript"
  | .typescript => "TypeScript"
  | .python => "Python"
  | .json => "JSON"
  | .html => "HTML"
  | .css => "CSS"
  | .lua => "Lua"
  | .c => "C"
  | .cpp => "C++"
  | .csharp => "C#"
  | .unknown => "unknown"

def ofWord? (w : String) : Option FileType := all.find? (fun t => t.word == w)

@[simp] theorem ofWord_word (t : FileType) : ofWord? t.word = some t := by
  cases t <;> decide

theorem word_injective {a b : FileType} (same : a.word = b.word) : a = b := by
  have found := ofWord_word a
  rw [same, ofWord_word] at found
  exact (Option.some.inj found).symm

theorem rank_injective {a b : FileType} (h : a.rank = b.rank) : a = b := by
  cases a <;> cases b <;> simp_all [rank]

def isSupported (t : FileType) : Bool := t != .unknown

def isScript (t : FileType) : Bool := t == .javascript || t == .typescript

/-- The known extensions, each with its type. -/
def extensions : List (String × FileType) := [
  ("js", .javascript), ("jsx", .javascript), ("mjs", .javascript), ("cjs", .javascript),
  ("ts", .typescript), ("tsx", .typescript),
  ("py", .python), ("pyw", .python),
  ("html", .html), ("htm", .html), ("xhtml", .html),
  ("css", .css), ("scss", .css), ("sass", .css), ("less", .css),
  ("json", .json),
  ("lua", .lua),
  ("c", .c), ("h", .c),
  ("cpp", .cpp), ("cc", .cpp), ("cxx", .cpp), ("hpp", .cpp), ("hxx", .cpp),
  ("cs", .csharp)]

def ofExtension (ext : String) : FileType :=
  ((extensions.find? (fun row => row.1 == Text.lowered ext)).map Prod.snd).getD .unknown

def afterLastDot (name : List Char) : List Char :=
  (name.reverse.takeWhile (· != '.')).reverse

def ofFileName (name : String) : FileType :=
  ofExtension (String.ofList (afterLastDot name.toList))

end FileType
end BufferLint
