import BufferLint.Settings.Error

/-! What a command line asks for. -/
namespace BufferLint.Command

inductive Format where
  | text
  | json
  deriving DecidableEq, Repr

def Format.ofWord? : String → Option Format
  | "text" => some .text
  | "json" => some .json
  | _ => none

/-- Where in the command line we are: before the subcommand, or behind one. -/
inductive Level where
  | top
  | check
  | probe
  | languages
  deriving DecidableEq, Repr

def Level.ofWord? : String → Option Level
  | "check" => some .check
  | "probe" => some .probe
  | "languages" => some .languages
  | _ => none

inductive Flag where
  | settings
  | verbose
  | help
  | version
  | remote
  | noFallback
  | severity
  | format
  | stats
  deriving DecidableEq, Repr

namespace Flag

def all : List Flag :=
  [.settings, .verbose, .help, .version, .remote, .noFallback, .severity, .format, .stats]

def long : Flag → String
  | .settings => "settings"
  | .verbose => "verbose"
  | .help => "help"
  | .version => "version"
  | .remote => "remote"
  | .noFallback => "no-fallback"
  | .severity => "severity"
  | .format => "format"
  | .stats => "stats"

def short? : Flag → Option Char
  | .settings => some 's'
  | .verbose => some 'v'
  | .help => some 'h'
  | .version => some 'V'
  | .format => some 'f'
  | _ => none

def takesValue : Flag → Bool
  | .settings | .severity | .format => true
  | _ => false

def knownAt (level : Level) : Flag → Bool
  | .settings | .verbose | .help => true
  | .version => level == .top
  | _ => level == .check

end Flag

structure Invocation where
  level : Level := .top
  /-- The flags given since the subcommand. -/
  seen : List Flag := []
  settings : Option String := none
  verbose : Bool := false
  file : Option String := none
  remote : Bool := false
  noFallback : Bool := false
  severity : Option Severity := none
  format : Format := .text
  stats : Bool := false
  deriving DecidableEq, Repr

inductive Refusal where
  | usage
  | help
  | version
  deriving DecidableEq, Repr

namespace Invocation

def setFlag (i : Invocation) (flag : Flag) (value : String) : Except Refusal Invocation :=
  if flag = .help then .error .help
  else if flag = .version then .error .version
  else if i.seen.contains flag then .error .usage
  else
    let i := { i with seen := flag :: i.seen }
    match flag with
    | .settings => if value.isEmpty then .error .usage else .ok { i with settings := some value }
    | .verbose => .ok { i with verbose := true }
    | .remote => .ok { i with remote := true }
    | .noFallback => .ok { i with noFallback := true }
    | .stats => .ok { i with stats := true }
    | .severity =>
      match Severity.ofText value with
      | .ok s => .ok { i with severity := some s }
      | .error _ => .error .usage
    | .format =>
      match Format.ofWord? value with
      | some f => .ok { i with format := f }
      | none => .error .usage
    | .help | .version => .ok i

/-- A word that is no flag: a subcommand first, and then the file to check. -/
def setWord (i : Invocation) (word : String) : Except Refusal Invocation :=
  match i.level with
  | .top =>
    match Level.ofWord? word with
    | some level => .ok { i with level, seen := [] }
    | none => .error .usage
  | .check =>
    if i.file.isSome || word.isEmpty then .error .usage else .ok { i with file := some word }
  | _ => .error .usage

end Invocation

def isValue (argument : String) : Bool := !argument.startsWith "-" || argument = "-"

def splitEquals (cs : List Char) : List Char × Option (List Char) :=
  let name := cs.takeWhile (· != '=')
  (name, if name.length = cs.length then none else some (cs.drop (name.length + 1)))

/-- A flag by its long name, with the arguments behind it. -/
def readLong (i : Invocation) (cs : List Char) (rest : List String) :
    Except Refusal (Invocation × List String) :=
  let (name, value) := splitEquals cs
  match Flag.all.find? (fun f => f.long.toList == name && f.knownAt i.level) with
  | none => .error .usage
  | some flag =>
    if flag.takesValue then
      match value, rest with
      | some v, _ => do return (← i.setFlag flag (String.ofList v), rest)
      | none, v :: rest =>
        if isValue v then do return (← i.setFlag flag v, rest) else .error .usage
      | none, [] => .error .usage
    else if value.isSome then .error .usage
    else do return (← i.setFlag flag "", rest)

/-- Flags by their short names, written together. -/
def readShort (i : Invocation) : List Char → List String →
    Except Refusal (Invocation × List String)
  | [], rest => .ok (i, rest)
  | c :: more, rest =>
    match Flag.all.find? (fun f => f.short? == some c && f.knownAt i.level) with
    | none => .error .usage
    | some flag =>
      if flag.takesValue then
        match more, rest with
        | '=' :: v, _ => do return (← i.setFlag flag (String.ofList v), rest)
        | d :: v, _ => do return (← i.setFlag flag (String.ofList (d :: v)), rest)
        | [], v :: rest =>
          if isValue v then do return (← i.setFlag flag v, rest) else .error .usage
        | [], [] => .error .usage
      else
        match i.setFlag flag "" with
        | .ok i => readShort i more rest
        | .error e => .error e

def readWords (i : Invocation) (words : List String) : Except Refusal Invocation :=
  if i.level = .top then .error .usage else words.foldlM Invocation.setWord i

/- What the word `help` asks for. All that follows it, flags too, has to name a subcommand. -/
def readHelp : List String → Refusal
  | [] => .help
  | [word] => if word = "help" || (Level.ofWord? word).isSome then .help else .usage
  | _ => .usage

/- Every round takes an argument, so their number is fuel enough. -/
def readArguments : Nat → Invocation → List String → Except Refusal Invocation
  | 0, i, _ => .ok i
  | _ + 1, i, [] => .ok i
  | fuel + 1, i, argument :: rest =>
    match argument.toList with
    | ['-', '-'] => readWords i rest
    | '-' :: '-' :: cs => do
      let (i, rest) ← readLong i cs rest
      readArguments fuel i rest
    | '-' :: c :: cs => do
      let (i, rest) ← readShort i (c :: cs) rest
      readArguments fuel i rest
    | _ =>
      if i.level = .top && argument = "help" then .error (readHelp rest)
      else do
        let i ← i.setWord argument
        readArguments fuel i rest

structure CheckOptions where
  remote : Bool
  noFallback : Bool
  severity : Option Severity
  format : Format
  stats : Bool
  deriving DecidableEq, Repr

/-- What is to be done, with the settings file that is named for it. -/
inductive Order where
  | check (settings : Option String) (file : String) (options : CheckOptions)
  | probe (settings : Option String)
  | languages
  deriving DecidableEq, Repr

def Invocation.order (i : Invocation) : Except Refusal Order :=
  match i.level, i.file with
  | .check, some file =>
    .ok (.check i.settings file ⟨i.remote, i.noFallback, i.severity, i.format, i.stats⟩)
  | .probe, _ => .ok (.probe i.settings)
  | .languages, _ => .ok .languages
  | _, _ => .error .usage

def parse (arguments : List String) : Except Refusal Order := do
  (← readArguments (arguments.length + 1) {} arguments).order

end BufferLint.Command
