import BufferLint.Check.Checker
import BufferLint.Command.Arguments
import BufferLint.Command.Files
import BufferLint.Command.Report

/-! Carrying out a command line. -/
namespace BufferLint.Command

structure Outcome where
  code : Nat
  output : String := ""
  deriving DecidableEq, Repr

def failure : Outcome := ⟨2, ""⟩

/-- The exit code of a program that breaks off. -/
def brokenOff : Nat := 101

/-- A report is printed, and the program ends with the code unless it breaks off before. -/
def output (format : Format) (code : Nat) (report : Report) : Outcome :=
  match format with
  | .json => ⟨code, report.json⟩
  | .text => ⟨if report.isWhole then code else brokenOff, report.text⟩

def loadSettings (files : Files) (path : Option String) : Option Settings :=
  match files (path.getD SettingsFile.defaultName) with
  | .missing => some {}
  | .unreadable => none
  | .contents bytes => (SettingsFile.load ⟨true, some bytes⟩).toOption

def readText (files : Files) (path : String) : Option String :=
  match files path with
  | .contents bytes => Text.decodeUtf8? bytes
  | _ => none

def CheckOptions.apply (o : CheckOptions) (s : Settings) : Settings :=
  { s with
    useRemote := s.useRemote || o.remote
    fallbackToLocal := s.fallbackToLocal && !o.noFallback
    level := o.severity.getD s.level }

/-- How long a probe of all services can take, and a millisecond more. -/
def probeTime : Nat := ({} : Client).probeTimeout + 1

/-- How long a check can take under the settings, and a millisecond more. -/
def checkTime (s : Settings) : Nat := s.timeout + ({} : Engine).gate + Engine.patience + 1

/-- A file checked once, after the services were probed if they may be used. -/
def checkOnce (net : Network) (settings : Settings) (path content : String) : Checker.Run :=
  let start : Checker.Run := { state := {
    buffer := .opened path content
    store := .memory settings
    gateway := .ofSettings settings } }
  let probes : List Checker.Step :=
    if settings.useRemote then [.act (.probeAll 0), .sleep probeTime] else []
  Checker.run net (probes ++ [.act (.check 0), .sleep (checkTime settings)]) start

def deliveredTo (requester : Nat) (run : Checker.Run) : List Diagnostic :=
  (run.log.findSome? (fun entry => match entry.2 with
    | .delivered id ds => if id = requester then some ds else none
    | _ => none)).getD []

def reportOf (path : String) (withStats : Bool) (run : Checker.Run) : Report where
  path
  status := run.state.status
  diagnostics := Diagnostic.sortForDisplay run.state.sink
  stats :=
    if withStats then (run.state.history.bind List.getLast?).map CheckRecord.stats else none

def check (net : Network) (files : Files) (settingsPath : Option String) (path : String)
    (o : CheckOptions) : Outcome :=
  match loadSettings files settingsPath, readText files path with
  | some settings, some content =>
    let run := checkOnce net (o.apply settings) path content
    let code := if (deliveredTo 0 run).any (fun d => d.severity == .error) then 1 else 0
    output o.format code (reportOf path o.stats run)
  | _, _ => failure

def probeLine (g : Gateway) (row : FileType × Bool) : String :=
  Text.padRight 12 row.1.displayName ++ " " ++
    Text.padRight 12 (if row.2 then "available" else "unavailable") ++ " " ++
    ((g.endpoints row.1).map Endpoint.base).getD "-"

def probeResults (net : Network) (g : Gateway) : List (FileType × Bool) :=
  let run := Gateway.run net [.act (.probeAll 0), .sleep probeTime] { state := g }
  (run.log.findSome? (fun entry => match entry.2 with
    | .probedAll _ alive => some alive
    | _ => none)).getD []

def probe (net : Network) (files : Files) (settingsPath : Option String) : Outcome :=
  match loadSettings files settingsPath with
  | some settings =>
    let g := Gateway.ofSettings settings
    ⟨0, unlines ((probeResults net g).map (probeLine g))⟩
  | none => failure

def languageLines : List String :=
  FileType.all.filterMap (fun t =>
    let known := (FileType.extensions.filter (fun row => row.2 == t)).map (fun row => "." ++ row.1)
    if known.isEmpty then none
    else some (Text.padRight 12 t.displayName ++ " " ++ " ".intercalate known))

def versionText : String := "hcheck 0.1.0"

def helpText : String := unlines [
  "Usage: hcheck [OPTIONS] <COMMAND>",
  "",
  "Commands:",
  "  check      Check a file",
  "  probe      Test connectivity to every remote service",
  "  languages  List supported file extensions"]

def run (net : Network) (files : Files) (arguments : List String) : Outcome :=
  match parse arguments with
  | .error .usage => failure
  | .error .help => ⟨0, helpText⟩
  | .error .version => ⟨0, unlines [versionText]⟩
  | .ok (.check settings file options) => check net files settings file options
  | .ok (.probe settings) => probe net files settings
  | .ok .languages => ⟨0, unlines languageLines⟩

end BufferLint.Command
