import BufferLint.Command.Run

/-! The command line. This build has no HTTP client, so every service counts as out of reach. -/
namespace BufferLint

/-- The system's number for a path that leads through something else than a directory. -/
def notADirectory : UInt32 := 20

def lookupPath (path : String) : IO Command.Lookup := do
  try
    let bytes ← IO.FS.readBinFile path
    return .contents bytes.data.toList
  catch e =>
    match e with
    | .noFileOrDirectory .. => return .missing
    | .inappropriateType _ code _ => return if code = notADirectory then .missing else .unreadable
    | _ => return .unreadable

/-- The paths that a command line names, and the one that is looked for by itself. -/
def pathsOf (arguments : List String) : List String :=
  match Command.parse arguments with
  | .ok (.check settings file _) => [settings.getD SettingsFile.defaultName, file]
  | .ok (.probe settings) => [settings.getD SettingsFile.defaultName]
  | _ => []

end BufferLint

open BufferLint in
def main (arguments : List String) : IO UInt32 := do
  let found ← (pathsOf arguments).mapM (fun path => return (path, ← lookupPath path))
  let files : Command.Files := fun path => (found.lookup path).getD .missing
  let outcome := Command.run Network.down files arguments
  IO.print outcome.output
  return UInt32.ofNat outcome.code
