import BufferLint.Diagnostic
import BufferLint.FileType

/-! What a checker shows about itself. -/
namespace BufferLint

/-- Where the current round of checking is. -/
inductive Phase where
  | idle
  /-- A check is due or waits for its turn. -/
  | debouncing
  | checking
  /-- The service failed, and the local engine runs in its place. -/
  | fallback
  deriving DecidableEq, Repr, Inhabited

inductive Status where
  | idle
  | checking (type : FileType)
  | done (errors warnings infos : Nat)
  | unsupported
  | disabled
  | failed (message : String)
  deriving DecidableEq, Repr, Inhabited

namespace Status

def ofFindings (ds : List Diagnostic) : Status :=
  .done (Diagnostic.count .error ds) (Diagnostic.count .warning ds) (Diagnostic.count .info ds)

def text : Status → String
  | .idle => "Ready"
  | .checking type => "Checking " ++ type.displayName ++ "..."
  | .done 0 0 0 => "Clean"
  | .done errors warnings infos =>
    toString errors ++ " errors, " ++ toString warnings ++ " warnings, " ++ toString infos ++
      " info"
  | .unsupported => "Unsupported file type"
  | .disabled => "Checking disabled"
  | .failed message => "Check failed: " ++ message

end Status
end BufferLint
