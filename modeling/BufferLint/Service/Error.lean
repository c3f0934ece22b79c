import BufferLint.FileType
import BufferLint.Service.Status
import BufferLint.Text.Duration

/-! Why a check did not bring an answer. -/
namespace BufferLint

inductive ConnectionFault where
  | refused
  | closed
  deriving DecidableEq, Repr

def ConnectionFault.message : ConnectionFault → String
  | .refused => "connection refused"
  | .closed => "connection closed before an answer"

inductive ServiceError where
  | network (fault : ConnectionFault)
  | status (code : Nat)
  | timeout (ms : Nat)
  /-- The answer is not JSON. -/
  | payload (reason : String)
  | unsupported (type : FileType)
  /-- No client could be set up. -/
  | client (reason : String)
  deriving DecidableEq, Repr

namespace ServiceError

def message : ServiceError → String
  | .network fault => "Network error: " ++ fault.message
  | .status code => "HTTP error: " ++ Service.statusText code
  | .timeout ms => "Request timed out after " ++ Text.duration ms
  | .payload reason => "Invalid response: " ++ reason
  | .unsupported type => "Unsupported file type: " ++ type.word
  | .client reason => "Failed to build HTTP client: " ++ reason

/-- Did the exchange with the service fail, rather than its preparation? -/
def isTransport : ServiceError → Bool
  | .network _ | .status _ | .timeout _ | .payload _ => true
  | .unsupported _ | .client _ => false

end ServiceError

/-- Why an in-process scan brought nothing. Callers of the engine see an empty list instead. -/
inductive ScanError where
  | timeout (ms : Nat)
  | fault (reason : String)
  deriving DecidableEq, Repr

def ScanError.message : ScanError → String
  | .timeout ms => "Local check timed out after " ++ Text.duration ms
  | .fault reason => "Local check failed: " ++ reason

end BufferLint
