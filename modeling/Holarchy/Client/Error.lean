import Holarchy.Call.Error
/-!
# What a caller of a client sees

One list of errors for refusals on either side: a refusal of one kind is the same error whether the client found it in
its pools or the server reported it.
-/
namespace Holarchy

inductive ClientError where
  | notFound (what : String)
  | invalidTransition (what : String)
  | notAccessible (what : String)
  | validation (what : String)
  | conflict (what : String)
  | invalidParameter (what : String)
  /-- A failure of the server that no other error covers. -/
  | server (status : Status) (description : String)
  | timeout (dance : String) (elapsed : UInt64)
  | cancelled (seq : UInt64)
  | transport (reason : String)
  | serialization (what : String)
  | config (what : String)
  | internal (what : String)
  deriving DecidableEq

namespace ClientError

def code : ClientError → String
  | .notFound _ => "NotFound"
  | .invalidTransition _ => "InvalidTransition"
  | .notAccessible _ => "NotAccessible"
  | .validation _ => "Validation"
  | .conflict _ => "Conflict"
  | .invalidParameter _ => "InvalidParameter"
  | .server .. => "Server"
  | .timeout .. => "Timeout"
  | .cancelled _ => "Cancelled"
  | .transport _ => "Transport"
  | .serialization _ => "Serialization"
  | .config _ => "Config"
  | .internal _ => "Internal"

def message : ClientError → String
  | .notFound s => "not found: " ++ s
  | .invalidTransition s => "invalid transition: " ++ s
  | .notAccessible s => "not accessible: " ++ s
  | .validation s => "validation failed: " ++ s
  | .conflict s => "conflict: " ++ s
  | .invalidParameter s => "invalid parameter: " ++ s
  | .server status description => "server error (" ++ status.toString ++ "): " ++ description
  | .timeout dance elapsed => dance ++ " timed out after " ++ elapsed.toNat.repr ++ "ms"
  | .cancelled seq => "dance #" ++ seq.toNat.repr ++ " cancelled"
  | .transport s => "transport error: " ++ s
  | .serialization s => "serialization error: " ++ s
  | .config s => "config error: " ++ s
  | .internal s => "internal error: " ++ s

/-- Whether the same call may succeed when it is made again. -/
def isRetryable : ClientError → Bool
  | .timeout .. | .transport _ => true
  | .server status _ => status = .serviceUnavailable
  | _ => false

def isTimeout : ClientError → Bool
  | .timeout .. => true
  | _ => false

def isNotFound : ClientError → Bool
  | .notFound _ => true
  | _ => false

def isConflict : ClientError → Bool
  | .conflict _ => true
  | _ => false

/-- Whether the server may have run the dance although the session was left as it was. -/
def outcomeUnknown : ClientError → Bool
  | .timeout .. | .cancelled _ => true
  | _ => false

/-- The error that a refusal is for a caller. -/
def ofRefusal (e : Refusal) : ClientError :=
  match e.kind with
  | .notFound => .notFound e.message
  | .invalidTransition => .invalidTransition e.message
  | .notAccessible => .notAccessible e.message
  | .validation => .validation e.message
  | .conflict => .conflict e.message
  | .invalidParameter => .invalidParameter e.message
  | .server => .server (.ofRefusal e) e.message

def ofStatus (status : Status) (description : String) : ClientError :=
  match status with
  | .notFound => .notFound description
  | .conflict => .conflict description
  | .badRequest => .invalidParameter description
  | .unprocessableEntity => .validation description
  | status => .server status description

def ofCall : CallError → ClientError
  | .refused e => ofRefusal e
  | .rejected _ status description => ofStatus status description
  | .timeout dance elapsed => .timeout dance elapsed
  | .cancelled seq => .cancelled seq
  | .missingSnapshot dance => .internal (dance ++ " succeeded without a session snapshot")
  | .transport reason => .transport reason
  | .decode e => .serialization e.message
  | .internal reason => .internal reason

end ClientError

end Holarchy
