import Holarchy.Wire.Codec
/-!
# How a call fails

Why a call ended without a result.  Only a refusal by the server and a refusal of the client's own say what became of
the dance; after a timeout or a cancellation the server may or may not have run it.
-/
namespace Holarchy

inductive CallError where
  /-- Refused before anything was sent, or for the session that the answer carries. -/
  | refused (e : Refusal)
  | rejected (dance : String) (status : Status) (description : String)
  | timeout (dance : String) (elapsed : UInt64)
  | cancelled (seq : UInt64)
  /-- Answered as a success, but without a session. -/
  | missingSnapshot (dance : String)
  | transport (reason : String)
  | decode (e : Wire.DecodeError)
  /-- Answered with a body that the caller does not expect. -/
  | internal (reason : String)
  deriving DecidableEq

def Wire.DecodeError.code : Wire.DecodeError → String
  | .unexpectedEnd => "UnexpectedEnd"
  | .invalidJson .. => "InvalidJson"
  | .invalidEnvelope .. => "InvalidEnvelope"

namespace CallError

def code : CallError → String
  | .refused e => e.code
  | .rejected .. => "Rejected"
  | .timeout .. => "Timeout"
  | .cancelled _ => "Cancelled"
  | .missingSnapshot _ => "MissingSnapshot"
  | .transport _ => "Transport"
  | .decode _ => "Decode"
  | .internal _ => "Internal"

def message : CallError → String
  | .refused e => e.message
  | .rejected dance status description => dance ++ " rejected with " ++ status.toString ++ ": " ++ description
  | .timeout dance elapsed => dance ++ " timed out after " ++ elapsed.toNat.repr ++ "ms"
  | .cancelled seq => "response for dance #" ++ seq.toNat.repr ++ " discarded: call was cancelled"
  | .missingSnapshot dance => dance ++ " succeeded without a session snapshot"
  | .transport reason => "transport error: " ++ reason
  | .decode e => "decode error: " ++ e.message
  | .internal reason => "internal error: " ++ reason

def isTimeout : CallError → Bool
  | .timeout .. => true
  | _ => false

/-- The status that the server reported, if it refused the dance. -/
def status? : CallError → Option Status
  | .rejected _ status _ => some status
  | _ => none

end CallError

end Holarchy
