import Holarchy.Refusal
/-!
# Statuses

How a server says that a dance went, and the status that each refusal is answered with.
-/
namespace Holarchy

inductive Status where
  | ok
  | accepted
  | badRequest
  | unauthorized
  | forbidden
  | notFound
  | conflict
  | unprocessableEntity
  | serverError
  | notImplemented
  | serviceUnavailable
  deriving DecidableEq

namespace Status

def all : List Status :=
  [.ok, .accepted, .badRequest, .unauthorized, .forbidden, .notFound, .conflict, .unprocessableEntity, .serverError,
    .notImplemented, .serviceUnavailable]

def name : Status → String
  | .ok => "OK"
  | .accepted => "Accepted"
  | .badRequest => "BadRequest"
  | .unauthorized => "Unauthorized"
  | .forbidden => "Forbidden"
  | .notFound => "NotFound"
  | .conflict => "Conflict"
  | .unprocessableEntity => "UnprocessableEntity"
  | .serverError => "ServerError"
  | .notImplemented => "NotImplemented"
  | .serviceUnavailable => "ServiceUnavailable"

/-- The status number of the hypertext protocol. -/
def number : Status → Nat
  | .ok => 200
  | .accepted => 202
  | .badRequest => 400
  | .unauthorized => 401
  | .forbidden => 403
  | .notFound => 404
  | .conflict => 409
  | .unprocessableEntity => 422
  | .serverError => 500
  | .notImplemented => 501
  | .serviceUnavailable => 503

def reason : Status → String
  | .ok => "OK"
  | .accepted => "Accepted"
  | .badRequest => "Bad Request"
  | .unauthorized => "Unauthorized"
  | .forbidden => "Forbidden"
  | .notFound => "Not Found"
  | .conflict => "Conflict"
  | .unprocessableEntity => "Unprocessable Entity"
  | .serverError => "Server Error"
  | .notImplemented => "Not Implemented"
  | .serviceUnavailable => "Service Unavailable"

def isSuccess : Status → Bool
  | .ok | .accepted => true
  | _ => false

def toString (s : Status) : String := s.number.repr ++ " -- " ++ s.reason

/-- The status that a refusal is answered with. -/
def ofRefusal : Refusal → Status
  | .notFound _ => .notFound
  | .duplicate .. | .deletionNotAllowed _ | .notAccessible .. | .crossTransaction .. => .conflict
  | .invalidParameter _ | .emptyField _ | .invalidReference _ | .invalidWireFormat _ => .badRequest
  | .validation _ => .unprocessableEntity
  | .notImplemented _ => .notImplemented
  | .serviceNotAvailable _ => .serviceUnavailable
  | .invalidTransition _ | .commitFailure _ | .misc _ => .serverError

theorem isSuccess_ofRefusal (e : Refusal) : (ofRefusal e).isSuccess = false := by cases e <;> rfl

end Status

end Holarchy
