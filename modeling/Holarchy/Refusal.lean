import Holarchy.Access
import Holarchy.Ident
/-!
# Refusals

Why an operation on holons is refused.  `Refusal.message` is the wording, `Refusal.kind` the class that callers
branch on.
-/
namespace Holarchy

inductive Refusal where
  | notFound (what : String)
  | invalidTransition (what : String)
  | notAccessible (access : Access) (state : String)
  | validation (what : String)
  | duplicate (what value : String)
  | deletionNotAllowed (what : String)
  | crossTransaction (expected actual : TxId)
  | invalidParameter (what : String)
  | emptyField (field : String)
  | invalidReference (what : String)
  | invalidWireFormat (what : String)
  | commitFailure (what : String)
  | notImplemented (what : String)
  | serviceNotAvailable (what : String)
  | misc (what : String)
  deriving DecidableEq

inductive RefusalKind where
  | notFound
  | invalidTransition
  | notAccessible
  | validation
  | conflict
  | invalidParameter
  | server
  deriving DecidableEq

def RefusalKind.toString : RefusalKind → String
  | .notFound => "NotFound"
  | .invalidTransition => "InvalidTransition"
  | .notAccessible => "NotAccessible"
  | .validation => "ValidationError"
  | .conflict => "Conflict"
  | .invalidParameter => "InvalidParameter"
  | .server => "ServerError"

namespace Refusal

def code : Refusal → String
  | .notFound _ => "HolonNotFound"
  | .invalidTransition _ => "InvalidTransition"
  | .notAccessible .. => "NotAccessible"
  | .validation _ => "ValidationError"
  | .duplicate .. => "DuplicateError"
  | .deletionNotAllowed _ => "DeletionNotAllowed"
  | .crossTransaction .. => "CrossTransactionReference"
  | .invalidParameter _ => "InvalidParameter"
  | .emptyField _ => "EmptyField"
  | .invalidReference _ => "InvalidHolonReference"
  | .invalidWireFormat _ => "InvalidWireFormat"
  | .commitFailure _ => "CommitFailure"
  | .notImplemented _ => "NotImplemented"
  | .serviceNotAvailable _ => "ServiceNotAvailable"
  | .misc _ => "Misc"

def message : Refusal → String
  | .notFound s => "holon not found: " ++ s
  | .invalidTransition s => "invalid transition: " ++ s
  | .notAccessible access state => access.toString ++ " access not allowed while " ++ state
  | .validation s => "validation error: " ++ s
  | .duplicate what value => "duplicate " ++ what ++ ": " ++ value
  | .deletionNotAllowed s => "deletion not allowed: " ++ s
  | .crossTransaction expected actual =>
    "cross-transaction reference: expected " ++ expected.toString ++ ", got " ++ actual.toString
  | .invalidParameter s => "invalid parameter: " ++ s
  | .emptyField s => "empty field: " ++ s
  | .invalidReference s => "invalid holon reference: " ++ s
  | .invalidWireFormat s => "invalid wire format: " ++ s
  | .commitFailure s => "commit failure: " ++ s
  | .notImplemented s => "not implemented: " ++ s
  | .serviceNotAvailable s => "service not available: " ++ s
  | .misc s => s

def kind : Refusal → RefusalKind
  | .notFound _ => .notFound
  | .invalidTransition _ => .invalidTransition
  | .notAccessible .. => .notAccessible
  | .validation _ => .validation
  | .duplicate .. | .deletionNotAllowed _ | .crossTransaction .. => .conflict
  | .invalidParameter _ | .emptyField _ | .invalidReference _ | .invalidWireFormat _ => .invalidParameter
  | .commitFailure _ | .notImplemented _ | .serviceNotAvailable _ | .misc _ => .server

def isNotFound (e : Refusal) : Bool := e.kind = .notFound

def isInvalidTransition (e : Refusal) : Bool := e.kind = .invalidTransition

def isConflict (e : Refusal) : Bool := e.kind = .conflict

end Refusal

/-- The refusal of an empty required field named for a relationship. -/
def Refusal.noRelationshipName : Refusal := .emptyField "relationship_name"

end Holarchy
