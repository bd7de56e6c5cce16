import Holarchy.Server.Store
/-!
# A dance server in memory

A server runs each request against the session that the request carries and answers with that session as it is
afterwards.  A refused request is answered without one.  The next request can be made to fail, and every request can be
made to wait.
-/
namespace Holarchy

structure Server where
  space : SpaceId
  store : Store
  /-- What the next request is answered with, in place of being run. -/
  failNext : Option Refusal
  /-- Milliseconds that a request waits before it is run. -/
  delay : Option Nat
  /-- Whether references to persisted holons carry their properties. -/
  embedProperties : Bool
  requests : List DanceRequest
  deriving DecidableEq

namespace Server

def new (space : SpaceId) : Server := ⟨space, .empty, none, none, true, []⟩

def seed (s : Server) (properties : PropertyMap) : Server × LocalId :=
  let (store, id) := s.store.seed properties
  ({ s with store }, id)

def saved (s : Server) : List SavedHolon := s.store.saved.values

def wasCalled (s : Server) (name : String) : Bool := s.requests.any fun r => r.name = name

def receive (s : Server) (r : DanceRequest) : Server := { s with requests := s.requests ++ [r] }

def handle (s : Server) (r : DanceRequest) (ids : IdSource) : (DanceResponse × Server) × IdSource :=
  match s.failNext with
  | some e => ((.ofRefusal s.space e, { s with failNext := none }), ids)
  | none =>
    match r.order s.space with
    | .error e => ((.ofRefusal s.space e, s), ids)
    | .ok order =>
      match s.store.run s.embedProperties r.context.state order ids with
      | (.error e, ids) => ((.ofRefusal s.space e, s), ids)
      | (.ok served, ids) => ((.ok s.space served.body served.session, { s with store := served.store }), ids)

/-- Answers an encoded request with an encoded response. -/
def exchange (s : Server) (text : String) (ids : IdSource) : Except Wire.DecodeError ((String × Server) × IdSource) :=
  match Wire.decodeRequest text with
  | .error e => .error e
  | .ok r =>
    let ((response, s), ids) := (s.receive r).handle r ids
    .ok ((Wire.encodeResponse response, s), ids)

end Server

end Holarchy
