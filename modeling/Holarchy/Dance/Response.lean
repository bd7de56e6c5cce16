import Holarchy.Dance.Request
import Holarchy.Dance.Status
import Holarchy.Reference.Shown
/-!
# Dance responses

What a server answers: how the dance went, what it gave, and, if it succeeded, the session as it now is.
-/
namespace Holarchy

inductive ResponseBody where
  | none
  | holon (h : Holon)
  | holons (hs : List Holon)
  | collection (c : Collection)
  | reference (r : Reference)
  | nodes (n : NodeCollection)
  deriving DecidableEq

namespace ResponseBody

def toString : ResponseBody → String
  | .none => "None"
  | .holon _ => "Holon"
  | .holons _ => "Holons"
  | .collection _ => "HolonCollection"
  | .reference _ => "HolonReference"
  | .nodes _ => "NodeCollection"

def summary : ResponseBody → String
  | .none => "None"
  | .holon h => h.summary
  | .holons hs => "Holons[" ++ String.intercalate ", " (hs.map Holon.summary) ++ "]"
  | .collection c => "HolonCollection(" ++ c.size.repr ++ " members)"
  | .reference r => r.shown
  | .nodes n => "NodeCollection(" ++ n.members.length.repr ++ " members)"

end ResponseBody

structure DanceResponse where
  space : SpaceId
  status : Status
  description : String
  body : ResponseBody
  descriptor : Option Reference
  snapshot : Option SessionState
  deriving DecidableEq

namespace DanceResponse

def ok (space : SpaceId) (body : ResponseBody) (snapshot : SessionState) : DanceResponse :=
  ⟨space, .ok, "Success", body, none, some snapshot⟩

/-- The answer to a dance that was refused; it carries no session. -/
def ofRefusal (space : SpaceId) (e : Refusal) : DanceResponse :=
  ⟨space, Status.ofRefusal e, e.message, .none, none, none⟩

/-- Marks an answer as failed and keeps the rest of it. -/
def annotateError (r : DanceResponse) (e : Refusal) : DanceResponse :=
  { r with status := Status.ofRefusal e, description := e.message }

def summary (r : DanceResponse) : String :=
  shownRecord "DanceResponse"
    [("status", r.status.toString), ("description", r.description), ("body", r.body.summary),
      ("snapshot", (r.snapshot.map SessionState.summary).getD "None")]

end DanceResponse

end Holarchy
