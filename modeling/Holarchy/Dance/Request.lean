import Holarchy.SessionState
/-!
# Dance requests

What a client sends: the name of a dance, what it is performed on, its parameters, and the whole state of the session
that it is to be run against.
-/
namespace Holarchy

inductive DanceType where
  | standalone
  | query (sources : NodeCollection)
  | command (target : StagedReference)
  | clone (source : Reference)
  | newVersion (id : HolonId)
  | delete (id : LocalId)
  deriving DecidableEq

def DanceType.toString : DanceType → String
  | .standalone => "Standalone"
  | .query _ => "QueryMethod"
  | .command _ => "CommandMethod"
  | .clone _ => "CloneMethod"
  | .newVersion _ => "NewVersionMethod"
  | .delete _ => "DeleteMethod"

structure FileData where
  filename : String
  contents : String
  deriving DecidableEq

structure ContentSet where
  schema : Option Reference
  files : List FileData
  deriving DecidableEq

inductive RequestBody where
  | none
  | holon (h : Holon)
  | targetHolons (relationship : RelationshipName) (holons : List Reference)
  | transientReference (r : TransientReference)
  | holonId (id : HolonId)
  | parameterValues (properties : PropertyMap)
  | stagedReference (r : StagedReference)
  | queryExpression (q : QueryExpression)
  | loadHolons (content : ContentSet)
  deriving DecidableEq

def RequestBody.toString : RequestBody → String
  | .none => "None"
  | .holon _ => "Holon"
  | .targetHolons .. => "TargetHolons"
  | .transientReference _ => "TransientReference"
  | .holonId _ => "HolonId"
  | .parameterValues _ => "ParameterValues"
  | .stagedReference _ => "StagedRef"
  | .queryExpression _ => "QueryExpression"
  | .loadHolons _ => "LoadHolons"

/-- The session that a dance is to be run against. -/
structure SessionContext where
  txId : TxId
  space : SpaceId
  state : SessionState
  deriving DecidableEq

structure DanceRequest where
  name : String
  kind : DanceType
  body : RequestBody
  context : SessionContext
  deriving DecidableEq

namespace DanceRequest

/-- A request against a session, under the transaction of that session. -/
def new (name : String) (kind : DanceType) (body : RequestBody) (space : SpaceId) (state : SessionState) :
    DanceRequest :=
  ⟨name, kind, body, ⟨state.txId, space, state⟩⟩

def summary (r : DanceRequest) : String :=
  "DanceRequest \x7b name: " ++ r.name ++ ", kind: " ++ r.kind.toString ++ ", body: " ++ r.body.toString ++ ", "
    ++ r.context.state.summary ++ " \x7d"

end DanceRequest

end Holarchy
