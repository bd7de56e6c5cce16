import Holarchy.Refusal
import Holarchy.Value
/-!
# References to holons

A reference names a holon without carrying it: a holon of a pool by its temporary id and the transaction of that id, a
persisted holon by its durable id, perhaps with the properties it had when it was resolved.
-/
namespace Holarchy

/-- Names a holon of the transient pool. -/
structure TransientReference where
  txId : TxId
  id : TemporaryId
  deriving DecidableEq

/-- Names a holon of the staged pool. -/
structure StagedReference where
  txId : TxId
  id : TemporaryId
  deriving DecidableEq

/-- Names a persisted holon; the properties are those it had when the reference was made, if they were kept. -/
structure SmartReference where
  txId : TxId
  holonId : HolonId
  cached : Option PropertyMap
  deriving DecidableEq

inductive Reference where
  | transient (r : TransientReference)
  | staged (r : StagedReference)
  | smart (r : SmartReference)
  deriving DecidableEq

namespace Reference

def txId : Reference → TxId
  | .transient r => r.txId
  | .staged r => r.txId
  | .smart r => r.txId

def holonId? : Reference → Option HolonId
  | .smart r => some r.holonId
  | _ => none

/-- Refuses a reference that was made under another transaction. -/
def checkTx (r : Reference) (expected : TxId) : Except Refusal Unit :=
  if r.txId = expected then .ok () else .error (.crossTransaction expected r.txId)

end Reference

instance : Coe TransientReference Reference := ⟨.transient⟩
instance : Coe StagedReference Reference := ⟨.staged⟩
instance : Coe SmartReference Reference := ⟨.smart⟩

structure QueryExpression where
  relationship : RelationshipName
  deriving DecidableEq

structure NodeCollection where
  members : List Reference
  query : Option QueryExpression
  deriving DecidableEq

def NodeCollection.ofReferences (members : List Reference) : NodeCollection := ⟨members, none⟩

end Holarchy
