import Holarchy.Pool
/-!
# The state of a session

The two pools of one transaction.  They never share an id.
-/
namespace Holarchy

structure SessionState where
  txId : TxId
  transientHolons : Pool
  stagedHolons : Pool
  /-- Names the holon of the space itself, once it is known. -/
  localHolonSpace : Option Reference
  deriving DecidableEq

namespace SessionState

/-- Empty pools for a transaction. -/
def new (txId : TxId) : SessionState := ⟨txId, ∅, ∅, none⟩

def stagedReference (s : SessionState) (id : TemporaryId) : StagedReference := ⟨s.txId, id⟩

def transientReference (s : SessionState) (id : TemporaryId) : TransientReference := ⟨s.txId, id⟩

def getStaged (s : SessionState) (r : StagedReference) : Except Refusal Holon := do
  (Reference.staged r).checkTx s.txId
  match s.stagedHolons.get? r.id with
  | some h => .ok h
  | none => .error (.notFound ("staged holon " ++ r.id.toString))

def getTransient (s : SessionState) (r : TransientReference) : Except Refusal Holon := do
  (Reference.transient r).checkTx s.txId
  match s.transientHolons.get? r.id with
  | some h => .ok h
  | none => .error (.notFound ("transient holon " ++ r.id.toString))

/-- The first id that is in both pools. -/
def sharedId? (s : SessionState) : Option TemporaryId :=
  s.transientHolons.holons.keys.find? s.stagedHolons.contains

/-- Checks both indexes and that the pools share no id. -/
def checkInvariants (s : SessionState) : Except Refusal Unit := do
  s.transientHolons.checkIndex
  s.stagedHolons.checkIndex
  match s.sharedId? with
  | some id => .error (.invalidWireFormat ("temporary id " ++ id.toString ++ " present in both pools"))
  | none => .ok ()

def summary (s : SessionState) : String :=
  "SessionState \x7b " ++ s.txId.toString ++ ", transient: " ++ s.transientHolons.size.repr ++ ", staged: "
    ++ s.stagedHolons.size.repr ++ " \x7d"

end SessionState

end Holarchy
