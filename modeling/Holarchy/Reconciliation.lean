import Holarchy.Call.Error
/-!
# Reconciliation

What a response means for a session.  A success replaces the session by the one it carries, provided that this one is of
the same transaction and sound; what the body tells of persisted holons is worked out beside it.  Nothing is changed
here: the next session is a value that its owner may install.
-/
namespace Holarchy

/-- What the body of a response tells of persisted holons. -/
structure Findings where
  /-- Holons that the dance persisted. -/
  committed : List SavedHolon
  /-- Persisted holons that were read, placeholders included. -/
  fetched : List SavedHolon
  /-- The ids of those whose content did not come along. -/
  placeholders : List LocalId
  deriving DecidableEq

namespace Findings

def none : Findings := ⟨[], [], []⟩

instance : Inhabited Findings := ⟨none⟩

def append (a b : Findings) : Findings :=
  ⟨a.committed ++ b.committed, a.fetched ++ b.fetched, a.placeholders ++ b.placeholders⟩

/-- A committed holon was persisted, a saved one was read; no other holon tells anything. -/
def ofHolon : Holon → Findings
  | .staged h => ⟨h.toSaved?.toList, [], []⟩
  | .saved h => ⟨[], [h], []⟩
  | .transient _ => none

/-- A holon of the transient pool, read as the persisted holon that it succeeds. -/
def predecessor (id : LocalId) (h : Holon) : SavedHolon := .fetched id h.properties .none h.version

/-- The content of a persisted holon: the properties kept in the reference, or those of the first holon of the
transient pool that succeeds it. -/
def content? (pool : Pool) (r : SmartReference) : Option SavedHolon :=
  let id := r.holonId.localId
  match r.cached with
  | some properties => some (.fetched id properties .none 1)
  | Option.none => (pool.holons.values.find? fun h => h.predecessorId = some id).map (predecessor id)

/-- What a member of a collection tells: a persisted holon is read or stands as a placeholder, a transient one is read
if it succeeds a persisted one. -/
def ofMember (pool : Pool) : Reference → Findings
  | .smart r =>
    match content? pool r with
    | some h => ⟨[], [h], []⟩
    | Option.none => ⟨[], [.placeholder r.holonId.localId], [r.holonId.localId]⟩
  | .transient r =>
    match pool.get? r.id with
    | some h => ⟨[], (h.predecessorId.map fun id => predecessor id h).toList, []⟩
    | Option.none => none
  | .staged _ => none

/-- What several parts tell, one after the other. -/
def concat (parts : List Findings) : Findings := parts.foldr append none

/-- What a body tells, next to the session that came with it. -/
def ofBody (session : SessionState) : ResponseBody → Findings
  | .holon h => ofHolon h
  | .holons hs => concat (hs.map ofHolon)
  | .collection c => concat (c.members.map (ofMember session.transientHolons))
  | .none | .reference _ | .nodes _ => none

end Findings

structure Reconciliation where
  seq : UInt64
  status : Status
  state : SessionState
  findings : Findings
  body : ResponseBody
  deriving DecidableEq

/-- What the response to a dance means for a session.  The first of four faults refuses it: the status, a missing
session, a foreign one, an unsound one. -/
def reconcile (dance : String) (seq : UInt64) (current : SessionState) (r : DanceResponse) :
    Except CallError Reconciliation :=
  if r.status.isSuccess then
    match r.snapshot with
    | none => .error (.missingSnapshot dance)
    | some snapshot =>
      if snapshot.txId = current.txId then
        match snapshot.checkInvariants with
        | .error e => .error (.refused e)
        | .ok () => .ok ⟨seq, r.status, snapshot, .ofBody snapshot r.body, r.body⟩
      else .error (.refused (.crossTransaction current.txId snapshot.txId))
  else .error (.rejected dance r.status r.description)

end Holarchy
