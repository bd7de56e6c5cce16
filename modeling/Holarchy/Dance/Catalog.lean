import Holarchy.Dance.Request
/-!
# The catalog of dances

The dances that a client can ask for, and the request each makes against the state of its session.  What the pools
already show to be forbidden is refused here, before anything is sent; a holon that is in no pool is left to the server.
-/
namespace Holarchy

inductive Dance where
  | newHolon (properties : PropertyMap)
  /-- Stages a holon that the client holds. -/
  | stageNewHolon (holon : TransientHolon)
  /-- Stages a holon of the transient pool. -/
  | stageTransient (target : TransientReference)
  | withProperties (target : StagedReference) (properties : PropertyMap)
  | removeProperties (target : StagedReference) (names : List PropertyName)
  | addRelatedHolons (target : StagedReference) (relationship : RelationshipName) (holons : List Reference)
  | removeRelatedHolons (target : StagedReference) (relationship : RelationshipName) (holons : List Reference)
  | abandonStagedChanges (target : StagedReference)
  | commit
  | commitOne (target : StagedReference)
  | getAllHolons
  | getHolonById (id : HolonId)
  | getStagedHolonByKey (key : String)
  /-- Stages a copy without a predecessor. -/
  | stageNewFromClone (source : Reference)
  | stageNewVersion (id : HolonId)
  | deleteHolon (id : LocalId)
  | queryRelationships (sources : NodeCollection) (relationship : RelationshipName)
  | loadHolons (content : ContentSet)
  deriving DecidableEq

namespace Dance

def name : Dance → String
  | .newHolon _ => "new_holon"
  | .stageNewHolon _ | .stageTransient _ => "stage_new_holon"
  | .withProperties .. => "with_properties"
  | .removeProperties .. => "remove_properties"
  | .addRelatedHolons .. => "add_related_holons"
  | .removeRelatedHolons .. => "remove_related_holons"
  | .abandonStagedChanges _ => "abandon_staged_changes"
  | .commit | .commitOne _ => "commit"
  | .getAllHolons => "get_all_holons"
  | .getHolonById _ => "get_holon_by_id"
  | .getStagedHolonByKey _ => "get_staged_holon_by_key"
  | .stageNewFromClone _ => "stage_new_from_clone"
  | .stageNewVersion _ => "stage_new_version"
  | .deleteHolon _ => "delete_holon"
  | .queryRelationships .. => "query_relationships"
  | .loadHolons _ => "load_holons"

def kind : Dance → DanceType
  | .withProperties target _ | .removeProperties target _ | .addRelatedHolons target _ _
  | .removeRelatedHolons target _ _ | .abandonStagedChanges target | .commitOne target => .command target
  | .stageNewFromClone source => .clone source
  | .stageNewVersion id => .newVersion id
  | .deleteHolon id => .delete id
  | .queryRelationships sources _ => .query sources
  | _ => .standalone

def body : Dance → RequestBody
  | .newHolon properties | .withProperties _ properties => .parameterValues properties
  | .stageNewHolon holon => .holon holon
  | .stageTransient target => .transientReference target
  | .removeProperties _ names => .parameterValues (SortedMap.ofList (names.map fun name => (name, none)))
  | .addRelatedHolons _ relationship holons | .removeRelatedHolons _ relationship holons =>
    .targetHolons relationship holons
  | .getHolonById id => .holonId id
  | .getStagedHolonByKey key => .parameterValues (SortedMap.ofList [(keyProperty, some (.string key))])
  | .queryRelationships _ relationship => .queryExpression ⟨relationship⟩
  | .loadHolons content => .loadHolons content
  | .abandonStagedChanges _ | .commit | .commitOne _ | .getAllHolons | .stageNewFromClone _ | .stageNewVersion _
  | .deleteHolon _ => .none

end Dance

namespace SessionState

/-- Refuses access to a staged holon that the pool shows to forbid it. -/
def checkStagedAccess (s : SessionState) (target : StagedReference) (access : Access) : Except Refusal Unit := do
  (Reference.staged target).checkTx s.txId
  match s.stagedHolons.get? target.id with
  | some h => h.checkAccess access
  | none => .ok ()

/-- The staged holon in the pool that a reference of this transaction names, if it is there. -/
def pooledStaged? (s : SessionState) (target : StagedReference) : Except Refusal (Option StagedHolon) := do
  (Reference.staged target).checkTx s.txId
  .ok ((s.stagedHolons.get? target.id).bind Holon.asStaged?)

def pooled? (s : SessionState) : Reference → Option Holon
  | .transient r => s.transientHolons.get? r.id
  | .staged r => s.stagedHolons.get? r.id
  | .smart _ => none

end SessionState

namespace Dance

/-- Refuses a dance that the session already shows to be forbidden, or that lacks an argument. -/
def guard (d : Dance) (s : SessionState) : Except Refusal Unit :=
  match d with
  | .stageNewHolon holon => if holon.isAccessible .write then .ok () else .error TransientHolon.stageRefusal
  | .stageTransient target => do
    (Reference.transient target).checkTx s.txId
    match s.transientHolons.get? target.id with
    | some h => if h.isAccessible .write then .ok () else .error TransientHolon.stageRefusal
    | none => .ok ()
  | .withProperties target _ | .removeProperties target _ => s.checkStagedAccess target .write
  | .addRelatedHolons target relationship _ | .removeRelatedHolons target relationship _ =>
    if relationship.text.isEmpty then .error .noRelationshipName else s.checkStagedAccess target .write
  | .abandonStagedChanges target => do
    match ← s.pooledStaged? target with
    | some h => h.abandon.map fun _ => ()
    | none => .ok ()
  | .commitOne target => do
    match ← s.pooledStaged? target with
    | some h => if h.isPending then .ok () else .error h.commitRefusal
    | none => .ok ()
  | .getStagedHolonByKey key => if key.isEmpty then .error (.emptyField keyProperty.text) else .ok ()
  | .stageNewFromClone source => do
    source.checkTx s.txId
    match s.pooled? source with
    | some h => h.checkAccess .clone
    | none => .ok ()
  | .queryRelationships _ relationship =>
    if relationship.text.isEmpty then .error .noRelationshipName else .ok ()
  | .loadHolons content => if content.files.isEmpty then .error (.emptyField "files_to_load") else .ok ()
  | .newHolon _ | .commit | .getAllHolons | .getHolonById _ | .stageNewVersion _ | .deleteHolon _ => .ok ()

/-- The request that a dance makes against a session, unless it is refused. -/
def request (d : Dance) (space : SpaceId) (s : SessionState) : Except Refusal DanceRequest := do
  d.guard s
  .ok (DanceRequest.new d.name d.kind d.body space s)

end Dance

end Holarchy
