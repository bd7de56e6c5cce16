import Holarchy.Holon.Staged
/-!
# Transient holons

A holon that exists only on the client's side, until it is staged.
-/
namespace Holarchy

structure TransientHolon where
  version : UInt64
  holonState : HolonState
  validationState : ValidationState
  temporaryId : Option TemporaryId
  properties : PropertyMap
  relationships : RelationshipMap
  predecessorId : Option LocalId
  deriving DecidableEq

namespace TransientHolon

/-- A mutable holon at version one, not yet in a pool. -/
def new (properties : PropertyMap) : TransientHolon := ⟨1, .mutable, .required, none, properties, ∅, none⟩

/-- Names the persisted holon that this one is to succeed. -/
def succeeding (h : TransientHolon) (id : LocalId) : TransientHolon := { h with predecessorId := some id }

def content (h : TransientHolon) : Content := ⟨h.properties, h.relationships⟩

def withContent (h : TransientHolon) (c : Content) : TransientHolon :=
  { h with properties := c.properties, relationships := c.relationships }

def isAccessible (h : TransientHolon) (access : Access) : Bool := h.holonState.allows access

def label (h : TransientHolon) : String := "Transient(" ++ h.holonState.toString ++ ")"

def checkAccess (h : TransientHolon) (access : Access) : Except Refusal Unit :=
  if h.isAccessible access then .ok () else .error (.notAccessible access h.label)

def freeze (h : TransientHolon) : TransientHolon := { h with holonState := .immutable }

/-- Edits the content, one version up. -/
def edit (h : TransientHolon) (e : Edit) : Except Refusal Unit × TransientHolon :=
  match h.checkAccess .write with
  | .error err => (.error err, h)
  | .ok () =>
    match e.apply .pending h.content with
    | (.error err, c) => (.error err, h.withContent c)
    | (.ok (), c) => (.ok (), { h.withContent c with version := h.version + 1 })

def stageRefusal : Refusal := .invalidTransition "only a mutable transient holon can be staged"

/-- Queues the holon for commit, as the successor of the holon it names if it names one. -/
def stage (h : TransientHolon) : Except Refusal StagedHolon :=
  match h.holonState with
  | .immutable => .error stageRefusal
  | .mutable =>
    .ok {
      version := h.version
      holonState := .mutable
      stagedState := if h.predecessorId.isSome then .forUpdate else .forCreate
      validationState := h.validationState
      properties := h.properties
      relationships := h.relationships.withState .staged
      predecessorId := h.predecessorId
      errors := [] }

end TransientHolon

/-- A transient successor of a persisted holon, with its properties. -/
def SavedHolon.newVersion (h : SavedHolon) : TransientHolon :=
  (TransientHolon.new h.properties).succeeding h.savedId

end Holarchy
