import Holarchy.Holon.Saved
/-!
# Staged holons

A holon queued for commit.  It is pending until it is abandoned or committed, and then it is frozen for good: only
reading, cloning and recording errors remain.
-/
namespace Holarchy

inductive StagedState where
  | forCreate
  | forUpdate
  | forUpdateChanged
  | abandoned
  | committed (id : LocalId)
  deriving DecidableEq

namespace StagedState

/-- Whether the holon can still be changed, committed or abandoned. -/
def isPending : StagedState → Bool
  | .forCreate | .forUpdate | .forUpdateChanged => true
  | .abandoned | .committed _ => false

def toString : StagedState → String
  | .forCreate => "ForCreate"
  | .forUpdate => "ForUpdate"
  | .forUpdateChanged => "ForUpdateChanged"
  | .abandoned => "Abandoned"
  | .committed _ => "Committed"

def committedId? : StagedState → Option LocalId
  | .committed id => some id
  | _ => none

end StagedState

/-- An error that was recorded while a holon was committed. -/
structure RecordedError where
  error : String
  context : Option String
  deriving DecidableEq

def RecordedError.of (error : Refusal) (context : Option String) : RecordedError := ⟨error.message, context⟩

structure StagedHolon where
  version : UInt64
  holonState : HolonState
  stagedState : StagedState
  validationState : ValidationState
  properties : PropertyMap
  relationships : RelationshipMap
  predecessorId : Option LocalId
  errors : List RecordedError
  deriving DecidableEq

namespace StagedHolon

def content (h : StagedHolon) : Content := ⟨h.properties, h.relationships⟩

def withContent (h : StagedHolon) (c : Content) : StagedHolon :=
  { h with properties := c.properties, relationships := c.relationships }

def isPending (h : StagedHolon) : Bool := h.stagedState.isPending

/-- A pending holon permits what its base state permits, any other only reading and cloning. -/
def isAccessible (h : StagedHolon) (access : Access) : Bool :=
  if h.isPending then h.holonState.allows access else access.isPassive

def label (h : StagedHolon) : String := "Staged(" ++ h.stagedState.toString ++ ")"

def checkAccess (h : StagedHolon) (access : Access) : Except Refusal Unit :=
  if h.isAccessible access then .ok () else .error (.notAccessible access h.label)

/-- Records that the holon now differs from its predecessor, if it has one. -/
def markChanged (h : StagedHolon) : Except Refusal StagedHolon :=
  match h.stagedState with
  | .forUpdate => .ok { h with stagedState := .forUpdateChanged }
  | .forCreate | .forUpdateChanged => .ok h
  | .abandoned | .committed _ => .error (.invalidTransition ("cannot change a holon in " ++ h.label))

/-- Ends the staging without a commit. -/
def abandon (h : StagedHolon) : Except Refusal StagedHolon :=
  if h.isPending then
    .ok { h with
      stagedState := .abandoned, holonState := .immutable, relationships := h.relationships.withState .abandoned }
  else .error (.deletionNotAllowed ("cannot abandon a holon in " ++ h.label))

def commitRefusal (h : StagedHolon) : Refusal := .invalidTransition ("cannot commit a holon in " ++ h.label)

/-- Ends the staging: the holon is persisted under an id. -/
def commit (h : StagedHolon) (id : LocalId) : Except Refusal StagedHolon :=
  if h.isPending then
    .ok { h with
      stagedState := .committed id, holonState := .immutable, relationships := h.relationships.withState .saved }
  else .error h.commitRefusal

def recordError (h : StagedHolon) (e : RecordedError) : StagedHolon := { h with errors := h.errors ++ [e] }

/-- Edits the content: one version up, and a successor counts as changed. -/
def edit (h : StagedHolon) (e : Edit) : Except Refusal Unit × StagedHolon :=
  match h.checkAccess .write with
  | .error err => (.error err, h)
  | .ok () =>
    match e.apply .staged h.content with
    | (.error err, c) => (.error err, h.withContent c)
    | (.ok (), c) =>
      let edited := { h.withContent c with version := h.version + 1 }
      match edited.markChanged with
      | .ok marked => (.ok (), marked)
      | .error err => (.error err, edited)

def committedId? (h : StagedHolon) : Option LocalId := h.stagedState.committedId?

/-- A committed holon as its store has it. -/
def toSaved? (h : StagedHolon) : Option SavedHolon :=
  h.committedId?.map fun id =>
    ⟨.immutable, h.validationState, id, h.version, .fetched, h.properties, h.predecessorId⟩

end StagedHolon

end Holarchy
