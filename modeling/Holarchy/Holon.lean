import Holarchy.Holon.Transient
/-!
# Holons

A holon is transient, staged or saved.  `Holon.perform?` runs the operations of a holon's life, of which every kind of
holon has some.
-/
namespace Holarchy

inductive Holon where
  | transient (h : TransientHolon)
  | staged (h : StagedHolon)
  | saved (h : SavedHolon)
  deriving DecidableEq

instance : Coe TransientHolon Holon := ⟨.transient⟩
instance : Coe StagedHolon Holon := ⟨.staged⟩
instance : Coe SavedHolon Holon := ⟨.saved⟩

namespace Holon

def variant : Holon → String
  | .transient _ => "Transient"
  | .staged _ => "Staged"
  | .saved _ => "Saved"

def isAccessible (h : Holon) (access : Access) : Bool :=
  match h with
  | .transient h => h.isAccessible access
  | .staged h => h.isAccessible access
  | .saved h => h.isAccessible access

/-- The kind of a holon and the state that decides what may be done with it. -/
def label : Holon → String
  | .transient h => h.label
  | .staged h => h.label
  | .saved h => h.label

def checkAccess (h : Holon) (access : Access) : Except Refusal Unit :=
  if h.isAccessible access then .ok () else .error (.notAccessible access h.label)

def properties : Holon → PropertyMap
  | .transient h => h.properties
  | .staged h => h.properties
  | .saved h => h.properties

/-- The relationships of a holon; a persisted holon carries none. -/
def relationships : Holon → RelationshipMap
  | .transient h => h.relationships
  | .staged h => h.relationships
  | .saved _ => ∅

def key? (h : Holon) : Option String := h.properties.key?

def version : Holon → UInt64
  | .transient h => h.version
  | .staged h => h.version
  | .saved h => h.version

def holonState : Holon → HolonState
  | .transient h => h.holonState
  | .staged h => h.holonState
  | .saved h => h.holonState

def predecessorId : Holon → Option LocalId
  | .transient h => h.predecessorId
  | .staged h => h.predecessorId
  | .saved h => h.predecessorId

def errors : Holon → List RecordedError
  | .staged h => h.errors
  | _ => []

def asTransient? : Holon → Option TransientHolon
  | .transient h => some h
  | _ => none

def asStaged? : Holon → Option StagedHolon
  | .staged h => some h
  | _ => none

def asSaved? : Holon → Option SavedHolon
  | .saved h => some h
  | _ => none

/-- Whether the holon is staged and can still be committed. -/
def isPending : Holon → Bool
  | .staged h => h.isPending
  | _ => false

/-- Whether the holon is staged and can no longer be committed. -/
def isFinished : Holon → Bool
  | .staged h => !h.isPending
  | _ => false

/-- Queues a transient holon for commit; no other holon can be. -/
def stage : Holon → Except Refusal StagedHolon
  | .transient h => h.stage
  | h => .error (.invalidTransition ("cannot stage a holon in " ++ h.label))

/-- A new transient holon with the same content and no predecessor. -/
def copy (h : Holon) : Except Refusal TransientHolon :=
  match h.checkAccess .clone with
  | .error e => .error e
  | .ok () => .ok { TransientHolon.new h.properties with relationships := h.relationships.withState .pending }

def summary (h : Holon) : String :=
  "Holon \x7b " ++ h.label ++ ", key: " ++ h.key?.getD "<none>" ++ ", version: " ++ h.version.toNat.repr
    ++ ", properties: " ++ h.properties.size.repr ++ " \x7d"

inductive Operation where
  | edit (e : Edit)
  | freeze
  | namePredecessor (id : LocalId)
  | stage
  | markChanged
  | abandon
  | commit (id : LocalId)
  | recordError (e : RecordedError)
  deriving DecidableEq

/-- The outcome of an operation that gives a new holon or refuses. -/
def settle (before : Holon) : Except Refusal Holon → Except Refusal Unit × Holon
  | .ok after => (.ok (), after)
  | .error e => (.error e, before)

/-- The outcome of an operation and the holon after it; `none` if this kind of holon has no such operation. -/
def perform? (h : Holon) (op : Operation) : Option (Except Refusal Unit × Holon) :=
  match h, op with
  | .transient t, .edit e => some ((t.edit e).1, .transient (t.edit e).2)
  | .transient t, .freeze => some (.ok (), .transient t.freeze)
  | .transient t, .namePredecessor id => some (.ok (), .transient (t.succeeding id))
  | .staged s, .edit e => some ((s.edit e).1, .staged (s.edit e).2)
  | .staged s, .markChanged => some (h.settle (s.markChanged.map .staged))
  | .staged s, .abandon => some (h.settle (s.abandon.map .staged))
  | .staged s, .commit id => some (h.settle ((s.commit id).map .staged))
  | .staged s, .recordError e => some (.ok (), .staged (s.recordError e))
  | h, .stage => some (h.settle (h.stage.map .staged))
  | _, _ => none

end Holon

end Holarchy
