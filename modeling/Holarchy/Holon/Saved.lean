import Holarchy.Holon.Content
/-!
# Saved holons

A persisted holon never changes; it can be read, cloned, and succeeded by a new version.
-/
namespace Holarchy

inductive SavedState where
  | fetched
  | deleted
  deriving DecidableEq

def SavedState.toString : SavedState → String
  | .fetched => "Fetched"
  | .deleted => "Deleted"

structure SavedHolon where
  holonState : HolonState
  validationState : ValidationState
  savedId : LocalId
  version : UInt64
  savedState : SavedState
  properties : PropertyMap
  predecessorId : Option LocalId
  deriving DecidableEq

namespace SavedHolon

/-- A holon read from a store. -/
def fetched (savedId : LocalId) (properties : PropertyMap) (predecessorId : Option LocalId) (version : UInt64) :
    SavedHolon :=
  ⟨.immutable, .required, savedId, version, .fetched, properties, predecessorId⟩

/-- Stands in for a holon whose content has not been read. -/
def placeholder (savedId : LocalId) : SavedHolon := fetched savedId ∅ none 1

def isAccessible (_ : SavedHolon) (access : Access) : Bool := access.isPassive

def label (h : SavedHolon) : String := "Saved(" ++ h.savedState.toString ++ ")"

def markDeleted (h : SavedHolon) : SavedHolon := { h with savedState := .deleted }

end SavedHolon

end Holarchy
