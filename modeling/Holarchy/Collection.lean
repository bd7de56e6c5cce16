import Holarchy.Reference
/-!
# Collections of references

An ordered list of references, some of which stand under a key.  The index maps a key to the position of its member.
Adding a batch is all or nothing; removing members moves the positions of the others down and keeps their keys.
-/
namespace Holarchy

inductive CollectionState where
  | fetched
  | pending
  | staged
  | saved
  | abandoned
  deriving DecidableEq

def CollectionState.toString : CollectionState → String
  | .fetched => "Fetched"
  | .pending => "Pending"
  | .staged => "Staged"
  | .saved => "Saved"
  | .abandoned => "Abandoned"

/-- References in order, with the positions of those that stand under a key. -/
structure Collection where
  state : CollectionState
  members : List Reference
  keyedIndex : SortedMap String UInt64
  deriving DecidableEq

namespace Collection

def new (state : CollectionState) : Collection := ⟨state, [], ∅⟩

instance : Inhabited Collection := ⟨new .pending⟩

def size (c : Collection) : Nat := c.members.length

def getByKey? (c : Collection) (key : String) : Option Reference :=
  (c.keyedIndex.get? key).bind fun i => c.members[i.toNat]?

/-- The first key, in key order, that stands at a position. -/
def keyAt? (c : Collection) (position : UInt64) : Option String :=
  (c.keyedIndex.entries.find? fun e => e.2 = position).map Prod.fst

/-- The first key of a batch that is taken already, or stands earlier in the batch. -/
def clash? (taken : SortedMap String UInt64) : List String → List (Reference × Option String) → Option String
  | _, [] => none
  | seen, (_, none) :: batch => clash? taken seen batch
  | seen, (_, some key) :: batch =>
    if taken.contains key || seen.contains key then some key else clash? taken (key :: seen) batch

/-- Puts one reference at the end, under its key if it has one. -/
def push (c : Collection) (entry : Reference × Option String) : Collection :=
  { c with
    members := c.members ++ [entry.1]
    keyedIndex :=
      match entry.2 with
      | some key => c.keyedIndex.insert key (UInt64.ofNat c.members.length)
      | none => c.keyedIndex }

/-- Appends a batch; a key that is taken or comes twice refuses all of it. -/
def addReferences (c : Collection) (batch : List (Reference × Option String)) : Except Refusal Collection :=
  match clash? c.keyedIndex [] batch with
  | some key => .error (.duplicate "key" key)
  | none => .ok (batch.foldl push c)

def keyedMembers (c : Collection) : List (Reference × Option String) :=
  c.members.zipIdx.map fun m => (m.1, c.keyAt? (UInt64.ofNat m.2))

/-- Drops every member equal to one of the given references; the others keep their order and their keys. -/
def removeReferences (c : Collection) (references : List Reference) : Collection :=
  (c.keyedMembers.filter fun m => !references.contains m.1).foldl push { c with members := [], keyedIndex := ∅ }

def withState (c : Collection) (state : CollectionState) : Collection := { c with state }

end Collection

/-- Relationship names with the holons related under them. -/
abbrev RelationshipMap := SortedMap RelationshipName Collection

namespace RelationshipMap

/-- Every collection moved to one state. -/
def withState (relationships : RelationshipMap) (state : CollectionState) : RelationshipMap :=
  relationships.mapValues (·.withState state)

/-- Relates holons under a name.  The name gets its collection before the batch is looked at, so a refused batch for a
name not used before leaves an empty collection behind; the outcome comes with the map as it then is. -/
def addRelated (relationships : RelationshipMap) (name : RelationshipName) (batch : List (Reference × Option String))
    (state : CollectionState) : Except Refusal Unit × RelationshipMap :=
  if name.text.isEmpty then (.error .noRelationshipName, relationships)
  else
    let collection := (relationships.get? name).getD (.new state)
    match collection.addReferences batch with
    | .ok extended => (.ok (), relationships.insert name extended)
    | .error e => (.error e, relationships.insert name collection)

/-- Takes holons out of the collection under a name, which must exist. -/
def removeRelated (relationships : RelationshipMap) (name : RelationshipName) (references : List Reference) :
    Except Refusal RelationshipMap :=
  match relationships.get? name with
  | some collection => .ok (relationships.insert name (collection.removeReferences references))
  | none => .error (.invalidParameter ("no relationship named " ++ name.text))

end RelationshipMap

end Holarchy
