import Holarchy.Holon
/-!
# Pools

A pool holds holons under temporary ids, and an index from the key of a holon to its id.  Every write goes through
`insert` or `remove`, which keep the index sound: what it names is there and carries that key.  Of several holons with
one key the index names the one written last.
-/
namespace Holarchy

structure Pool where
  holons : SortedMap TemporaryId Holon
  keyedIndex : SortedMap String TemporaryId
  deriving DecidableEq

namespace Pool

def empty : Pool := ⟨∅, ∅⟩

instance : EmptyCollection Pool := ⟨empty⟩
instance : Inhabited Pool := ⟨empty⟩

def size (p : Pool) : Nat := p.holons.size

def isEmpty (p : Pool) : Bool := p.holons.isEmpty

def entries (p : Pool) : List (TemporaryId × Holon) := p.holons.entries

def get? (p : Pool) (id : TemporaryId) : Option Holon := p.holons.get? id

def contains (p : Pool) (id : TemporaryId) : Bool := p.holons.contains id

def idOfKey? (p : Pool) (key : String) : Option TemporaryId := p.keyedIndex.get? key

def getByKey? (p : Pool) (key : String) : Option Holon := (p.idOfKey? key).bind p.get?

/-- The index without the entries that name an id. -/
def unindexed (p : Pool) (id : TemporaryId) : SortedMap String TemporaryId :=
  p.keyedIndex.filter fun _ indexed => indexed != id

/-- A holon as it stands in a pool: a transient one knows its id there. -/
def pooled (id : TemporaryId) : Holon → Holon
  | .transient h => .transient { h with temporaryId := some id }
  | h => h

/-- Writes a holon under an id and indexes it by its key. -/
def insert (p : Pool) (id : TemporaryId) (h : Holon) : Pool where
  holons := p.holons.insert id (pooled id h)
  keyedIndex :=
    match h.key? with
    | some key => (p.unindexed id).insert key id
    | none => p.unindexed id

/-- Takes a holon out, together with its index entry; a key it shared goes to no other holon. -/
def remove (p : Pool) (id : TemporaryId) : Pool := ⟨p.holons.erase id, p.unindexed id⟩

/-- Changes the holon under an id and indexes it anew; if the change is refused the pool stays as it was. -/
def update {α : Type} (p : Pool) (id : TemporaryId) (change : Holon → Except Refusal (Holon × α)) :
    Except Refusal (Pool × α) :=
  match p.get? id with
  | none => .error (.notFound ("temporary id " ++ id.toString))
  | some h => (change h).map fun r => (p.insert id r.1, r.2)

/-- Stages a transient holon under an id. -/
def stageHolon (p : Pool) (id : TemporaryId) (h : TransientHolon) : Except Refusal Pool :=
  h.stage.map fun staged => p.insert id (.staged staged)

/-- What is wrong with an entry of the index, if anything. -/
def indexFault? (p : Pool) (entry : String × TemporaryId) : Option Refusal :=
  match p.get? entry.2 with
  | none =>
    some (.invalidWireFormat ("key " ++ entry.1 ++ " indexes missing holon " ++ entry.2.toString))
  | some h =>
    if h.key? = some entry.1 then none
    else some (.invalidWireFormat
      ("key " ++ entry.1 ++ " indexes holon " ++ entry.2.toString ++ " which no longer carries it"))

/-- Checks that what the index names is there and carries the key. -/
def checkIndex (p : Pool) : Except Refusal Unit :=
  match p.keyedIndex.entries.findSome? p.indexFault? with
  | some e => .error e
  | none => .ok ()

end Pool

end Holarchy
