import Holarchy.Uuid
/-!
# Identities

The ids of the library.  A persisted holon has a durable id that its store assigns, a holon not yet persisted a
temporary id that only means something inside one transaction.  Fresh temporary ids come from an explicit source, so
every run is a function of the ids it draws.
-/
namespace Holarchy

/-- Durable id of a persisted holon, assigned by its store. -/
structure LocalId where
  bytes : List UInt8
  deriving DecidableEq, Inhabited

instance : KeyOrder LocalId := KeyOrder.ofInjective LocalId.bytes fun {a b} h => by cases a; cases b; cases h; rfl

/-- The bytes in base sixteen, in upper case. -/
def LocalId.toString (id : LocalId) : String := String.join (id.bytes.map Text.byteHex)

/-- The id that a counter gives: its eight bytes, most significant first. -/
def LocalId.numbered (n : UInt64) : LocalId := ⟨Digest.Sha1.bigEndian 8 n.toNat⟩

/-- Id of a holon persisted in another space, with the id of the proxy for that space. -/
structure ExternalId where
  spaceId : LocalId
  localId : LocalId
  deriving DecidableEq

/-- Id of a persisted holon, of this space or of another. -/
inductive HolonId where
  | local (id : LocalId)
  | external (id : ExternalId)
  deriving DecidableEq

namespace HolonId

def localId : HolonId → LocalId
  | .local id => id
  | .external e => e.localId

def isLocal : HolonId → Bool
  | .local _ => true
  | .external _ => false

def toString : HolonId → String
  | .local id => s!"Local({id.toString})"
  | .external e => s!"External({e.spaceId.toString}:{e.localId.toString})"

/-- Local ids stand before external ones. -/
def before : HolonId → HolonId → Bool
  | .local a, .local b => KeyOrder.before a b
  | .local _, .external _ => true
  | .external _, .local _ => false
  | .external a, .external b =>
    KeyOrder.before a.spaceId b.spaceId || (a.spaceId = b.spaceId && KeyOrder.before a.localId b.localId)

end HolonId

/-- Id of a holon that is not persisted yet, unique within its transaction. -/
structure TemporaryId where
  uuid : Uuid
  deriving DecidableEq, Inhabited

instance : KeyOrder TemporaryId := KeyOrder.ofInjective TemporaryId.uuid fun {a b} h => by cases a; cases b; cases h; rfl

namespace TemporaryId

def toString (id : TemporaryId) : String := id.uuid.toString

/-- The id that a key names; one key always names the same id. -/
def ofKey (key : String) : TemporaryId := ⟨Uuid.named Uuid.objectNamespace key⟩

/-- The id of the n-th draw from a source that was given no ids of its own. -/
def numbered (n : Nat) : TemporaryId := ⟨Uuid.ofNat (0x4000 <<< 64 + 0x8000 <<< 48 + n % 1 <<< 48)⟩

end TemporaryId

/-- Scope within which temporary ids are unique. -/
structure TxId where
  number : UInt64
  deriving DecidableEq, Inhabited

def TxId.toString (tx : TxId) : String := s!"tx-{tx.number}"

/-- Name of the space that a dance is addressed to. -/
structure SpaceId where
  text : String
  deriving DecidableEq, Inhabited

structure RelationshipName where
  text : String
  deriving DecidableEq, Inhabited

instance : KeyOrder RelationshipName :=
  KeyOrder.ofInjective RelationshipName.text fun {a b} h => by cases a; cases b; cases h; rfl

/-- A stream of temporary ids and the number of ids drawn from it. -/
structure IdSource where
  stream : Nat → TemporaryId
  drawn : Nat

namespace IdSource

/-- A source that makes ids of the given bits first, as it would of random ones, and then numbered ids. -/
def ofPresets (bits : List Uuid) : IdSource :=
  ⟨fun n => (bits[n]?.map fun b => ⟨b.random⟩).getD (.numbered (n + 1)), 0⟩

instance : Inhabited IdSource := ⟨ofPresets []⟩

def next (source : IdSource) : TemporaryId := source.stream source.drawn

def advance (source : IdSource) : IdSource := { source with drawn := source.drawn + 1 }

end IdSource

end Holarchy
