import Holarchy.SortedMap
import Holarchy.Text.Digits
import Holarchy.Digest.Sha1
/-!
# Universally unique ids

Ids of 128 bits.  They are written as 32 digits in base sixteen in groups of 8, 4, 4, 4 and 12, and read in that form
or without the hyphens, with or without braces around the former, or as a URN.
-/
namespace Holarchy

open Text (hex hexValue? ofDigits)

/-- An id of 128 bits; ids stand in the order of their bytes, which is that of the numbers. -/
structure Uuid where
  bits : BitVec 128
  deriving DecidableEq, Inhabited

namespace Uuid

instance : KeyOrder Uuid := KeyOrder.ofInjective Uuid.bits fun {a b} h => by cases a; cases b; cases h; rfl

def ofNat (n : Nat) : Uuid := ⟨BitVec.ofNat 128 n⟩

/-- The sixteen bytes, most significant first. -/
def bytes (u : Uuid) : List UInt8 := Digest.Sha1.bigEndian 16 u.bits.toNat

/-- Digits in groups of the given sizes, with a hyphen between two groups. -/
def grouped : List Nat → List Char → List Char
  | [], ds => ds
  | [_], ds => ds
  | n :: ns, ds => ds.take n ++ '-' :: grouped ns (ds.drop n)

def groups : List Nat := [8, 4, 4, 4, 12]

/-- The written form, in lower case with hyphens. -/
def text (u : Uuid) : List Char := grouped groups (hex 32 u.bits.toNat)

def toString (u : Uuid) : String := String.ofList u.text

/-- The digits of a text in groups of the given sizes with a hyphen between two groups. -/
def ungrouped? : List Nat → List Char → Option (List Char)
  | [], s => if s.isEmpty then some [] else none
  | [n], s => if s.length = n then some s else none
  | n :: ns, s =>
    match s.drop n with
    | '-' :: rest => (ungrouped? ns rest).map (s.take n ++ ·)
    | _ => none

def ofHex? (ds : List Char) : Option Uuid :=
  if ds.length = 32 then (ds.mapM hexValue?).map fun ds => ofNat (ofDigits 16 ds) else none

/-- What stands before the groups in a URN. -/
def urnStart : List Char := ['u', 'r', 'n', ':', 'u', 'u', 'i', 'd', ':']

/-- Whether a text starts like the URN of an id, in letters of either case. -/
def isUrn (s : List Char) : Bool := (s.take urnStart.length).map Char.toLower = urnStart

/-- Reads an id: 32 digits, or groups with hyphens, the groups also in braces or after `urn:uuid:`. -/
def ofText? (s : List Char) : Option Uuid :=
  if s.length = 32 then ofHex? s
  else if s.length = 36 then ungrouped? groups s >>= ofHex?
  else
    match s with
    | '\x7b' :: rest =>
      if s.length = 38 ∧ s.getLast? = some '\x7d' then ungrouped? groups rest.dropLast >>= ofHex? else none
    | s => if isUrn s then ungrouped? groups (s.drop urnStart.length) >>= ofHex? else none

def ofString? (s : String) : Option Uuid := ofText? s.toList

/-- Marks 128 bits as an id of the given version in the standard layout. -/
def stamped (version n : Nat) : Uuid :=
  let keep : BitVec 128 := ~~~((0xf000#128 <<< 64) ||| (0xc000#128 <<< 48))
  ⟨(BitVec.ofNat 128 n &&& keep) ||| (BitVec.ofNat 128 (version * 0x1000) <<< 64) ||| (0x8000#128 <<< 48)⟩

/-- The id that is made of random bits: they are marked as version four. -/
def random (bits : Uuid) : Uuid := stamped 4 bits.bits.toNat

/-- The namespace under which object identifiers are named. -/
def objectNamespace : Uuid := ⟨0x6ba7b8129dad11d180b400c04fd430c8#128⟩

/-- The id of a name in a namespace: the first 128 bits of the digest of both, marked as version five. -/
def named (space : Uuid) (name : String) : Uuid :=
  stamped 5 (Digest.Sha1.digest (space.bytes ++ name.toUTF8.toList) >>> 32)

end Uuid

end Holarchy
