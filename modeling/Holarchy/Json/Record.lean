import Holarchy.Json.Reader
/-!
# Records

A record is written as an object with its fields as members, or as a list of its fields in order.  In an object the
fields may come in any order, each at most once; members with other names are passed over, and a field may be left out
if it has a value for that.
-/
namespace Holarchy.Json

/-- The fields of a record in order: name, reader, and the value of a field that is left out if there is one. -/
inductive Fields : List Type → Type 1 where
  | nil : Fields []
  | cons {α : Type} {αs : List Type} (name : String) (read : Reader α) (absent : Option α) (more : Fields αs) :
    Fields (α :: αs)

/-- One value for each field. -/
def Values : List Type → Type
  | [] => Unit
  | α :: αs => α × Values αs

/-- For each field its value, once it has been read. -/
def Slots : List Type → Type
  | [] => Unit
  | α :: αs => Option α × Slots αs

def Slots.empty : (αs : List Type) → Slots αs
  | [] => ()
  | _ :: αs => (none, Slots.empty αs)

namespace Fields

/-- A field that must be there. -/
def required {α : Type} {αs : List Type} (name : String) (read : Reader α) (more : Fields αs) : Fields (α :: αs) :=
  .cons name read none more

/-- A field that is `none` if it is `null` or left out. -/
def optional {α : Type} {αs : List Type} (name : String) (read : Reader α) (more : Fields αs) :
    Fields (Option α :: αs) :=
  .cons name (readOption read) (some none) more

def names : {αs : List Type} → Fields αs → List String
  | _, .nil => []
  | _, .cons name _ _ more => name :: more.names

/-- Reads the member with the given key into its slot; `none` if no field has that name. -/
def readMember? : {αs : List Type} → Fields αs → Slots αs → String → List Char →
    Option (Except Fault (Slots αs × List Char))
  | _, .nil, _, _, _ => none
  | _, .cons name read _ more, (slot, slots), key, s =>
    if key = name then
      some <|
        match slot with
        | some _ => .error (.misshapen (.duplicate name) s false)
        | none => (readMemberValue read s).map fun (a, r) => ((some a, slots), r)
    else
      (more.readMember? slots key s).map fun outcome => outcome.map fun (slots, r) => ((slot, slots), r)

/-- Reads one member of the object: a field, or a member with another name that is passed over. -/
def readMember {αs : List Type} (fields : Fields αs) (slots : Slots αs) (key : String) : Reader (Slots αs) := fun s =>
  match fields.readMember? slots key s with
  | some outcome => outcome
  | none =>
    match readColon s with
    | .error e => .error e
    | .ok r => (passValue r).map fun r => (slots, r)

/-- The values of all fields; the first in order that is missing and has no value for that is a fault. -/
def complete : {αs : List Type} → Fields αs → Slots αs → Except String (Values αs)
  | _, .nil, _ => .ok ()
  | _, .cons name _ absent more, (slot, slots) =>
    match slot <|> absent with
    | none => .error name
    | some a => (more.complete slots).map fun vs => (a, vs)

/-- Reads the fields in order as elements of a list; `index` counts those in front of them. -/
def readInOrder : {αs : List Type} → Fields αs → Nat → Reader (Values αs)
  | _, .nil, _, s => .ok ((), s)
  | _, .cons _ read _ more, index, s =>
    match nextElement (index == 0) s with
    | .error e => .error e
    | .ok none => .error (.misshapen (.length index) s false)
    | .ok (some s) =>
      match read s with
      | .error e => .error e
      | .ok (a, r) => (more.readInOrder (index + 1) r).map fun (vs, r) => ((a, vs), r)

/-- Reads the fields as a list that holds all of them and nothing else; the bracket has been read. -/
def readListed {αs : List Type} (fields : Fields αs) : Reader (Values αs) := fun s =>
  settle listEnd <|
    match fields.readInOrder 0 s with
    | .error e => .error e
    | .ok (vs, r) => (closeList r).map fun r => (vs, r)

/-- Reads the fields as members of an object; the brace has been read. -/
def readNamed {αs : List Type} (fields : Fields αs) : Reader (Values αs) := fun s =>
  settle objectEnd <|
    match readMembers fields.readMember (s.length + 1) true (Slots.empty αs) s with
    | .error e => .error e
    | .ok (slots, r) =>
      match fields.complete slots with
      | .error name => .error (.misshapen (.missing name) r false)
      | .ok vs => (closeObject r).map fun r => (vs, r)

def read {αs : List Type} {β : Type} (fields : Fields αs) (make : Values αs → β) : Reader β := fun s =>
  match skipBlanks s with
  | [] => .error (.ended .value)
  | '[' :: r => readAs make fields.readListed r
  | '\x7b' :: r => readAs make fields.readNamed r
  | s => wrongType "a record" s

/-- Reads a record that is only ever written as a list. -/
def readTuple {αs : List Type} {β : Type} (fields : Fields αs) (make : Values αs → β) : Reader β := fun s =>
  match skipBlanks s with
  | [] => .error (.ended .value)
  | '[' :: r => readAs make fields.readListed r
  | s => wrongType "a tuple" s

end Fields

end Holarchy.Json
