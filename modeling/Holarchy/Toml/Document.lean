/-!
# TOML documents

A document is a table of tables.  Each table remembers how it came to be, for this decides who may still add to it: a
header opens a table once, a dotted key goes only through tables that dotted keys have made, and nothing is ever defined
twice.
-/
namespace Holarchy.Toml

/-- How a table came to be. -/
inductive Origin where
  /-- By a header of its own. -/
  | header
  /-- On the way of a header to a table below it. -/
  | implied
  /-- By a dotted key. -/
  | dotted
  deriving DecidableEq

/-- What stands under a key.  Values that no setting has are not told apart. -/
inductive Item where
  | text (s : String)
  | integer (n : Int)
  | other
  | table (origin : Origin) (members : List (String × Item))
  /-- The last of the tables of one name that stand in double brackets. -/
  | lastTable (members : List (String × Item))

abbrev Members := List (String × Item)

namespace Members

def get? (ms : Members) (key : String) : Option Item := ms.lookup key

/-- Puts an item under a key, in place of what stands there. -/
def put (ms : Members) (key : String) (item : Item) : Members :=
  match ms with
  | [] => [(key, item)]
  | m :: ms => if m.1 = key then (key, item) :: ms else m :: put ms key item

/-- Changes the table at the end of a path.  Missing tables on the way are made, by dotted keys if those are on the way;
dotted keys do not go through tables that have a header. -/
def within (dotted : Bool) (change : Origin → Members → Option Members) :
    List String → Origin → Members → Option Members
  | [], origin, ms => change origin ms
  | key :: path, _, ms =>
    match ms.get? key with
    | none => do
      let origin := if dotted then .dotted else .implied
      let below ← within dotted change path origin []
      some (ms.put key (.table origin below))
    | some (.table origin below) =>
      if dotted && origin = .header then none
      else do
        let below ← within dotted change path origin below
        some (ms.put key (.table origin below))
    | some (.lastTable below) => do
      let below ← within dotted change path .header below
      some (ms.put key (.lastTable below))
    | some _ => none

/-- Puts a new member into a table.  The key is the last of some keys with dots between them; if there are others, the
table must have been made by dotted keys. -/
def define (ms : Members) (keys : List String) (item : Item) : Option Members :=
  match keys.reverse with
  | [] => none
  | key :: path =>
    within true
      (fun origin ms =>
        if !path.isEmpty && origin != .dotted then none
        else if (ms.get? key).isSome then none
        else some (ms.put key item))
      path.reverse .header ms

/-- Opens the table of a header: a new one, or one that other headers have implied. -/
def openTable (ms : Members) (keys : List String) : Option Members :=
  match keys.reverse with
  | [] => none
  | key :: path =>
    within false
      (fun _ ms =>
        match ms.get? key with
        | none => some (ms.put key (.table .header []))
        | some (.table .implied below) => some (ms.put key (.table .header below))
        | some _ => none)
      path.reverse .header ms

/-- Opens one more of the tables of a name that stand in double brackets. -/
def openListed (ms : Members) (keys : List String) : Option Members :=
  match keys.reverse with
  | [] => none
  | key :: path =>
    within false
      (fun _ ms =>
        match ms.get? key with
        | none | some (.lastTable _) => some (ms.put key (.lastTable []))
        | some _ => none)
      path.reverse .header ms

/-- Puts a new member into the table that a header has opened. -/
def defineIn (ms : Members) (table keys : List String) (item : Item) : Option Members :=
  within false (fun _ ms => ms.define keys item) table .header ms

end Members

end Holarchy.Toml
