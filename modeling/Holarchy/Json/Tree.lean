import Holarchy.Json.Reader
import Holarchy.Json.Writer
/-!
# JSON values of any shape

Values as trees, for files whose shape is not known beforehand.  Objects keep their members in key order, the last of
those with one key.  Nesting is limited, as a tree is built by recursion.
-/
namespace Holarchy.Json

inductive Tree where
  | null
  | boolean (b : Bool)
  | number (n : Number)
  | string (s : String)
  | list (elements : List Tree)
  | object (members : List (String × Tree))

def Number.write : Number → List Char
  | .natural n => writeNatural n
  | .negative n => '-' :: writeNatural n
  | .real isBelow size => (size.text isBelow).toList

mutual

def Tree.write : Tree → List Char
  | .null => writeNull
  | .boolean b => writeBoolean b
  | .number n => n.write
  | .string s => writeString s
  | .list elements => '[' :: (Tree.writeElements elements ++ [']'])
  | .object members => '\x7b' :: (Tree.writeMembers members ++ ['\x7d'])

def Tree.writeElements : List Tree → List Char
  | [] => []
  | [t] => t.write
  | t :: ts => t.write ++ ',' :: Tree.writeElements ts

def Tree.writeMembers : List (String × Tree) → List Char
  | [] => []
  | [(name, t)] => writeMember name t.write
  | (name, t) :: ms => writeMember name t.write ++ ',' :: Tree.writeMembers ms

end

/-- One member of an object of any shape. -/
def readTreeMember (read : Reader Tree) (members : List (String × Tree)) (name : String) :
    Reader (List (String × Tree)) := fun s =>
  (readMemberValue read s).map fun (t, r) => (Entries.put name t members, r)

/-- Reads a value of any shape that nests at most so many levels. -/
def readTree : Nat → Reader Tree
  | 0 => fun s => .error (.malformed .tooDeep (.on (skipBlanks s)))
  | levels + 1 => fun s =>
    match skipBlanks s with
    | [] => .error (.ended .value)
    | '[' :: r =>
      if levels = 0 then .error (.malformed .tooDeep (.on ('[' :: r)))
      else (readElements (readTree levels) (r.length + 1) true [] r).map fun (ts, r) => (.list ts, r)
    | '\x7b' :: r =>
      if levels = 0 then .error (.malformed .tooDeep (.on ('\x7b' :: r)))
      else
        match readMembers (readTreeMember (readTree levels)) (r.length + 1) true [] r with
        | .error e => .error e
        | .ok (ms, r) => (closeObject r).map fun r => (.object ms, r)
    | '"' :: r => (readString [] r).map fun (t, r) => (.string t, r)
    | 'n' :: r => (readWord ['u', 'l', 'l'] r).map fun r => (.null, r)
    | 't' :: r => (readWord ['r', 'u', 'e'] r).map fun r => (.boolean true, r)
    | 'f' :: r => (readWord ['a', 'l', 's', 'e'] r).map fun r => (.boolean false, r)
    | c :: r =>
      if c = '-' || Text.isDigit c then (readNumber (c :: r)).map fun (n, r) => (.number n, r)
      else .error (.malformed .expectedValue (.on (c :: r)))

/-- The levels that a text may nest. -/
def maxLevels : Nat := 127

/-- Reads a list of objects whose members may have any shape. -/
def readObjects : Reader (List (SortedMap String Tree)) :=
  readList (readMap some (readTree (maxLevels - 1)))

end Holarchy.Json
