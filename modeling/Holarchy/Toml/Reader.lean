import Holarchy.Toml.Document
import Holarchy.Toml.Moment
import Holarchy.Toml.Number
import Holarchy.Toml.Quotation
/-!
# Reading TOML

`readDocument` reads a whole text into the table that it describes, or nothing if any part of it is malformed.  A value
without quotes or brackets is a moment, or one word that is told by its form.
-/
namespace Holarchy.Toml

/-- The levels of brackets that a value may have, and the keys that may stand with dots between them. -/
def maxDepth : Nat := 79

def isKeyChar (c : Char) : Bool := c.isAlphanum || c = '_' || c = '-'

def readKey (s : List Char) : Option (List Char × List Char) :=
  match readString s with
  | some r => some r
  | none => if (s.takeWhile isKeyChar).isEmpty then none else some (s.takeWhile isKeyChar, s.dropWhile isKeyChar)

/-- Keys with dots between them, at most so many. -/
def readKeys : Nat → Reader (List String)
  | 0, _ => none
  | more + 1, s => do
    let (key, r) ← readKey (skipBlanks s)
    match skipBlanks r with
    | '.' :: r => do
      let (keys, r) ← readKeys more r
      some (String.ofList key :: keys, r)
    | r => some ([String.ofList key], r)

/-- The path of a member or a table. -/
def readPath : Reader (List String) := readKeys maxDepth

def word? (s : List Char) : Option Item :=
  if s = ['t', 'r', 'u', 'e'] || s = ['f', 'a', 'l', 's', 'e'] || isNotFinite s then some .other
  else
    match real? s with
    | some x => if x.isAllowed then some .other else none
    | none => (integer? s).map .integer

def isWordChar (c : Char) : Bool := c.isAlphanum || c = '_' || c = '-' || c = '+' || c = '.'

def readScalar : Reader Item := fun s =>
  match readText s with
  | some (t, r) => some (.text t, r)
  | none =>
    match afterMoment? s with
    | some r => some (.other, r)
    | none => (word? (s.takeWhile isWordChar)).map fun item => (item, s.dropWhile isWordChar)

/-- Values with commas between them, up to the closing bracket; there may be a comma in front of it. -/
def readElements (value : Reader Item) : Nat → Reader Unit
  | 0, _ => none
  | fuel + 1, s =>
    match skipSpace s with
    | ']' :: r => some ((), r)
    | s => do
      let (_, r) ← value s
      match skipSpace r with
      | ']' :: r => some ((), r)
      | ',' :: r => readElements value fuel r
      | _ => none

def readMember (value : Reader Item) (ms : Members) (s : List Char) : Option (Members × List Char) := do
  let (keys, r) ← readPath s
  match r with
  | '=' :: r => do
    let (item, r) ← value (skipBlanks r)
    let ms ← ms.define keys item
    some (ms, r)
  | _ => none

def readMembers (value : Reader Item) : Nat → Members → Reader Unit
  | 0, _, _ => none
  | fuel + 1, ms, s => do
    let (ms, r) ← readMember value ms s
    match skipBlanks r with
    | '\x7d' :: r => some ((), r)
    | ',' :: r => readMembers value fuel ms r
    | _ => none

/-- A value with so many levels of brackets at most. -/
def readValue : Nat → Reader Item
  | 0, s => readScalar s
  | levels + 1, s =>
    match s with
    | '[' :: r => (readElements (readValue levels) s.length r).map fun (_, r) => (.other, r)
    | '\x7b' :: r =>
      match skipBlanks r with
      | '\x7d' :: r => some (.other, r)
      | r => (readMembers (readValue levels) s.length [] r).map fun (_, r) => (.other, r)
    | s => readScalar s

/-- A document as far as it has been read, with the path of the table that its lines go to. -/
structure Draft where
  members : Members
  table : List String

/-- One line of a document, behind the blanks in front of it: a header, or a key with its value, or neither. -/
def readLine (d : Draft) (s : List Char) : Option (Draft × List Char) :=
  match s with
  | '[' :: '[' :: r => do
    let (keys, r) ← readPath r
    match r with
    | ']' :: ']' :: r => some (⟨← d.members.openListed keys, keys⟩, r)
    | _ => none
  | '[' :: r => do
    let (keys, r) ← readPath r
    match r with
    | ']' :: r => some (⟨← d.members.openTable keys, keys⟩, r)
    | _ => none
  | s =>
    match s with
    | [] => some (d, [])
    | '#' :: _ | '\n' :: _ | '\r' :: _ => some (d, s)
    | s => do
      let (keys, r) ← readPath s
      match r with
      | '=' :: r => do
        let (item, r) ← readValue maxDepth (skipBlanks r)
        some ({ d with members := ← d.members.defineIn d.table keys item }, r)
      | _ => none

def readAll : Nat → Draft → List Char → Option Members
  | 0, _, _ => none
  | fuel + 1, d, s => do
    let (d, r) ← readLine d (skipBlanks s)
    match ← afterLine? r with
    | [] => some d.members
    | r => readAll fuel d r

/-- Reads a whole document; a mark of the byte order in front of it is skipped. -/
def readDocument (text : String) : Option Members :=
  let s :=
    match text.toList with
    | '\ufeff' :: r => r
    | s => s
  readAll (s.length + 1) ⟨[], []⟩ s

end Holarchy.Toml
