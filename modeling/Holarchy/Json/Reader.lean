import Holarchy.Json.Skip
import Holarchy.SortedMap
/-!
# Readers of typed values

Readers for scalars, options, lists, maps and choices.  Each takes one value from the front of a text, in one pass
from left to right, and stops at the first fault of any kind.
-/
namespace Holarchy.Json

def readText : Reader String := fun s =>
  match skipBlanks s with
  | [] => .error (.ended .value)
  | '"' :: r => readString [] r
  | s => wrongType "a string" s

/-- A number of the given range of naturals. -/
def readNatural (limit : Nat) : Reader Nat := fun s =>
  match skipBlanks s with
  | [] => .error (.ended .value)
  | c :: r =>
    if c = '-' || Text.isDigit c then
      match readNumber (c :: r) with
      | .error e => .error e
      | .ok (.natural n, r) => if n ≤ limit then .ok (n, r) else .error (.misshapen .value r true)
      | .ok (.negative _, r) => .error (.misshapen .value r true)
      | .ok (n, r) => .error (.misshapen (.type n.found "an integer") r true)
    else wrongType "an integer" (c :: r)

def readUInt64 : Reader UInt64 := fun s => (readNatural maxNatural s).map fun (n, r) => (UInt64.ofNat n, r)

def readByte : Reader UInt8 := fun s => (readNatural 255 s).map fun (n, r) => (UInt8.ofNat n, r)

def readInt64 : Reader Int64 := fun s =>
  match skipBlanks s with
  | [] => .error (.ended .value)
  | c :: r =>
    if c = '-' || Text.isDigit c then
      match readNumber (c :: r) with
      | .error e => .error e
      | .ok (.natural n, r) => if n < 1 <<< 63 then .ok (Int64.ofNat n, r) else .error (.misshapen .value r true)
      | .ok (.negative n, r) => .ok (Int64.ofInt (-(n : Int)), r)
      | .ok (n, r) => .error (.misshapen (.type n.found "an integer") r true)
    else wrongType "an integer" (c :: r)

def readBoolean : Reader Bool := fun s =>
  match skipBlanks s with
  | [] => .error (.ended .value)
  | 't' :: r => (readWord ['r', 'u', 'e'] r).map fun r => (true, r)
  | 'f' :: r => (readWord ['a', 'l', 's', 'e'] r).map fun r => (false, r)
  | s => wrongType "a boolean" s

def readNull : Reader Unit := fun s =>
  match skipBlanks s with
  | [] => .error (.ended .value)
  | 'n' :: r => (readWord ['u', 'l', 'l'] r).map fun r => ((), r)
  | s => wrongType "unit" s

def readOption {α : Type} (read : Reader α) : Reader (Option α) := fun s =>
  match skipBlanks s with
  | 'n' :: r => (readWord ['u', 'l', 'l'] r).map fun r => (none, r)
  | s => (read s).map fun (a, r) => (some a, r)

def readAs {α β : Type} (f : α → β) (read : Reader α) : Reader β := fun s => (read s).map fun (a, r) => (f a, r)

/-- Elements of a list up to its bracket, behind those read so far, which are kept latest first.  Every element passes
a character, so the length of the text bounds their number. -/
def readElements {α : Type} (read : Reader α) : Nat → Bool → List α → Reader (List α)
  | 0, _, _, _ => .error (.ended .list)
  | steps + 1, first, sofar, s =>
    match nextElement first s with
    | .error e => .error e
    | .ok none => (closeList s).map fun r => (sofar.reverse, r)
    | .ok (some s) =>
      match read s with
      | .error e => .error e
      | .ok (a, r) => readElements read steps false (a :: sofar) r

def readList {α : Type} (read : Reader α) : Reader (List α) := fun s =>
  match skipBlanks s with
  | [] => .error (.ended .value)
  | '[' :: r => settle listEnd (readElements read (r.length + 1) true [] r)
  | s => wrongType "a sequence" s

/-- Members of an object up to its brace.  `member` takes what has been gathered, the key, and the text behind it. -/
def readMembers {σ : Type} (member : σ → String → Reader σ) : Nat → Bool → σ → Reader σ
  | 0, _, _, _ => .error (.ended .object)
  | steps + 1, first, gathered, s =>
    match nextKey first s with
    | .error e => .error e
    | .ok none => .ok (gathered, s)
    | .ok (some (key, r)) =>
      match member gathered key r with
      | .error e => .error e
      | .ok (gathered, r) => readMembers member steps false gathered r

def readMemberValue {α : Type} (read : Reader α) : Reader α := fun s =>
  match readColon s with
  | .error e => .error e
  | .ok r => read r

/-- One entry of a map; of two with one key the later stays. -/
def readEntry {κ β : Type} [KeyOrder κ] (key? : String → Option κ) (read : Reader β) (m : SortedMap κ β)
    (name : String) : Reader (SortedMap κ β) := fun s =>
  match key? name with
  | none => .error (.misshapen .uuid s false)
  | some k => (readMemberValue read s).map fun (v, r) => (m.insert k v, r)

/-- A map as an object; `key?` says which texts are keys. -/
def readMap {κ β : Type} [KeyOrder κ] (key? : String → Option κ) (read : Reader β) : Reader (SortedMap κ β) := fun s =>
  match skipBlanks s with
  | [] => .error (.ended .value)
  | '\x7b' :: r =>
    settle objectEnd <|
      match readMembers (readEntry key? read) (r.length + 1) true ∅ r with
      | .error e => .error e
      | .ok (m, r) => (closeObject r).map fun r => (m, r)
  | s => wrongType "a map" s

/-- One of the cases of a choice: a name alone, or a name with a value. -/
inductive Case (α : Type) where
  | bare (a : α)
  | holding (read : Reader α)

def readCaseName {α : Type} (cases : List (String × Case α)) : Reader (Case α) := fun s =>
  match readText s with
  | .error e => .error e
  | .ok (name, r) =>
    match cases.lookup name with
    | some c => .ok (c, r)
    | none => .error (.misshapen (.unknownVariant name) r true)

/-- What is left at the key of an object that must have a member; the brace has been read. -/
def readOnlyKey (s : List Char) : Except Fault (List Char) :=
  match skipBlanks s with
  | [] => .error (.ended .value)
  | '"' :: r => .ok ('"' :: r)
  | '\x7d' :: r => .error (.malformed .expectedValue (.on ('\x7d' :: r)))
  | s => .error (.malformed .keyNotString (.on s))

/-- The value of a case in its object: `null` for a bare one. -/
def Case.readHeld {α : Type} : Case α → Reader α
  | .bare a => readAs (fun () => a) readNull
  | .holding read => read

/-- A choice: the name of a bare case, or an object with one member, the name of a case and its value. -/
def readChoice {α : Type} (cases : List (String × Case α)) : Reader α := fun s =>
  match skipBlanks s with
  | [] => .error (.ended .value)
  | '"' :: r =>
    match readCaseName cases ('"' :: r) with
    | .error e => .error e
    | .ok (.bare a, r) => .ok (a, r)
    | .ok (.holding _, r) => .error (.misshapen (.type .variant "a variant with a value") r false)
  | '\x7b' :: r =>
    match readOnlyKey r with
    | .error e => .error e
    | .ok r =>
      match readCaseName cases r with
      | .error e => .error e
      | .ok (c, r) =>
        match readMemberValue c.readHeld r with
        | .error e => .error e
        | .ok (a, r) =>
          match skipBlanks r with
          | [] => .error (.ended .object)
          | '\x7d' :: r => .ok (a, r)
          | r => .error (.malformed .expectedValue (.before r))
  | s => .error (.malformed .expectedValue (.on s))

end Holarchy.Json
