import Holarchy.Json.Token
/-!
# Values that nobody wants

A member with an unknown name is passed over, however deep its value nests; only its syntax is checked.
-/
namespace Holarchy.Json

/-- A list or an object that has been entered. -/
inductive Enclosure where
  | list
  | object
  deriving DecidableEq

/-- What has to come next while a value is passed over. -/
inductive Awaited where
  | value
  | key
  | more
  deriving DecidableEq

def passScalar (s : List Char) : Except Fault (List Char) :=
  match s with
  | [] => .error (.ended .value)
  | 'n' :: r => readWord ['u', 'l', 'l'] r
  | 't' :: r => readWord ['r', 'u', 'e'] r
  | 'f' :: r => readWord ['a', 'l', 's', 'e'] r
  | '"' :: r => passString r
  | c :: r => if c = '-' || Text.isDigit c then passNumber (c :: r) else .error (.malformed .expectedValue (.on (c :: r)))

/-- Passes over the rest of a value inside the given enclosures, innermost first.  Every step passes a character, so
the length of the text bounds their number. -/
def passFrom : Nat → Awaited → List Enclosure → List Char → Except Fault (List Char)
  | 0, _, _, _ => .error (.ended .value)
  | steps + 1, .value, around, s =>
    match skipBlanks s with
    | '[' :: r =>
      match skipBlanks r with
      | [] => .error (.ended .list)
      | ']' :: r => passFrom steps .more around r
      | s => passFrom steps .value (.list :: around) s
    | '\x7b' :: r =>
      match skipBlanks r with
      | [] => .error (.ended .object)
      | '\x7d' :: r => passFrom steps .more around r
      | s => passFrom steps .key (.object :: around) s
    | s =>
      match passScalar s with
      | .error e => .error e
      | .ok r => passFrom steps .more around r
  | steps + 1, .key, around, s =>
    match skipBlanks s with
    | [] => .error (.ended .object)
    | '"' :: r =>
      match passString r with
      | .error e => .error e
      | .ok r =>
        match readColon r with
        | .error e => .error e
        | .ok r => passFrom steps .value around r
    | s => .error (.malformed .keyNotString (.on s))
  | _ + 1, .more, [], s => .ok s
  | steps + 1, .more, .list :: around, s =>
    match skipBlanks s with
    | [] => .error (.ended .list)
    | ',' :: r => passFrom steps .value (.list :: around) r
    | ']' :: r => passFrom steps .more around r
    | s => .error (.malformed .expectedCommaOrBracket (.on s))
  | steps + 1, .more, .object :: around, s =>
    match skipBlanks s with
    | [] => .error (.ended .object)
    | ',' :: r => passFrom steps .key (.object :: around) r
    | '\x7d' :: r => passFrom steps .more around r
    | s => .error (.malformed .expectedCommaOrBrace (.on s))

def passValue (s : List Char) : Except Fault (List Char) := passFrom (s.length + 1) .value [] s

end Holarchy.Json
