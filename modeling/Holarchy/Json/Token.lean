import Holarchy.Json.Number
import Holarchy.Json.Quotation
/-!
# Tokens of JSON texts

Blanks, words, punctuation, and the fault of a value that has the wrong type.
-/
namespace Holarchy.Json

def isBlank (c : Char) : Bool := c = ' ' || c = '\n' || c = '\t' || c = '\r'

def skipBlanks (s : List Char) : List Char := s.dropWhile isBlank

/-- Passes over the rest of a word whose first letter has been read. -/
def readWord : List Char → List Char → Except Fault (List Char)
  | [], s => .ok s
  | _ :: _, [] => .error (.ended .value)
  | w :: ws, c :: s => if c = w then readWord ws s else .error (.malformed .expectedWord (.on (c :: s)))

def readColon (s : List Char) : Except Fault (List Char) :=
  match skipBlanks s with
  | ':' :: r => .ok r
  | [] => .error (.ended .object)
  | s => .error (.malformed .expectedColon (.on s))

def Number.found : Number → Found
  | .natural n => .integer n.repr
  | .negative n => .integer ("-" ++ n.repr)
  | .real isBelow size => .real (size.text isBelow)

/-- What the value in front of a text is; texts, numbers and words are read in full, and a fault in one comes first. -/
def readFound (s : List Char) : Except Fault (Found × List Char) :=
  match s with
  | 'n' :: r => (readWord ['u', 'l', 'l'] r).map fun r => (.null, r)
  | 't' :: r => (readWord ['r', 'u', 'e'] r).map fun r => (.boolean true, r)
  | 'f' :: r => (readWord ['a', 'l', 's', 'e'] r).map fun r => (.boolean false, r)
  | '"' :: r => (readString [] r).map fun (t, r) => (.string t, r)
  | '[' :: r => .ok (.list, '[' :: r)
  | '\x7b' :: r => .ok (.object, '\x7b' :: r)
  | s =>
    match s with
    | [] => .error (.ended .value)
    | c :: _ =>
      if c = '-' || Text.isDigit c then (readNumber s).map fun (n, r) => (n.found, r)
      else .error (.malformed .expectedValue (.on s))

/-- The fault of a value of the wrong type. -/
def wrongType {α : Type} (expected : String) (s : List Char) : Except Fault α :=
  match readFound s with
  | .error e => .error e
  | .ok (found, r) => .error (.misshapen (.type found expected) r true)

/-- Whether another element of a list follows: `none` at its bracket, else what is left at the element. -/
def nextElement (first : Bool) (s : List Char) : Except Fault (Option (List Char)) :=
  match skipBlanks s with
  | [] => .error (.ended .list)
  | ']' :: _ => .ok none
  | c :: r =>
    if first then .ok (some (c :: r))
    else if c = ',' then
      match skipBlanks r with
      | [] => .error (.ended .value)
      | ']' :: r => .error (.malformed .trailingComma (.on (']' :: r)))
      | s => .ok (some s)
    else .error (.malformed .expectedCommaOrBracket (.on (c :: r)))

/-- Whether another member of an object follows: `none` at its brace, else its key and what is left behind that. -/
def nextKey (first : Bool) (s : List Char) : Except Fault (Option (String × List Char)) :=
  match skipBlanks s with
  | [] => .error (.ended .object)
  | '\x7d' :: _ => .ok none
  | c :: r =>
    if first then
      if c = '"' then (readString [] r).map some else .error (.malformed .keyNotString (.on (c :: r)))
    else if c = ',' then
      match skipBlanks r with
      | [] => .error (.ended .value)
      | '"' :: r => (readString [] r).map some
      | '\x7d' :: r => .error (.malformed .trailingComma (.on ('\x7d' :: r)))
      | s => .error (.malformed .keyNotString (.on s))
    else .error (.malformed .expectedCommaOrBrace (.on (c :: r)))

def closeList (s : List Char) : Except Fault (List Char) :=
  match skipBlanks s with
  | [] => .error (.ended .list)
  | ']' :: r => .ok r
  | ',' :: r =>
    match skipBlanks r with
    | ']' :: r => .error (.malformed .trailingComma (.on (']' :: r)))
    | s => .error (.malformed .trailingCharacters (.on s))
  | s => .error (.malformed .trailingCharacters (.on s))

def closeObject (s : List Char) : Except Fault (List Char) :=
  match skipBlanks s with
  | [] => .error (.ended .object)
  | '\x7d' :: r => .ok r
  | ',' :: r => .error (.malformed .trailingComma (.on (',' :: r)))
  | s => .error (.malformed .trailingCharacters (.on s))

/-- Where a list stops to look for its end after a fault in it. -/
def listEnd (s : List Char) : List Char :=
  match skipBlanks s with
  | ']' :: r => r
  | ',' :: r => skipBlanks r
  | s => s

/-- Where an object stops to look for its end after a fault in it. -/
def objectEnd (s : List Char) : List Char :=
  match skipBlanks s with
  | '\x7d' :: r => r
  | s => s

/-- Gives a mismatch that has no place yet the place where the list or object around it stops. -/
def settle {α : Type} (stop : List Char → List Char) (outcome : Except Fault α) : Except Fault α :=
  match outcome with
  | .error (.misshapen m rest false) => .error (.misshapen m (stop rest) true)
  | outcome => outcome

end Holarchy.Json
