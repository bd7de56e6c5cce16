import Holarchy.Text.Quoted
/-!
# Faults in JSON texts

A reader stops at the first fault.  A fault keeps what was left of the text where it was found, from which `Position`
computes the line and the column.
-/
namespace Holarchy.Json

/-- A line, from one, and a count of bytes in it. -/
structure Position where
  line : Nat
  column : Nat
  deriving DecidableEq, Inhabited

namespace Position

/-- The position behind one more character. -/
def pass (p : Position) (c : Char) : Position :=
  if c = '\n' then ⟨p.line + 1, 0⟩ else ⟨p.line, p.column + c.utf8Size⟩

/-- The position so many bytes further in a text, which may be in the middle of a character. -/
def passBytes (p : Position) : Nat → List Char → Position
  | _, [] => p
  | bytes, c :: rest =>
    if c.utf8Size ≤ bytes then (p.pass c).passBytes (bytes - c.utf8Size) rest else ⟨p.line, p.column + bytes⟩

def start : Position := ⟨1, 0⟩

end Position

/-- A place in a text: so many bytes behind the start of what is left there. -/
structure Place where
  rest : List Char
  bytes : Nat
  deriving DecidableEq

namespace Place

/-- In front of what is left. -/
def before (rest : List Char) : Place := ⟨rest, 0⟩

/-- On the first byte of what is left. -/
def on (rest : List Char) : Place := ⟨rest, 1⟩

/-- The line and column of a place in a text. -/
def position (text : List Char) (place : Place) : Position :=
  let reached := (text.take (text.length - place.rest.length)).foldl Position.pass Position.start
  reached.passBytes place.bytes place.rest

end Place

inductive Ending where
  | value
  | list
  | object
  | string
  deriving DecidableEq

inductive Flaw where
  | expectedValue
  | expectedColon
  | expectedCommaOrBrace
  | expectedCommaOrBracket
  | keyNotString
  | trailingComma
  | trailingCharacters
  | expectedWord
  | escape
  | number
  | numberTooLarge
  | controlCharacter
  | loneSurrogate
  | unfinishedSurrogate
  | tooDeep
  deriving DecidableEq

inductive Found where
  | null
  | boolean (b : Bool)
  | integer (digits : String)
  | real (digits : String)
  | string (s : String)
  | list
  | object
  | variant
  deriving DecidableEq

/-- The wrong shape: right syntax that does not fit the type to be read. -/
inductive Mismatch where
  | type (found : Found) (expected : String)
  | value
  /-- A list that ends before the element with this index, from zero. -/
  | length (index : Nat)
  | uuid
  | missing (field : String)
  | duplicate (field : String)
  | unknownVariant (name : String)
  deriving DecidableEq

/-- Why and where a reader stopped.  A mismatch is `settled` once its place is final; until then the list or object
around it moves the place to where it stops itself. -/
inductive Fault where
  | ended (what : Ending)
  | malformed (flaw : Flaw) (place : Place)
  | misshapen (mismatch : Mismatch) (rest : List Char) (settled : Bool)
  deriving DecidableEq

def Ending.message : Ending → String
  | .value => "EOF while parsing a value"
  | .list => "EOF while parsing a list"
  | .object => "EOF while parsing an object"
  | .string => "EOF while parsing a string"

def Flaw.message : Flaw → String
  | .expectedValue => "expected value"
  | .expectedColon => "expected `:`"
  | .expectedCommaOrBrace => "expected `,` or `\x7d`"
  | .expectedCommaOrBracket => "expected `,` or `]`"
  | .keyNotString => "key must be a string"
  | .trailingComma => "trailing comma"
  | .trailingCharacters => "trailing characters"
  | .expectedWord => "expected ident"
  | .escape => "invalid escape"
  | .number => "invalid number"
  | .numberTooLarge => "number out of range"
  | .controlCharacter => "control character (\\u0000-\\u001F) found while parsing a string"
  | .loneSurrogate => "lone leading surrogate in hex escape"
  | .unfinishedSurrogate => "unexpected end of hex escape"
  | .tooDeep => "recursion limit exceeded"

def Found.message : Found → String
  | .null => "null"
  | .boolean b => "boolean `" ++ (if b then "true" else "false") ++ "`"
  | .integer digits => "integer `" ++ digits ++ "`"
  | .real digits => "floating point `" ++ digits ++ "`"
  | .string s => "string " ++ Text.quote s
  | .list => "sequence"
  | .object => "map"
  | .variant => "unit variant"

/-- The rule that a wrong shape breaks. -/
def Mismatch.rule : Mismatch → String
  | .type .. => "invalid type"
  | .value => "invalid value"
  | .length _ => "invalid length"
  | .uuid => "UUID parsing failed"
  | .missing f => "missing field `" ++ f ++ "`"
  | .duplicate f => "duplicate field `" ++ f ++ "`"
  | .unknownVariant v => "unknown variant `" ++ v ++ "`"

/-- The wording of a wrong shape: the rule, and the length of a list that is too short. -/
def Mismatch.message (m : Mismatch) : String :=
  match m with
  | .length index => m.rule ++ " " ++ index.repr
  | m => m.rule

/-- Where in a text the fault lies. -/
def Fault.place : Fault → Place
  | .ended _ => .before []
  | .malformed _ place => place
  | .misshapen _ rest _ => .before rest

def Fault.position (text : List Char) (f : Fault) : Position := f.place.position text

/-- The outcome of reading some of a text: a result and what is left. -/
abbrev Reader (α : Type) := List Char → Except Fault (α × List Char)

end Holarchy.Json
