import Holarchy.Wire.Reader
import Holarchy.Wire.Writer
/-!
# Envelopes as texts

`decodeRequest` and `decodeResponse` read a whole text, blanks around the envelope put aside.  A text that does not fit
gives the first fault in it, as one of three kinds: it ends too early, its syntax is wrong, or its shape is.
-/
namespace Holarchy.Wire

open Json

inductive DecodeError where
  | unexpectedEnd
  | invalidJson (position : Position) (flaw : Flaw)
  | invalidEnvelope (position : Position) (mismatch : Mismatch)
  deriving DecidableEq

def DecodeError.message : DecodeError → String
  | .unexpectedEnd => "Unexpected end of input"
  | .invalidJson p flaw =>
    "Invalid JSON at " ++ p.line.repr ++ ":" ++ p.column.repr ++ ": " ++ flaw.message
  | .invalidEnvelope p mismatch =>
    "Invalid envelope at " ++ p.line.repr ++ ":" ++ p.column.repr ++ ": " ++ mismatch.message

def DecodeError.ofFault (text : List Char) (f : Fault) : DecodeError :=
  match f with
  | .ended _ => .unexpectedEnd
  | .malformed flaw place => .invalidJson (place.position text) flaw
  | .misshapen m rest _ => .invalidEnvelope ((Place.before rest).position text) m

/-- Characters that may stand around an envelope: those that Unicode counts as white space. -/
def isWhiteSpace (c : Char) : Bool :=
  let n := c.toNat
  (0x09 ≤ n && n ≤ 0x0d) || n = 0x20 || n = 0x85 || n = 0xa0 || n = 0x1680 || (0x2000 ≤ n && n ≤ 0x200a) || n = 0x2028
    || n = 0x2029 || n = 0x202f || n = 0x205f || n = 0x3000

/-- A text without the white space around it. -/
def trim (s : List Char) : List Char := ((s.dropWhile isWhiteSpace).reverse.dropWhile isWhiteSpace).reverse

/-- Reads one value that is all of a text but blanks behind it. -/
def readWhole {α : Type} (read : Reader α) (text : List Char) : Except Fault α :=
  match read text with
  | .error e => .error e
  | .ok (a, r) =>
    match skipBlanks r with
    | [] => .ok a
    | r => .error (.malformed .trailingCharacters (.on r))

/-- Reads one value that is all of a text but white space around it. -/
def decode {α : Type} (read : Reader α) (text : String) : Except DecodeError α :=
  let trimmed := trim text.toList
  if trimmed.isEmpty then .error .unexpectedEnd
  else
    match readWhole read trimmed with
    | .error f => .error (.ofFault trimmed f)
    | .ok a => .ok a

def decodeRequest (text : String) : Except DecodeError DanceRequest := decode readRequest text

def decodeResponse (text : String) : Except DecodeError DanceResponse := decode readResponse text

def encodeRequest (r : DanceRequest) : String := String.ofList (writeRequest r)

def encodeResponse (r : DanceResponse) : String := String.ofList (writeResponse r)

structure WireError where
  status : Status
  message : String
  deriving DecidableEq

namespace WireError

/-- The error that an answer stands for, if the dance failed. -/
def ofResponse? (r : DanceResponse) : Option WireError :=
  if r.status.isSuccess then none else some ⟨r.status, r.description⟩

def write (e : WireError) : List Char :=
  writeObject
    [("code", writeString e.status.name), ("status", writeNatural e.status.number), ("message", writeString e.message)]

end WireError

end Holarchy.Wire
