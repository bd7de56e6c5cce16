import Holarchy.Text.Digits
import Holarchy.Toml.Line
/-!
# Strings in TOML documents

A string stands in double quotes, where a backslash starts an escape, or in single quotes, where every character stands
for itself.  Three quotes in place of one let it run over several lines.  A text is written in the first form that needs
no escape in it, and with escapes if there is none.
-/
namespace Holarchy.Toml

open Text (hexValue? ofDigits)

/-- Reads pieces up to what closes them; both may give characters. -/
def readPieces (piece close : Reader (List Char)) : Nat → Reader (List Char)
  | 0, _ => none
  | fuel + 1, s =>
    match close s with
    | some closed => some closed
    | none => do
      let (cs, r) ← piece s
      let (ds, r) ← readPieces piece close fuel r
      some (cs ++ ds, r)

/-- The character that digits in base sixteen stand for. -/
def scalar? (ds : List Char) : Option Char := do
  let n := ofDigits 16 (← ds.mapM hexValue?)
  if n.isValidChar then some (Char.ofNat n) else none

def readEscape : Reader (List Char)
  | 'b' :: r => some (['\x08'], r)
  | 't' :: r => some (['\t'], r)
  | 'n' :: r => some (['\n'], r)
  | 'f' :: r => some (['\x0c'], r)
  | 'r' :: r => some (['\r'], r)
  | '"' :: r => some (['"'], r)
  | '\\' :: r => some (['\\'], r)
  | 'u' :: r => if r.length < 4 then none else (scalar? (r.take 4)).map fun c => ([c], r.drop 4)
  | 'U' :: r => if r.length < 8 then none else (scalar? (r.take 8)).map fun c => ([c], r.drop 8)
  | _ => none

def readBasicPiece : Reader (List Char)
  | '\\' :: r => readEscape r
  | c :: r => if isPlain c then some ([c], r) else none
  | [] => none

def readLiteralPiece : Reader (List Char)
  | c :: r => if isPlain c then some ([c], r) else none
  | [] => none

/-- An end of line inside a string of several lines. -/
def readNewline (s : List Char) : Option (List Char × List Char) := (afterNewline? s).map fun r => (['\n'], r)

/-- What is left behind a backslash at the end of a line: the blanks and line ends that follow are dropped. -/
def afterFold? (s : List Char) : Option (List Char) :=
  (afterNewline? (skipBlanks s)).map fun r => skipLines false r.length r

/-- A piece of a string of several lines in double quotes. -/
def readBasicLinesPiece (s : List Char) : Option (List Char × List Char) :=
  match readNewline s with
  | some r => some r
  | none =>
    match s with
    | '\\' :: r =>
      match afterFold? r with
      | some r => some ([], r)
      | none => readEscape r
    | s => readLiteralPiece s

/-- A piece of a string of several lines in single quotes. -/
def readLiteralLinesPiece (s : List Char) : Option (List Char × List Char) :=
  match readNewline s with
  | some r => some r
  | none => readLiteralPiece s

/-- One quote closes a string of one line. -/
def closeAt (quote : Char) : Reader (List Char)
  | c :: r => if c = quote then some ([], r) else none
  | [] => none

/-- Three quotes close a string of several lines; up to two more in front of them belong to it. -/
def closeAtThree (quote : Char) (s : List Char) : Option (List Char × List Char) :=
  let n := (s.takeWhile (· = quote)).length
  if n < 3 then none else some (List.replicate (min n 5 - 3) quote, s.drop (min n 5))

/-- A string of several lines, behind its opening quotes; an end of line right there is dropped. -/
def readLines (piece : Reader (List Char)) (quote : Char) (s : List Char) : Option (List Char × List Char) :=
  let s := (afterNewline? s).getD s
  readPieces piece (closeAtThree quote) (s.length + 1) s

def readString : Reader (List Char)
  | '"' :: r => readPieces readBasicPiece (closeAt '"') (r.length + 1) r
  | '\'' :: r => readPieces readLiteralPiece (closeAt '\'') (r.length + 1) r
  | _ => none

def readText : Reader String := fun s =>
  let outcome :=
    match s with
    | '"' :: '"' :: '"' :: r => readLines readBasicLinesPiece '"' r
    | '\'' :: '\'' :: '\'' :: r => readLines readLiteralLinesPiece '\'' r
    | s => readString s
  outcome.map fun (cs, r) => (String.ofList cs, r)

/-- How a string is quoted: with escapes or without, on one line or on several. -/
inductive Quotes where
  | basic
  | literal
  | basicLines
  | literalLines
  deriving DecidableEq

/-- The length of the longest row of one character, where `row` of them have just been passed. -/
def longestRow (quote : Char) : Nat → List Char → Nat
  | row, [] => row
  | row, c :: cs => if c = quote then longestRow quote (row + 1) cs else max row (longestRow quote 0 cs)

/-- The quotes that a text is written in: the first kind that holds it as it is, single quotes only where double ones
do not.  Three quotes hold no row of three.  If no kind holds the text, it is written with escapes. -/
def Quotes.of (cs : List Char) : Quotes :=
  let lines := cs.contains '\n'
  let doubles := longestRow '"' 0 cs
  let singles := longestRow '\'' 0 cs
  let escaped := if lines then .basicLines else .basic
  if !cs.all (fun c => isPlain c || c = '\n') then escaped
  else if !cs.contains '\\' && doubles = 0 && !lines then .basic
  else if singles = 0 && !lines then .literal
  else if !cs.contains '\\' && doubles ≤ 2 then .basicLines
  else if singles ≤ 2 then .literalLines
  else escaped

/-- A character as it is written in one double quote. -/
def escape (c : Char) : List Char :=
  match c with
  | '"' => ['\\', '"']
  | '\\' => ['\\', '\\']
  | '\x08' => ['\\', 'b']
  | '\t' => ['\\', 't']
  | '\n' => ['\\', 'n']
  | '\x0c' => ['\\', 'f']
  | '\r' => ['\\', 'r']
  | c => if isPlain c then [c] else ['\\', 'u'] ++ (Text.hex 4 c.toNat).map Char.toUpper

/-- Characters as they are written in three double quotes, `row` quotes having just been written: ends of lines stand
for themselves, and so do quotes up to the third of a row. -/
def escapeLines : Nat → List Char → List Char
  | _, [] => []
  | row, c :: cs =>
    if c = '"' then if row = 2 then '\\' :: '"' :: escapeLines 0 cs else '"' :: escapeLines (row + 1) cs
    else if c = '\n' then '\n' :: escapeLines 0 cs
    else escape c ++ escapeLines 0 cs

/-- A text of several lines starts on a line of its own. -/
def openLines (cs : List Char) : List Char := if cs.contains '\n' then ['\n'] else []

/-- A text as a string. -/
def writeText (text : String) : String :=
  let cs := text.toList
  String.ofList <|
    match Quotes.of cs with
    | .basic => ['"'] ++ cs.flatMap escape ++ ['"']
    | .literal => ['\''] ++ cs ++ ['\'']
    | .basicLines => ['"', '"', '"'] ++ openLines cs ++ escapeLines 0 cs ++ ['"', '"', '"']
    | .literalLines => ['\'', '\'', '\''] ++ openLines cs ++ cs ++ ['\'', '\'', '\'']

end Holarchy.Toml
