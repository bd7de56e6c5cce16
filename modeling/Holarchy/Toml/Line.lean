/-!
# Lines of TOML documents

Blanks, comments, and the ends of lines.
-/
namespace Holarchy.Toml

/-- Reads some of a text; gives what it read and what is left. -/
abbrev Reader (α : Type) := List Char → Option (α × List Char)

def isBlank (c : Char) : Bool := c = ' ' || c = '\t'

/-- A character that may stand unescaped in a comment or a string. -/
def isPlain (c : Char) : Bool := c = '\t' || (0x20 ≤ c.toNat && c != '\x7f')

def skipBlanks (s : List Char) : List Char := s.dropWhile isBlank

/-- What is left behind the end of a line. -/
def afterNewline? : List Char → Option (List Char)
  | '\n' :: r => some r
  | '\r' :: '\n' :: r => some r
  | _ => none

def skipComment : List Char → List Char
  | '#' :: r => r.dropWhile isPlain
  | s => s

/-- What is left behind a line that has nothing more but blanks and a comment. -/
def afterLine? (s : List Char) : Option (List Char) :=
  match skipComment (skipBlanks s) with
  | [] => some []
  | r => afterNewline? r

/-- Blanks and ends of lines skipped, and comments too if there may be any. -/
def skipLines (comments : Bool) : Nat → List Char → List Char
  | 0, s => s
  | fuel + 1, s =>
    let r := if comments then skipComment (skipBlanks s) else skipBlanks s
    match afterNewline? r with
    | some r => skipLines comments fuel r
    | none => r

def skipSpace (s : List Char) : List Char := skipLines true s.length s

end Holarchy.Toml
