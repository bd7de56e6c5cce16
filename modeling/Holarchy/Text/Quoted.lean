import Holarchy.Text.Digits
import Holarchy.Text.Extending
import Holarchy.Text.Unprinted
/-!
# Quoted text

How a text is shown to a reader: in double quotes, with the characters escaped that cannot be seen in a line.
-/
namespace Holarchy.Text

def inRanges (table : List (Nat × Nat)) (c : Char) : Bool := table.any fun r => r.1 ≤ c.toNat && c.toNat ≤ r.2

/-- A character that cannot be told from the text around it: it shows nothing, or extends the character before it. -/
def isHidden (c : Char) : Bool := inRanges unprinted c || inRanges extending c

/-- The shortest base-sixteen digits of a number. -/
def shortHex (n : Nat) : List Char := Nat.toDigits 16 n

def quotedChar (c : Char) : List Char :=
  match c with
  | '"' => ['\\', '"']
  | '\\' => ['\\', '\\']
  | '\t' => ['\\', 't']
  | '\n' => ['\\', 'n']
  | '\r' => ['\\', 'r']
  | '\x00' => ['\\', '0']
  | c => if isHidden c then ['\\', 'u', '\x7b'] ++ shortHex c.toNat ++ ['\x7d'] else [c]

/-- A text in double quotes, hidden characters escaped. -/
def quote (s : String) : String := String.ofList ('"' :: s.toList.flatMap quotedChar ++ ['"'])

end Holarchy.Text
