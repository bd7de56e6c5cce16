import Holarchy.Json.Quotation
/-!
# Writing JSON texts

The compact form: no blanks, members in the order given.
-/
namespace Holarchy.Json

def writeNatural (n : Nat) : List Char := Text.decimal n

def writeInteger (i : Int) : List Char := Text.signedDecimal i

def writeBoolean (b : Bool) : List Char := if b then ['t', 'r', 'u', 'e'] else ['f', 'a', 'l', 's', 'e']

def writeNull : List Char := ['n', 'u', 'l', 'l']

/-- Written parts with commas between them. -/
def commaSeparated : List (List Char) → List Char
  | [] => []
  | [part] => part
  | part :: parts => part ++ ',' :: commaSeparated parts

def writeList (elements : List (List Char)) : List Char := '[' :: (commaSeparated elements ++ [']'])

def writeMember (name : String) (value : List Char) : List Char := writeString name ++ ':' :: value

def writeObject (members : List (String × List Char)) : List Char :=
  '\x7b' :: (commaSeparated (members.map fun m => writeMember m.1 m.2) ++ ['\x7d'])

def writeOption {α : Type} (write : α → List Char) : Option α → List Char
  | none => writeNull
  | some a => write a

/-- A case that holds a value: an object with that as its one member. -/
def writeHolding (name : String) (value : List Char) : List Char := writeObject [(name, value)]

end Holarchy.Json
