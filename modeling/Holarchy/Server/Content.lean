import Holarchy.Json.Tree
import Holarchy.Dance.Request
import Holarchy.Wire.Codec
/-!
# Files of holons

A file of holons is a JSON list of flat objects.  Texts, booleans and whole numbers become property values and `null` a
property without one; anything else refuses the file.
-/
namespace Holarchy

open Json

/-- The wording of a fault in a file, with its line and column. -/
def Json.Fault.fileMessage (text : List Char) (f : Fault) : String :=
  let p := f.position text
  let what :=
    match f with
    | .ended e => e.message
    | .malformed flaw _ => flaw.message
    | .misshapen (.type found expected) _ _ => "invalid type: " ++ found.message ++ ", expected " ++ expected
    | .misshapen m _ _ => m.message
  what ++ " at line " ++ p.line.repr ++ " column " ++ p.column.repr

namespace FileData

def refusal (file : FileData) (why : String) : Refusal := .invalidParameter (file.filename ++ ": " ++ why)

/-- The value of a property in a file. -/
def value (file : FileData) (name : String) (t : Tree) : Except Refusal (Option Value) :=
  match t with
  | .null => .ok none
  | .boolean b => .ok (some (.boolean b))
  | .string s => .ok (some (.string s))
  | .number (.natural n) =>
    if n < 1 <<< 63 then .ok (some (.integer (Int64.ofNat n))) else .error (file.refusal (name ++ " is not an integer"))
  | .number (.negative n) => .ok (some (.integer (Int64.ofInt (-(n : Int)))))
  | .number (.real ..) => .error (file.refusal (name ++ " is not an integer"))
  | .list _ | .object _ =>
    .error (file.refusal ("unsupported value for " ++ name ++ ": " ++ String.ofList t.write))

/-- The properties that the members of an object stand for, added to those so far. -/
def addProperties (file : FileData) : PropertyMap → List (String × Tree) → Except Refusal PropertyMap
  | properties, [] => .ok properties
  | properties, (name, t) :: members =>
    match file.value name t with
    | .error e => .error e
    | .ok v => file.addProperties (properties.insert ⟨name⟩ v) members

def properties (file : FileData) (record : SortedMap String Tree) : Except Refusal PropertyMap :=
  file.addProperties ∅ record.entries

def records (file : FileData) : Except Refusal (List (SortedMap String Tree)) :=
  let text := file.contents.toList
  match Wire.readWhole readObjects text with
  | .ok records => .ok records
  | .error f => .error (file.refusal (f.fileMessage text))

end FileData

end Holarchy
