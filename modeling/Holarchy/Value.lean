import Holarchy.Ident
import Holarchy.Text.Quoted
/-!
# Property values

The content of a holon: names mapped to values.  A name may be absent, present without a value, or present with one of
four kinds of value; values of different kinds are never equal.  The value under the name `key`, when it is a text,
is what a holon is indexed by.
-/
namespace Holarchy

structure PropertyName where
  text : String
  deriving DecidableEq, Inhabited

instance : KeyOrder PropertyName :=
  KeyOrder.ofInjective PropertyName.text fun {a b} h => by cases a; cases b; cases h; rfl

inductive Value where
  | string (text : String)
  | boolean (flag : Bool)
  | integer (number : Int64)
  | enumeral (text : String)
  deriving DecidableEq, Inhabited

namespace Value

def kind : Value → String
  | .string _ => "StringValue"
  | .boolean _ => "BooleanValue"
  | .integer _ => "IntegerValue"
  | .enumeral _ => "EnumValue"

def asString? : Value → Option String
  | .string s => some s
  | _ => none

def asBoolean? : Value → Option Bool
  | .boolean b => some b
  | _ => none

def asInteger? : Value → Option Int64
  | .integer i => some i
  | _ => none

def asEnumeral? : Value → Option String
  | .enumeral s => some s
  | _ => none

/-- A value as shown to a reader; only texts are quoted. -/
def toString : Value → String
  | .string s => Text.quote s
  | .boolean b => if b then "true" else "false"
  | .integer i => String.ofList (Text.signedDecimal i.toInt)
  | .enumeral s => s

end Value

/-- Names with their values; a name without a value is present and null. -/
abbrev PropertyMap := SortedMap PropertyName (Option Value)

/-- The name whose text value a holon is indexed by. -/
def keyProperty : PropertyName := ⟨"key"⟩

namespace PropertyMap

/-- Every name with a value; of two values for one name the later stays. -/
def ofValues (pairs : List (PropertyName × Value)) : PropertyMap :=
  SortedMap.ofList (pairs.map fun p => (p.1, some p.2))

/-- The key a holon with these properties is indexed by: its `key`, if that is a text. -/
def key? (properties : PropertyMap) : Option String :=
  match properties.get? keyProperty with
  | some (some (.string s)) => some s
  | _ => none

/-- The value under a name, if the name is present with one. -/
def value? (properties : PropertyMap) (name : PropertyName) : Option Value := (properties.get? name).join

end PropertyMap

/-- The key under which the successor of a persisted holon is staged. -/
def versionedKey (key : String) (version : UInt64) : String :=
  key ++ "__" ++ String.ofList (Text.decimal version.toNat) ++ "_staged"

end Holarchy
