import Holarchy.Reference
/-!
# References as shown to a reader

The full text of a reference in a log line: every part under the name of its type.
-/
namespace Holarchy

/-- A type's name around the text of what it holds. -/
def shownAs (name inner : String) : String := name ++ "(" ++ inner ++ ")"

/-- A record in a log line: its name and its fields with their texts. -/
def shownRecord (name : String) (fields : List (String × String)) : String :=
  name ++ " \x7b " ++ String.intercalate ", " (fields.map fun f => f.1 ++ ": " ++ f.2) ++ " \x7d"

def shownOption {α : Type} (shown : α → String) : Option α → String
  | none => "None"
  | some a => shownAs "Some" (shown a)

def LocalId.shown (id : LocalId) : String :=
  shownAs "LocalId" ("[" ++ String.intercalate ", " (id.bytes.map fun b => b.toNat.repr) ++ "]")

def HolonId.shown : HolonId → String
  | .local id => shownAs "Local" id.shown
  | .external e =>
    shownAs "External" (shownRecord "ExternalId"
      [("space_id", shownAs "OutboundProxyId" e.spaceId.shown), ("local_id", e.localId.shown)])

def TxId.shown (tx : TxId) : String := shownAs "TxId" tx.number.toNat.repr

def SpaceId.shown (space : SpaceId) : String := shownAs "SpaceId" (Text.quote space.text)

def TemporaryId.shown (id : TemporaryId) : String := shownAs "TemporaryId" id.toString

def Value.shown (v : Value) : String :=
  shownAs v.kind <| match v with
    | .enumeral s => Text.quote s
    | v => v.toString

def PropertyMap.shown (properties : PropertyMap) : String :=
  "\x7b" ++ String.intercalate ", " (properties.entries.map fun e =>
    shownAs "PropertyName" (shownAs "MapString" (Text.quote e.1.text)) ++ ": " ++ shownOption Value.shown e.2) ++ "\x7d"

def Reference.shown : Reference → String
  | .transient r =>
    shownAs "Transient" (shownRecord "TransientReference" [("tx_id", r.txId.shown), ("id", r.id.shown)])
  | .staged r => shownAs "Staged" (shownRecord "StagedReference" [("tx_id", r.txId.shown), ("id", r.id.shown)])
  | .smart r =>
    shownAs "Smart" (shownRecord "SmartReference"
      [("tx_id", r.txId.shown), ("holon_id", r.holonId.shown),
        ("smart_property_values", shownOption PropertyMap.shown r.cached)])

end Holarchy
