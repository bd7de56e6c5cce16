import Holarchy.Dance.Response
import Holarchy.Json.Writer
/-!
# Envelopes as texts: writing

The compact text of every value that can stand in an envelope.  Records are objects with their fields in a fixed order,
maps are objects in key order, and choices are names or objects with one member.
-/
namespace Holarchy.Wire

open Json

def writeUInt64 (n : UInt64) : List Char := writeNatural n.toNat

def writeBytes (bytes : List UInt8) : List Char := writeList (bytes.map fun b => writeNatural b.toNat)

def writeLocalId (id : LocalId) : List Char := writeBytes id.bytes

def writeTemporaryId (id : TemporaryId) : List Char := writeString id.toString

def writeTxId (tx : TxId) : List Char := writeUInt64 tx.number

def writeHolonId : HolonId → List Char
  | .local id => writeHolding "Local" (writeLocalId id)
  | .external e =>
    writeHolding "External"
      (writeObject [("space_id", writeLocalId e.spaceId), ("local_id", writeLocalId e.localId)])

def writeValue : Value → List Char
  | .string s => writeHolding "StringValue" (writeString s)
  | .boolean b => writeHolding "BooleanValue" (writeBoolean b)
  | .integer i => writeHolding "IntegerValue" (writeInteger i.toInt)
  | .enumeral s => writeHolding "EnumValue" (writeString s)

/-- A map as an object in key order. -/
def writeMap {κ β : Type} [KeyOrder κ] (name : κ → String) (write : β → List Char) (m : SortedMap κ β) : List Char :=
  writeObject (m.entries.map fun e => (name e.1, write e.2))

def writePropertyMap (m : PropertyMap) : List Char := writeMap PropertyName.text (writeOption writeValue) m

def writePooled (txId : TxId) (id : TemporaryId) : List Char :=
  writeObject [("tx_id", writeTxId txId), ("id", writeTemporaryId id)]

def writeTransientReference (r : TransientReference) : List Char := writePooled r.txId r.id

def writeStagedReference (r : StagedReference) : List Char := writePooled r.txId r.id

def writeSmartReference (r : SmartReference) : List Char :=
  writeObject
    [("tx_id", writeTxId r.txId), ("holon_id", writeHolonId r.holonId),
      ("smart_property_values", writeOption writePropertyMap r.cached)]

def writeReference : Reference → List Char
  | .transient r => writeHolding "Transient" (writeTransientReference r)
  | .staged r => writeHolding "Staged" (writeStagedReference r)
  | .smart r => writeHolding "Smart" (writeSmartReference r)

def writeReferences (rs : List Reference) : List Char := writeList (rs.map writeReference)

def writeCollection (c : Collection) : List Char :=
  writeObject
    [("state", writeString c.state.toString), ("members", writeReferences c.members),
      ("keyed_index", writeMap id writeUInt64 c.keyedIndex)]

def writeRelationshipMap (m : RelationshipMap) : List Char := writeMap RelationshipName.text writeCollection m

def writeQueryExpression (q : QueryExpression) : List Char :=
  writeObject [("relationship_name", writeString q.relationship.text)]

def writeNodeCollection (n : NodeCollection) : List Char :=
  writeObject [("members", writeReferences n.members), ("query_spec", writeOption writeQueryExpression n.query)]

def writeTransientHolon (h : TransientHolon) : List Char :=
  writeObject
    [("version", writeUInt64 h.version), ("holon_state", writeString h.holonState.toString),
      ("validation_state", writeString h.validationState.toString),
      ("temporary_id", writeOption writeTemporaryId h.temporaryId), ("property_map", writePropertyMap h.properties),
      ("relationships", writeRelationshipMap h.relationships),
      ("original_id", writeOption writeLocalId h.predecessorId)]

def writeStagedState : StagedState → List Char
  | .committed id => writeHolding "Committed" (writeLocalId id)
  | state => writeString state.toString

def writeRecordedError (e : RecordedError) : List Char :=
  writeObject [("error", writeString e.error), ("context", writeOption writeString e.context)]

def writeStagedHolon (h : StagedHolon) : List Char :=
  writeObject
    [("version", writeUInt64 h.version), ("holon_state", writeString h.holonState.toString),
      ("staged_state", writeStagedState h.stagedState),
      ("validation_state", writeString h.validationState.toString), ("property_map", writePropertyMap h.properties),
      ("relationships", writeRelationshipMap h.relationships),
      ("original_id", writeOption writeLocalId h.predecessorId),
      ("errors", writeList (h.errors.map writeRecordedError))]

def writeSavedHolon (h : SavedHolon) : List Char :=
  writeObject
    [("holon_state", writeString h.holonState.toString),
      ("validation_state", writeString h.validationState.toString), ("saved_id", writeLocalId h.savedId),
      ("version", writeUInt64 h.version), ("saved_state", writeString h.savedState.toString),
      ("property_map", writePropertyMap h.properties), ("original_id", writeOption writeLocalId h.predecessorId)]

def writeHolon : Holon → List Char
  | .transient h => writeHolding "Transient" (writeTransientHolon h)
  | .staged h => writeHolding "Staged" (writeStagedHolon h)
  | .saved h => writeHolding "Saved" (writeSavedHolon h)

def writePool (p : Pool) : List Char :=
  writeObject
    [("holons", writeMap TemporaryId.toString writeHolon p.holons),
      ("keyed_index", writeMap id writeTemporaryId p.keyedIndex)]

def writeSessionState (s : SessionState) : List Char :=
  writeObject
    [("tx_id", writeTxId s.txId), ("transient_holons", writePool s.transientHolons),
      ("staged_holons", writePool s.stagedHolons),
      ("local_holon_space", writeOption writeReference s.localHolonSpace)]

def writeDanceType : DanceType → List Char
  | .standalone => writeString "Standalone"
  | .query sources => writeHolding "QueryMethod" (writeNodeCollection sources)
  | .command target => writeHolding "CommandMethod" (writeStagedReference target)
  | .clone source => writeHolding "CloneMethod" (writeReference source)
  | .newVersion id => writeHolding "NewVersionMethod" (writeHolonId id)
  | .delete id => writeHolding "DeleteMethod" (writeLocalId id)

def writeFileData (f : FileData) : List Char :=
  writeObject [("filename", writeString f.filename), ("raw_contents", writeString f.contents)]

def writeContentSet (c : ContentSet) : List Char :=
  writeObject
    [("schema", writeOption writeReference c.schema), ("files_to_load", writeList (c.files.map writeFileData))]

def writeRequestBody : RequestBody → List Char
  | .none => writeString "None"
  | .holon h => writeHolding "Holon" (writeHolon h)
  | .targetHolons relationship holons =>
    writeHolding "TargetHolons" (writeList [writeString relationship.text, writeReferences holons])
  | .transientReference r => writeHolding "TransientReference" (writeTransientReference r)
  | .holonId id => writeHolding "HolonId" (writeHolonId id)
  | .parameterValues properties => writeHolding "ParameterValues" (writePropertyMap properties)
  | .stagedReference r => writeHolding "StagedRef" (writeStagedReference r)
  | .queryExpression q => writeHolding "QueryExpression" (writeQueryExpression q)
  | .loadHolons content => writeHolding "LoadHolons" (writeContentSet content)

def writeSessionContext (c : SessionContext) : List Char :=
  writeObject
    [("tx_id", writeTxId c.txId), ("space_reference", writeString c.space.text), ("state", writeSessionState c.state)]

def writeRequest (r : DanceRequest) : List Char :=
  writeObject
    [("name", writeString r.name), ("operation_kind", writeDanceType r.kind), ("body", writeRequestBody r.body),
      ("session_context", writeSessionContext r.context)]

def writeResponseBody : ResponseBody → List Char
  | .none => writeString "None"
  | .holon h => writeHolding "Holon" (writeHolon h)
  | .holons hs => writeHolding "Holons" (writeList (hs.map writeHolon))
  | .collection c => writeHolding "HolonCollection" (writeCollection c)
  | .reference r => writeHolding "HolonReference" (writeReference r)
  | .nodes n => writeHolding "NodeCollection" (writeNodeCollection n)

def writeResponse (r : DanceResponse) : List Char :=
  writeObject
    [("space_id", writeString r.space.text), ("status_code", writeString r.status.name),
      ("description", writeString r.description), ("body", writeResponseBody r.body),
      ("descriptor", writeOption writeReference r.descriptor),
      ("session_snapshot", writeOption writeSessionState r.snapshot)]

end Holarchy.Wire
