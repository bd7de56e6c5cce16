import Holarchy.Dance.Response
import Holarchy.Json.Record
/-!
# Envelopes as texts: reading

A reader for every type that can stand in an envelope.  The readers take whatever fits the types; whether the pools of
a session are sound is checked elsewhere, before a session is replaced.
-/
namespace Holarchy.Wire

open Json Json.Fields

def readBytes : Reader (List UInt8) := readList readByte

def readLocalId : Reader LocalId := readAs LocalId.mk readBytes

def readTemporaryId : Reader TemporaryId := fun s =>
  match readText s with
  | .error e => .error e
  | .ok (t, r) =>
    match Uuid.ofString? t with
    | some u => .ok (⟨u⟩, r)
    | none => .error (.misshapen .uuid r true)

def readTxId : Reader TxId := readAs TxId.mk readUInt64

def readExternalId : Reader ExternalId :=
  (required "space_id" readLocalId <| required "local_id" readLocalId .nil).read
    fun (spaceId, localId, ()) => ⟨spaceId, localId⟩

def readHolonId : Reader HolonId :=
  readChoice [("Local", .holding (readAs .local readLocalId)), ("External", .holding (readAs .external readExternalId))]

def readValue : Reader Value :=
  readChoice
    [("StringValue", .holding (readAs .string readText)), ("BooleanValue", .holding (readAs .boolean readBoolean)),
      ("IntegerValue", .holding (readAs .integer readInt64)), ("EnumValue", .holding (readAs .enumeral readText))]

def readPropertyMap : Reader PropertyMap := readMap (fun t => some ⟨t⟩) (readOption readValue)

def readTransientReference : Reader TransientReference :=
  (required "tx_id" readTxId <| required "id" readTemporaryId .nil).read fun (txId, id, ()) => ⟨txId, id⟩

def readStagedReference : Reader StagedReference :=
  (required "tx_id" readTxId <| required "id" readTemporaryId .nil).read fun (txId, id, ()) => ⟨txId, id⟩

def readSmartReference : Reader SmartReference :=
  (required "tx_id" readTxId <| required "holon_id" readHolonId <|
    optional "smart_property_values" readPropertyMap .nil).read
      fun (txId, holonId, cached, ()) => ⟨txId, holonId, cached⟩

def readReference : Reader Reference :=
  readChoice
    [("Transient", .holding (readAs .transient readTransientReference)),
      ("Staged", .holding (readAs .staged readStagedReference)), ("Smart", .holding (readAs .smart readSmartReference))]

def readCollectionState : Reader CollectionState :=
  readChoice
    [("Fetched", .bare .fetched), ("Pending", .bare .pending), ("Staged", .bare .staged), ("Saved", .bare .saved),
      ("Abandoned", .bare .abandoned)]

def readCollection : Reader Collection :=
  (required "state" readCollectionState <| required "members" (readList readReference) <|
    required "keyed_index" (readMap some readUInt64) .nil).read
      fun (state, members, keyedIndex, ()) => ⟨state, members, keyedIndex⟩

def readRelationshipMap : Reader RelationshipMap := readMap (fun t => some ⟨t⟩) readCollection

def readQueryExpression : Reader QueryExpression :=
  (required "relationship_name" readText .nil).read fun (name, ()) => ⟨⟨name⟩⟩

def readNodeCollection : Reader NodeCollection :=
  (required "members" (readList readReference) <| optional "query_spec" readQueryExpression .nil).read
    fun (members, query, ()) => ⟨members, query⟩

def readHolonState : Reader HolonState := readChoice [("Mutable", .bare .mutable), ("Immutable", .bare .immutable)]

def readValidationState : Reader ValidationState :=
  readChoice
    [("NoDescriptor", .bare .noDescriptor), ("ValidationRequired", .bare .required), ("Validated", .bare .validated),
      ("Invalid", .bare .invalid)]

def readSavedState : Reader SavedState := readChoice [("Fetched", .bare .fetched), ("Deleted", .bare .deleted)]

def readStagedState : Reader StagedState :=
  readChoice
    [("ForCreate", .bare .forCreate), ("ForUpdate", .bare .forUpdate), ("ForUpdateChanged", .bare .forUpdateChanged),
      ("Abandoned", .bare .abandoned), ("Committed", .holding (readAs .committed readLocalId))]

def readTransientHolon : Reader TransientHolon :=
  (required "version" readUInt64 <| required "holon_state" readHolonState <|
    required "validation_state" readValidationState <| optional "temporary_id" readTemporaryId <|
    required "property_map" readPropertyMap <| required "relationships" readRelationshipMap <|
    optional "original_id" readLocalId .nil).read
      fun (version, holonState, validationState, temporaryId, properties, relationships, predecessorId, ()) =>
        ⟨version, holonState, validationState, temporaryId, properties, relationships, predecessorId⟩

def readRecordedError : Reader RecordedError :=
  (required "error" readText <| optional "context" readText .nil).read fun (error, context, ()) => ⟨error, context⟩

def readStagedHolon : Reader StagedHolon :=
  (required "version" readUInt64 <| required "holon_state" readHolonState <|
    required "staged_state" readStagedState <| required "validation_state" readValidationState <|
    required "property_map" readPropertyMap <| required "relationships" readRelationshipMap <|
    optional "original_id" readLocalId <| required "errors" (readList readRecordedError) .nil).read
      fun (version, holonState, stagedState, validationState, properties, relationships, predecessorId, errors, ()) =>
        ⟨version, holonState, stagedState, validationState, properties, relationships, predecessorId, errors⟩

def readSavedHolon : Reader SavedHolon :=
  (required "holon_state" readHolonState <| required "validation_state" readValidationState <|
    required "saved_id" readLocalId <| required "version" readUInt64 <| required "saved_state" readSavedState <|
    required "property_map" readPropertyMap <| optional "original_id" readLocalId .nil).read
      fun (holonState, validationState, savedId, version, savedState, properties, predecessorId, ()) =>
        ⟨holonState, validationState, savedId, version, savedState, properties, predecessorId⟩

def readHolon : Reader Holon :=
  readChoice
    [("Transient", .holding (readAs .transient readTransientHolon)),
      ("Staged", .holding (readAs .staged readStagedHolon)), ("Saved", .holding (readAs .saved readSavedHolon))]

/-- The id that a member of a pool stands under. -/
def temporaryIdKey? (name : String) : Option TemporaryId := (Uuid.ofString? name).map TemporaryId.mk

def readPool : Reader Pool :=
  (required "holons" (readMap temporaryIdKey? readHolon) <|
    required "keyed_index" (readMap some readTemporaryId) .nil).read
      fun (holons, keyedIndex, ()) => ⟨holons, keyedIndex⟩

def readSessionState : Reader SessionState :=
  (required "tx_id" readTxId <| required "transient_holons" readPool <| required "staged_holons" readPool <|
    optional "local_holon_space" readReference .nil).read
      fun (txId, transientHolons, stagedHolons, localHolonSpace, ()) =>
        ⟨txId, transientHolons, stagedHolons, localHolonSpace⟩

def readDanceType : Reader DanceType :=
  readChoice
    [("Standalone", .bare .standalone), ("QueryMethod", .holding (readAs .query readNodeCollection)),
      ("CommandMethod", .holding (readAs .command readStagedReference)),
      ("CloneMethod", .holding (readAs .clone readReference)),
      ("NewVersionMethod", .holding (readAs .newVersion readHolonId)),
      ("DeleteMethod", .holding (readAs .delete readLocalId))]

def readFileData : Reader FileData :=
  (required "filename" readText <| required "raw_contents" readText .nil).read
    fun (filename, contents, ()) => ⟨filename, contents⟩

def readContentSet : Reader ContentSet :=
  (optional "schema" readReference <| required "files_to_load" (readList readFileData) .nil).read
    fun (schema, files, ()) => ⟨schema, files⟩

def readTargetHolons : Reader RequestBody :=
  (required "0" readText <| required "1" (readList readReference) .nil).readTuple
    fun (relationship, holons, ()) => .targetHolons ⟨relationship⟩ holons

def readRequestBody : Reader RequestBody :=
  readChoice
    [("None", .bare .none), ("Holon", .holding (readAs .holon readHolon)), ("TargetHolons", .holding readTargetHolons),
      ("TransientReference", .holding (readAs .transientReference readTransientReference)),
      ("HolonId", .holding (readAs .holonId readHolonId)),
      ("ParameterValues", .holding (readAs .parameterValues readPropertyMap)),
      ("StagedRef", .holding (readAs .stagedReference readStagedReference)),
      ("QueryExpression", .holding (readAs .queryExpression readQueryExpression)),
      ("LoadHolons", .holding (readAs .loadHolons readContentSet))]

def readSessionContext : Reader SessionContext :=
  (required "tx_id" readTxId <| required "space_reference" readText <| required "state" readSessionState .nil).read
    fun (txId, space, state, ()) => ⟨txId, ⟨space⟩, state⟩

def readRequest : Reader DanceRequest :=
  (required "name" readText <| required "operation_kind" readDanceType <| required "body" readRequestBody <|
    required "session_context" readSessionContext .nil).read
      fun (name, kind, body, context, ()) => ⟨name, kind, body, context⟩

def readStatus : Reader Status := readChoice (Status.all.map fun s => (s.name, .bare s))

def readResponseBody : Reader ResponseBody :=
  readChoice
    [("None", .bare .none), ("Holon", .holding (readAs .holon readHolon)),
      ("Holons", .holding (readAs .holons (readList readHolon))),
      ("HolonCollection", .holding (readAs .collection readCollection)),
      ("HolonReference", .holding (readAs .reference readReference)),
      ("NodeCollection", .holding (readAs .nodes readNodeCollection))]

def readResponse : Reader DanceResponse :=
  (required "space_id" readText <| required "status_code" readStatus <| required "description" readText <|
    required "body" readResponseBody <| optional "descriptor" readReference <|
    optional "session_snapshot" readSessionState .nil).read
      fun (space, status, description, body, descriptor, snapshot, ()) =>
        ⟨⟨space⟩, status, description, body, descriptor, snapshot⟩

end Holarchy.Wire
