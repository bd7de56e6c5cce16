import Holarchy.Proofs.Json.Listed
import Holarchy.Proofs.Json.Record
import Holarchy.Proofs.Uuid
import Holarchy.Wire.Reader
import Holarchy.Wire.Writer
/-!
# What envelopes say

The document of every type that stands in an envelope, with the fields that can be left out, and that it is conveyed by
the reader and the writer of the type: from the ids up to the two envelopes.
-/
namespace Holarchy.Wire

open Json

/-! ## Ids and values -/

def documentBytes (bytes : List UInt8) : Document := .list (bytes.map fun b => .integer b.toNat)

def documentLocalId (id : LocalId) : Document := documentBytes id.bytes

def documentTemporaryId (id : TemporaryId) : Document := .text id.toString

def documentTxId (tx : TxId) : Document := .integer tx.number.toNat

def documentExternalId (e : ExternalId) : Document :=
  .record [("space_id", .required, documentLocalId e.spaceId), ("local_id", .required, documentLocalId e.localId)]

def documentHolonId : HolonId → Document
  | .local id => .object [("Local", documentLocalId id)]
  | .external e => .object [("External", documentExternalId e)]

def documentValue : Value → Document
  | .string s => .object [("StringValue", .text s)]
  | .boolean b => .object [("BooleanValue", .boolean b)]
  | .integer i => .object [("IntegerValue", .integer i.toInt)]
  | .enumeral s => .object [("EnumValue", .text s)]

/-- A map as an object, in which the order does not matter. -/
def documentMap {κ β : Type} [KeyOrder κ] (name : κ → String) (document : β → Document) (m : SortedMap κ β) :
    Document :=
  .object (m.entries.map fun e => (name e.1, document e.2))

def documentPropertyMap (m : PropertyMap) : Document := documentMap PropertyName.text (optionDocument documentValue) m

theorem conveyed_bytes (bytes : List UInt8) : Conveyed readBytes bytes (writeBytes bytes) (documentBytes bytes) :=
  conveyed_list conveyed_byte (fun _ => nofun) bytes

theorem conveyed_localId (id : LocalId) : Conveyed readLocalId id (writeLocalId id) (documentLocalId id) :=
  conveyed_as LocalId.mk (conveyed_bytes id.bytes)

theorem awaits_temporaryId : Awaits readTemporaryId where
  blanks s hb := by rw [readTemporaryId, readTemporaryId, awaits_text.blanks s hb]
  nothing := rfl

theorem conveyed_temporaryId (id : TemporaryId) :
    Conveyed readTemporaryId id (writeTemporaryId id) (documentTemporaryId id) where
  awaits := awaits_temporaryId
  laid := (conveyed_text id.toString).laid
  meets ht r hr := by
    have htext := (conveyed_text id.toString).meets ht r hr
    rcases htext.cases with ⟨rfl, hok⟩ | ⟨rfl, m, rest, settled, hm, herror⟩
    · rw [readTemporaryId, hok]
      simp only [TemporaryId.toString, Uuid.ofString?_toString]
      exact rfl
    · rw [readTemporaryId, herror]
      exact meets_error hm rest settled _
  stops hcut hs := by
    obtain ⟨what, hended⟩ := readText_cut hcut hs
    exact .inl ⟨what, by rw [readTemporaryId, hended]⟩

theorem temporaryIdKey?_toString (id : TemporaryId) : temporaryIdKey? id.toString = some id := by
  rw [temporaryIdKey?, TemporaryId.toString, Uuid.ofString?_toString]; rfl

theorem conveyed_txId (tx : TxId) : Conveyed readTxId tx (writeTxId tx) (documentTxId tx) :=
  conveyed_as TxId.mk (conveyed_uint64 tx.number)

theorem conveyed_externalId (e : ExternalId) : Conveyed readExternalId e
    (writeObject [("space_id", writeLocalId e.spaceId), ("local_id", writeLocalId e.localId)]) (documentExternalId e) :=
  conveyed_record (.required (conveyed_localId e.spaceId) (.required (conveyed_localId e.localId) .nil)) (by decide)
    rfl rfl rfl

theorem conveyed_holonId : ∀ id : HolonId, Conveyed readHolonId id (writeHolonId id) (documentHolonId id)
  | .local id => conveyed_holding rfl (conveyed_as HolonId.local (conveyed_localId id))
  | .external e => conveyed_holding rfl (conveyed_as HolonId.external (conveyed_externalId e))

theorem conveyed_value : ∀ v : Value, Conveyed readValue v (writeValue v) (documentValue v)
  | .string s => conveyed_holding rfl (conveyed_as Value.string (conveyed_text s))
  | .boolean b => conveyed_holding rfl (conveyed_as Value.boolean (conveyed_boolean b))
  | .integer i => conveyed_holding rfl (conveyed_as Value.integer (conveyed_int64 i))
  | .enumeral s => conveyed_holding rfl (conveyed_as Value.enumeral (conveyed_text s))

theorem documentValue_ne_null : ∀ v : Value, documentValue v ≠ .null
  | .string _ | .boolean _ | .integer _ | .enumeral _ => nofun

theorem conveyed_namedMap {κ β : Type} [KeyOrder κ] [DecidableEq κ] {key? : String → Option κ} {name : κ → String}
    {read : Reader β} {write : β → List Char} {document : β → Document} {m : SortedMap κ β}
    (hkey : ∀ k, key? (name k) = some k) (h : ∀ v, Conveyed read v (write v) (document v)) :
    Conveyed (readMap key? read) m (writeMap name write m) (documentMap name document m) := conveyed_map hkey h

theorem conveyed_propertyMap (m : PropertyMap) :
    Conveyed readPropertyMap m (writePropertyMap m) (documentPropertyMap m) :=
  conveyed_namedMap (fun _ => rfl) (conveyed_option awaits_choice conveyed_value documentValue_ne_null)

/-! ## References and collections -/

def documentPooled (txId : TxId) (id : TemporaryId) : Document :=
  .record [("tx_id", .required, documentTxId txId), ("id", .required, documentTemporaryId id)]

def documentTransientReference (r : TransientReference) : Document := documentPooled r.txId r.id

def documentStagedReference (r : StagedReference) : Document := documentPooled r.txId r.id

def documentSmartReference (r : SmartReference) : Document :=
  .record
    [("tx_id", .required, documentTxId r.txId), ("holon_id", .required, documentHolonId r.holonId),
      ("smart_property_values", .optional, optionDocument documentPropertyMap r.cached)]

def documentReference : Reference → Document
  | .transient r => .object [("Transient", documentTransientReference r)]
  | .staged r => .object [("Staged", documentStagedReference r)]
  | .smart r => .object [("Smart", documentSmartReference r)]

def documentReferences (rs : List Reference) : Document := .list (rs.map documentReference)

def documentCollection (c : Collection) : Document :=
  .record
    [("state", .required, .text c.state.toString), ("members", .required, documentReferences c.members),
      ("keyed_index", .required, documentMap id (fun n : UInt64 => .integer n.toNat) c.keyedIndex)]

def documentRelationshipMap (m : RelationshipMap) : Document := documentMap RelationshipName.text documentCollection m

def documentQueryExpression (q : QueryExpression) : Document :=
  .record [("relationship_name", .required, .text q.relationship.text)]

def documentNodeCollection (n : NodeCollection) : Document :=
  .record
    [("members", .required, documentReferences n.members),
      ("query_spec", .optional, optionDocument documentQueryExpression n.query)]

theorem conveyed_transientReference (r : TransientReference) :
    Conveyed readTransientReference r (writeTransientReference r) (documentTransientReference r) :=
  conveyed_record (.required (conveyed_txId r.txId) <| .required (conveyed_temporaryId r.id) .nil) (by decide)
    rfl rfl rfl

theorem conveyed_stagedReference (r : StagedReference) :
    Conveyed readStagedReference r (writeStagedReference r) (documentStagedReference r) :=
  conveyed_record (.required (conveyed_txId r.txId) <| .required (conveyed_temporaryId r.id) .nil) (by decide)
    rfl rfl rfl

theorem conveyed_smartReference (r : SmartReference) :
    Conveyed readSmartReference r (writeSmartReference r) (documentSmartReference r) :=
  conveyed_record
    (.required (conveyed_txId r.txId) <| .required (conveyed_holonId r.holonId) <|
      .optional awaits_map conveyed_propertyMap (fun _ => nofun) r.cached .nil) (by decide) rfl rfl rfl

theorem conveyed_reference : ∀ r : Reference, Conveyed readReference r (writeReference r) (documentReference r)
  | .transient r => conveyed_holding rfl (conveyed_as Reference.transient (conveyed_transientReference r))
  | .staged r => conveyed_holding rfl (conveyed_as Reference.staged (conveyed_stagedReference r))
  | .smart r => conveyed_holding rfl (conveyed_as Reference.smart (conveyed_smartReference r))

theorem documentReference_ne_null : ∀ r : Reference, documentReference r ≠ .null
  | .transient _ | .staged _ | .smart _ => nofun

theorem conveyed_references (rs : List Reference) :
    Conveyed (readList readReference) rs (writeReferences rs) (documentReferences rs) :=
  conveyed_list conveyed_reference documentReference_ne_null rs

theorem conveyed_collectionState : ∀ s : CollectionState,
    Conveyed readCollectionState s (writeString s.toString) (.text s.toString)
  | .fetched | .pending | .staged | .saved | .abandoned => conveyed_bare rfl

theorem conveyed_collection (c : Collection) : Conveyed readCollection c (writeCollection c) (documentCollection c) :=
  conveyed_record
    (.required (conveyed_collectionState c.state) <| .required (conveyed_references c.members) <|
      .required (conveyed_namedMap (fun _ => rfl) conveyed_uint64) .nil) (by decide) rfl rfl rfl

theorem conveyed_relationshipMap (m : RelationshipMap) :
    Conveyed readRelationshipMap m (writeRelationshipMap m) (documentRelationshipMap m) :=
  conveyed_namedMap (fun _ => rfl) conveyed_collection

theorem conveyed_queryExpression (q : QueryExpression) :
    Conveyed readQueryExpression q (writeQueryExpression q) (documentQueryExpression q) :=
  conveyed_record (.required (conveyed_text q.relationship.text) .nil) (by decide) rfl rfl rfl

theorem conveyed_nodeCollection (n : NodeCollection) :
    Conveyed readNodeCollection n (writeNodeCollection n) (documentNodeCollection n) :=
  conveyed_record
    (.required (conveyed_references n.members) <|
      .optional awaits_record conveyed_queryExpression (fun _ => nofun) n.query .nil) (by decide) rfl rfl rfl

/-! ## Holons and sessions -/

def documentStagedState : StagedState → Document
  | .committed id => .object [("Committed", documentLocalId id)]
  | state => .text state.toString

def documentOptionalLocalId (id : Option LocalId) : Document := optionDocument documentLocalId id

def documentTransientHolon (h : TransientHolon) : Document :=
  .record
    [("version", .required, .integer h.version.toNat), ("holon_state", .required, .text h.holonState.toString),
      ("validation_state", .required, .text h.validationState.toString),
      ("temporary_id", .optional, optionDocument documentTemporaryId h.temporaryId),
      ("property_map", .required, documentPropertyMap h.properties),
      ("relationships", .required, documentRelationshipMap h.relationships),
      ("original_id", .optional, documentOptionalLocalId h.predecessorId)]

def documentRecordedError (e : RecordedError) : Document :=
  .record [("error", .required, .text e.error), ("context", .optional, optionDocument .text e.context)]

def documentStagedHolon (h : StagedHolon) : Document :=
  .record
    [("version", .required, .integer h.version.toNat), ("holon_state", .required, .text h.holonState.toString),
      ("staged_state", .required, documentStagedState h.stagedState),
      ("validation_state", .required, .text h.validationState.toString),
      ("property_map", .required, documentPropertyMap h.properties),
      ("relationships", .required, documentRelationshipMap h.relationships),
      ("original_id", .optional, documentOptionalLocalId h.predecessorId),
      ("errors", .required, .list (h.errors.map documentRecordedError))]

def documentSavedHolon (h : SavedHolon) : Document :=
  .record
    [("holon_state", .required, .text h.holonState.toString),
      ("validation_state", .required, .text h.validationState.toString),
      ("saved_id", .required, documentLocalId h.savedId), ("version", .required, .integer h.version.toNat),
      ("saved_state", .required, .text h.savedState.toString),
      ("property_map", .required, documentPropertyMap h.properties),
      ("original_id", .optional, documentOptionalLocalId h.predecessorId)]

def documentHolon : Holon → Document
  | .transient h => .object [("Transient", documentTransientHolon h)]
  | .staged h => .object [("Staged", documentStagedHolon h)]
  | .saved h => .object [("Saved", documentSavedHolon h)]

def documentPool (p : Pool) : Document :=
  .record
    [("holons", .required, documentMap TemporaryId.toString documentHolon p.holons),
      ("keyed_index", .required, documentMap id documentTemporaryId p.keyedIndex)]

def documentOptionalReference (r : Option Reference) : Document := optionDocument documentReference r

def documentSessionState (s : SessionState) : Document :=
  .record
    [("tx_id", .required, documentTxId s.txId), ("transient_holons", .required, documentPool s.transientHolons),
      ("staged_holons", .required, documentPool s.stagedHolons),
      ("local_holon_space", .optional, documentOptionalReference s.localHolonSpace)]

theorem conveyed_holonState : ∀ s : HolonState, Conveyed readHolonState s (writeString s.toString) (.text s.toString)
  | .mutable | .immutable => conveyed_bare rfl

theorem conveyed_validationState : ∀ s : ValidationState,
    Conveyed readValidationState s (writeString s.toString) (.text s.toString)
  | .noDescriptor | .required | .validated | .invalid => conveyed_bare rfl

theorem conveyed_savedState : ∀ s : SavedState, Conveyed readSavedState s (writeString s.toString) (.text s.toString)
  | .fetched | .deleted => conveyed_bare rfl

theorem conveyed_stagedState : ∀ s : StagedState,
    Conveyed readStagedState s (writeStagedState s) (documentStagedState s)
  | .forCreate | .forUpdate | .forUpdateChanged | .abandoned => conveyed_bare rfl
  | .committed id => conveyed_holding rfl (conveyed_as StagedState.committed (conveyed_localId id))

/-- The field of the holon that another one was made from. -/
theorem documented_predecessor {αs : List Type} {more : Fields αs} {vs : Values αs} {es : List Held} {name : String}
    (id : Option LocalId) (hmore : more.Documented vs es) :
    (Fields.optional name readLocalId more).Documented (id, vs)
      (⟨name, .optional, documentOptionalLocalId id, writeOption writeLocalId id⟩ :: es) :=
  .optional (conveyed_localId default).awaits conveyed_localId (fun _ => nofun) id hmore

theorem conveyed_transientHolon (h : TransientHolon) :
    Conveyed readTransientHolon h (writeTransientHolon h) (documentTransientHolon h) :=
  conveyed_record
    (.required (conveyed_uint64 h.version) <| .required (conveyed_holonState h.holonState) <|
      .required (conveyed_validationState h.validationState) <|
      .optional awaits_temporaryId conveyed_temporaryId (fun _ => nofun) h.temporaryId <|
      .required (conveyed_propertyMap h.properties) <| .required (conveyed_relationshipMap h.relationships) <|
      documented_predecessor h.predecessorId .nil) (by decide) rfl rfl rfl

theorem conveyed_recordedError (e : RecordedError) :
    Conveyed readRecordedError e (writeRecordedError e) (documentRecordedError e) :=
  conveyed_record
    (.required (conveyed_text e.error) <| .optional awaits_text conveyed_text (fun _ => nofun) e.context .nil)
    (by decide) rfl rfl rfl

theorem conveyed_stagedHolon (h : StagedHolon) :
    Conveyed readStagedHolon h (writeStagedHolon h) (documentStagedHolon h) :=
  conveyed_record
    (.required (conveyed_uint64 h.version) <| .required (conveyed_holonState h.holonState) <|
      .required (conveyed_stagedState h.stagedState) <| .required (conveyed_validationState h.validationState) <|
      .required (conveyed_propertyMap h.properties) <| .required (conveyed_relationshipMap h.relationships) <|
      documented_predecessor h.predecessorId <|
      .required (conveyed_list conveyed_recordedError (fun _ => nofun) h.errors) .nil) (by decide) rfl rfl rfl

theorem conveyed_savedHolon (h : SavedHolon) : Conveyed readSavedHolon h (writeSavedHolon h) (documentSavedHolon h) :=
  conveyed_record
    (.required (conveyed_holonState h.holonState) <| .required (conveyed_validationState h.validationState) <|
      .required (conveyed_localId h.savedId) <| .required (conveyed_uint64 h.version) <|
      .required (conveyed_savedState h.savedState) <| .required (conveyed_propertyMap h.properties) <|
      documented_predecessor h.predecessorId .nil) (by decide) rfl rfl rfl

theorem conveyed_holon : ∀ h : Holon, Conveyed readHolon h (writeHolon h) (documentHolon h)
  | .transient h => conveyed_holding rfl (conveyed_as Holon.transient (conveyed_transientHolon h))
  | .staged h => conveyed_holding rfl (conveyed_as Holon.staged (conveyed_stagedHolon h))
  | .saved h => conveyed_holding rfl (conveyed_as Holon.saved (conveyed_savedHolon h))

theorem documentHolon_ne_null : ∀ h : Holon, documentHolon h ≠ .null
  | .transient _ | .staged _ | .saved _ => nofun

theorem conveyed_pool (p : Pool) : Conveyed readPool p (writePool p) (documentPool p) :=
  conveyed_record
    (.required (conveyed_namedMap temporaryIdKey?_toString conveyed_holon) <|
      .required (conveyed_namedMap (fun _ => rfl) conveyed_temporaryId) .nil) (by decide) rfl rfl rfl

/-- A field for a reference that can be missing. -/
theorem documented_reference {αs : List Type} {more : Fields αs} {vs : Values αs} {es : List Held} {name : String}
    (r : Option Reference) (hmore : more.Documented vs es) :
    (Fields.optional name readReference more).Documented (r, vs)
      (⟨name, .optional, documentOptionalReference r, writeOption writeReference r⟩ :: es) :=
  .optional awaits_choice conveyed_reference documentReference_ne_null r hmore

theorem conveyed_sessionState (s : SessionState) :
    Conveyed readSessionState s (writeSessionState s) (documentSessionState s) :=
  conveyed_record
    (.required (conveyed_txId s.txId) <| .required (conveyed_pool s.transientHolons) <|
      .required (conveyed_pool s.stagedHolons) <| documented_reference s.localHolonSpace .nil) (by decide) rfl rfl rfl

/-! ## Requests -/

def documentDanceType : DanceType → Document
  | .standalone => .text "Standalone"
  | .query sources => .object [("QueryMethod", documentNodeCollection sources)]
  | .command target => .object [("CommandMethod", documentStagedReference target)]
  | .clone source => .object [("CloneMethod", documentReference source)]
  | .newVersion id => .object [("NewVersionMethod", documentHolonId id)]
  | .delete id => .object [("DeleteMethod", documentLocalId id)]

def documentFileData (f : FileData) : Document :=
  .record [("filename", .required, .text f.filename), ("raw_contents", .required, .text f.contents)]

def documentContentSet (c : ContentSet) : Document :=
  .record
    [("schema", .optional, documentOptionalReference c.schema),
      ("files_to_load", .required, .list (c.files.map documentFileData))]

def documentRequestBody : RequestBody → Document
  | .none => .text "None"
  | .holon h => .object [("Holon", documentHolon h)]
  | .targetHolons relationship holons =>
    .object [("TargetHolons", .list [.text relationship.text, documentReferences holons])]
  | .transientReference r => .object [("TransientReference", documentTransientReference r)]
  | .holonId id => .object [("HolonId", documentHolonId id)]
  | .parameterValues properties => .object [("ParameterValues", documentPropertyMap properties)]
  | .stagedReference r => .object [("StagedRef", documentStagedReference r)]
  | .queryExpression q => .object [("QueryExpression", documentQueryExpression q)]
  | .loadHolons content => .object [("LoadHolons", documentContentSet content)]

def documentSessionContext (c : SessionContext) : Document :=
  .record
    [("tx_id", .required, documentTxId c.txId), ("space_reference", .required, .text c.space.text),
      ("state", .required, documentSessionState c.state)]

def documentRequest (r : DanceRequest) : Document :=
  .record
    [("name", .required, .text r.name), ("operation_kind", .required, documentDanceType r.kind),
      ("body", .required, documentRequestBody r.body), ("session_context", .required, documentSessionContext r.context)]

theorem conveyed_danceType : ∀ k : DanceType, Conveyed readDanceType k (writeDanceType k) (documentDanceType k)
  | .standalone => conveyed_bare rfl
  | .query sources => conveyed_holding rfl (conveyed_as DanceType.query (conveyed_nodeCollection sources))
  | .command target => conveyed_holding rfl (conveyed_as DanceType.command (conveyed_stagedReference target))
  | .clone source => conveyed_holding rfl (conveyed_as DanceType.clone (conveyed_reference source))
  | .newVersion id => conveyed_holding rfl (conveyed_as DanceType.newVersion (conveyed_holonId id))
  | .delete id => conveyed_holding rfl (conveyed_as DanceType.delete (conveyed_localId id))

theorem conveyed_fileData (f : FileData) : Conveyed readFileData f (writeFileData f) (documentFileData f) :=
  conveyed_record (.required (conveyed_text f.filename) <| .required (conveyed_text f.contents) .nil) (by decide)
    rfl rfl rfl

theorem conveyed_contentSet (c : ContentSet) : Conveyed readContentSet c (writeContentSet c) (documentContentSet c) :=
  conveyed_record
    (documented_reference c.schema <| .required (conveyed_list conveyed_fileData (fun _ => nofun) c.files) .nil)
    (by decide) rfl rfl rfl

theorem conveyed_requestBody : ∀ b : RequestBody,
    Conveyed readRequestBody b (writeRequestBody b) (documentRequestBody b)
  | .none => conveyed_bare rfl
  | .holon h => conveyed_holding rfl (conveyed_as RequestBody.holon (conveyed_holon h))
  | .targetHolons relationship holons =>
    conveyed_holding rfl (conveyed_pair (conveyed_text relationship.text) (conveyed_references holons) nofun nofun)
  | .transientReference r =>
    conveyed_holding rfl (conveyed_as RequestBody.transientReference (conveyed_transientReference r))
  | .holonId id => conveyed_holding rfl (conveyed_as RequestBody.holonId (conveyed_holonId id))
  | .parameterValues m => conveyed_holding rfl (conveyed_as RequestBody.parameterValues (conveyed_propertyMap m))
  | .stagedReference r => conveyed_holding rfl (conveyed_as RequestBody.stagedReference (conveyed_stagedReference r))
  | .queryExpression q => conveyed_holding rfl (conveyed_as RequestBody.queryExpression (conveyed_queryExpression q))
  | .loadHolons content => conveyed_holding rfl (conveyed_as RequestBody.loadHolons (conveyed_contentSet content))

theorem conveyed_sessionContext (c : SessionContext) :
    Conveyed readSessionContext c (writeSessionContext c) (documentSessionContext c) :=
  conveyed_record
    (.required (conveyed_txId c.txId) <| .required (conveyed_text c.space.text) <|
      .required (conveyed_sessionState c.state) .nil) (by decide) rfl rfl rfl

/-- **A request is conveyed in its text.** -/
theorem enclosed_request (r : DanceRequest) : Enclosed readRequest r (writeRequest r) (documentRequest r) :=
  enclosed_record
    (.required (conveyed_text r.name) <| .required (conveyed_danceType r.kind) <|
      .required (conveyed_requestBody r.body) <| .required (conveyed_sessionContext r.context) .nil) (by decide)
    rfl rfl rfl

/-! ## Responses -/

def documentResponseBody : ResponseBody → Document
  | .none => .text "None"
  | .holon h => .object [("Holon", documentHolon h)]
  | .holons hs => .object [("Holons", .list (hs.map documentHolon))]
  | .collection c => .object [("HolonCollection", documentCollection c)]
  | .reference r => .object [("HolonReference", documentReference r)]
  | .nodes n => .object [("NodeCollection", documentNodeCollection n)]

def documentResponse (r : DanceResponse) : Document :=
  .record
    [("space_id", .required, .text r.space.text), ("status_code", .required, .text r.status.name),
      ("description", .required, .text r.description), ("body", .required, documentResponseBody r.body),
      ("descriptor", .optional, documentOptionalReference r.descriptor),
      ("session_snapshot", .optional, optionDocument documentSessionState r.snapshot)]

theorem conveyed_status : ∀ s : Status, Conveyed readStatus s (writeString s.name) (.text s.name)
  | .ok | .accepted | .badRequest | .unauthorized | .forbidden | .notFound | .conflict | .unprocessableEntity
  | .serverError | .notImplemented | .serviceUnavailable => conveyed_bare rfl

theorem conveyed_responseBody : ∀ b : ResponseBody,
    Conveyed readResponseBody b (writeResponseBody b) (documentResponseBody b)
  | .none => conveyed_bare rfl
  | .holon h => conveyed_holding rfl (conveyed_as ResponseBody.holon (conveyed_holon h))
  | .holons hs =>
    conveyed_holding rfl (conveyed_as ResponseBody.holons (conveyed_list conveyed_holon documentHolon_ne_null hs))
  | .collection c => conveyed_holding rfl (conveyed_as ResponseBody.collection (conveyed_collection c))
  | .reference r => conveyed_holding rfl (conveyed_as ResponseBody.reference (conveyed_reference r))
  | .nodes n => conveyed_holding rfl (conveyed_as ResponseBody.nodes (conveyed_nodeCollection n))

/-- **A response is conveyed in its text.** -/
theorem enclosed_response (r : DanceResponse) : Enclosed readResponse r (writeResponse r) (documentResponse r) :=
  enclosed_record
    (.required (conveyed_text r.space.text) <| .required (conveyed_status r.status) <|
      .required (conveyed_text r.description) <| .required (conveyed_responseBody r.body) <|
      documented_reference r.descriptor <|
      .optional awaits_record conveyed_sessionState (fun _ => nofun) r.snapshot .nil) (by decide) rfl rfl rfl

end Holarchy.Wire
