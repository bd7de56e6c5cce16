import Holarchy.Client
/-!
# Reports

What a client gives its callers and its subscribers, as JSON, and settings in the same form.
-/
namespace Holarchy.Wire

open Json Json.Fields

def writeSavedHolons (hs : List SavedHolon) : List Char := writeList (hs.map writeSavedHolon)

def writeLocalIds (ids : List LocalId) : List Char := writeList (ids.map writeLocalId)

def writeReconciliation (r : Reconciliation) : List Char :=
  writeObject
    [("seq", writeUInt64 r.seq), ("status", writeString r.status.name), ("state", writeSessionState r.state),
      ("committed", writeSavedHolons r.findings.committed), ("fetched", writeSavedHolons r.findings.fetched),
      ("placeholders", writeLocalIds r.findings.placeholders), ("body", writeResponseBody r.body)]

def writeFetchedHolons (f : FetchedHolons) : List Char :=
  writeObject
    [("holons", writeSavedHolons f.holons), ("placeholders", writeLocalIds f.placeholders),
      ("complete", writeBoolean f.isComplete)]

def writeAnswer : Answer → List Char
  | .nothing => writeNull
  | .transient r => writeTransientReference r
  | .staged r => writeStagedReference r
  | .holons hs => writeList (hs.map writeHolon)
  | .savedHolon h => writeSavedHolon h
  | .savedHolons hs => writeSavedHolons hs
  | .fetched f => writeFetchedHolons f
  | .nodes n => writeNodeCollection n

def writeEvent : SessionEvent → List Char
  | .reconciled txId seq dance transient staged committed =>
    writeObject
      [("event", writeString "Reconciled"), ("tx_id", writeTxId txId), ("seq", writeUInt64 seq),
        ("dance", writeString dance), ("transient", writeNatural transient), ("staged", writeNatural staged),
        ("committed", writeNatural committed)]
  | .rejected txId seq dance status =>
    writeObject
      [("event", writeString "Rejected"), ("tx_id", writeTxId txId), ("seq", writeUInt64 seq),
        ("dance", writeString dance), ("status", writeString status.name)]

/-- What a subscriber receives; what it has missed comes first. -/
def writeDelivery (d : Delivery) : List Char :=
  let lagged :=
    if d.missed = 0 then []
    else [writeObject [("event", writeString "Lagged"), ("missed", writeNatural d.missed)]]
  writeList (lagged ++ d.events.map writeEvent)

def writeConfig (c : ClientConfig) : List Char :=
  writeObject
    [("space_id", writeString c.spaceId), ("tx_id", writeUInt64 c.txId), ("timeout_ms", writeUInt64 c.timeout),
      ("event_capacity", writeUInt64 c.eventCapacity)]

/-- Settings; those that are left out have their defaults. -/
def readConfig : Reader ClientConfig :=
  (Fields.cons "space_id" readText (some ClientConfig.default.spaceId) <|
    .cons "tx_id" readUInt64 (some ClientConfig.default.txId) <|
    .cons "timeout_ms" readUInt64 (some ClientConfig.default.timeout) <|
    .cons "event_capacity" readUInt64 (some ClientConfig.default.eventCapacity) .nil).read
      fun (spaceId, txId, timeout, eventCapacity, ()) => ⟨spaceId, txId, timeout, eventCapacity⟩

/-- The predicates that hold of an error, by name. -/
def errorFlags (e : ClientError) : List String :=
  [("retryable", e.isRetryable), ("timeout", e.isTimeout), ("not_found", e.isNotFound), ("conflict", e.isConflict),
    ("outcome_unknown", e.outcomeUnknown)].filterMap fun f => if f.2 then some f.1 else none

end Holarchy.Wire
