import Holarchy.Server.Content
import Holarchy.Server.Order
/-!
# The store of a server

The persisted holons, and what each order does to them and to the session it is run against.  A refused order changes
neither; only a commit and a deletion change the store.
-/
namespace Holarchy

/-- The persisted holons by id, and the number of the last id given out. -/
structure Store where
  saved : SortedMap LocalId SavedHolon
  lastId : UInt64
  deriving DecidableEq

/-- What an order gives: an answer, the session after it, and the store after it. -/
structure Served where
  body : ResponseBody
  session : SessionState
  store : Store
  deriving DecidableEq

namespace Store

def empty : Store := ⟨∅, 0⟩

instance : Inhabited Store := ⟨empty⟩

/-- Persists a holon with the given properties under a new id. -/
def seed (s : Store) (properties : PropertyMap) : Store × LocalId :=
  let id := LocalId.numbered (s.lastId + 1)
  (⟨s.saved.insert id (.fetched id properties none 1), s.lastId + 1⟩, id)

def find (s : Store) (id : LocalId) : Except Refusal SavedHolon :=
  match s.saved.get? id with
  | some h => .ok h
  | none => .error (.notFound ("saved holon " ++ id.toString))

/-- The key that a related holon is indexed by, if the session or the store knows one. -/
def referenceKey? (s : Store) (session : SessionState) : Reference → Option String
  | .transient r => (session.transientHolons.get? r.id).bind Holon.key?
  | .staged r => (session.stagedHolons.get? r.id).bind Holon.key?
  | .smart r =>
    match r.cached with
    | some properties => properties.key?
    | none => (s.saved.get? r.holonId.localId).bind fun h => h.properties.key?

end Store

namespace SessionState

def withStaged (s : SessionState) (pool : Pool) : SessionState := { s with stagedHolons := pool }

/-- Puts a staged holon into the pool; the answer names it. -/
def stageInto (s : SessionState) (id : TemporaryId) (h : StagedHolon) : ResponseBody × SessionState :=
  (.reference (.staged (s.stagedReference id)), s.withStaged (s.stagedHolons.insert id (.staged h)))

/-- Changes the staged holon that a reference names; the answer is the reference. -/
def updateStaged (s : SessionState) (target : StagedReference)
    (change : StagedHolon → Except Refusal StagedHolon) : Except Refusal (ResponseBody × SessionState) := do
  let _ ← s.getStaged target
  let (pool, _) ← s.stagedHolons.update target.id fun h =>
    match h with
    | .staged h => (change h).map fun h => (.staged h, ())
    | _ => .error (.invalidReference (target.id.toString ++ " is not a staged holon"))
  .ok (.reference (.staged target), s.withStaged pool)

/-- The ids of the staged holons that can still be committed. -/
def pendingIds (s : SessionState) : List TemporaryId :=
  (s.stagedHolons.entries.filter fun e => e.2.isPending).map Prod.fst

/-- The holon behind a source of a query; a persisted holon has no relationships to follow. -/
def querySource? (s : SessionState) : Reference → Except Refusal (Option Holon)
  | .transient r => (s.getTransient r).map some
  | .staged r => (s.getStaged r).map some
  | .smart _ => .ok none

/-- The members that a relationship leads to from each source in turn. -/
def related (s : SessionState) (relationship : RelationshipName) : List Reference → Except Refusal (List Reference)
  | [] => .ok []
  | source :: sources => do
    let found ← s.querySource? source
    let members :=
      match found.bind fun h => h.relationships.get? relationship with
      | some collection => collection.members
      | none => []
    .ok (members ++ (← s.related relationship sources))

end SessionState

/-- The outcome of one edit as a changed holon or a refusal. -/
def StagedHolon.edited (h : StagedHolon) (e : Edit) : Except Refusal StagedHolon :=
  match h.edit e with
  | (.ok (), h) => .ok h
  | (.error e, _) => .error e

def StagedHolon.withoutProperties (h : StagedHolon) : List PropertyName → Except Refusal StagedHolon
  | [] => .ok h
  | name :: names => do (← h.edited (.removeProperty name)).withoutProperties names

namespace Pool

/-- Commits a holon under an id that the store has for it. -/
def commitHolon (id : LocalId) (h : Holon) : Except Refusal (Holon × Holon) :=
  match h with
  | .staged h => (h.commit id).map fun h => (.staged h, .staged h)
  | _ => .error (.invalidTransition "only a staged holon can be committed")

/-- Commits holons in order under successive ids; gives the pool, the last id and the committed holons. -/
def commitEach (p : Pool) (lastId : UInt64) : List TemporaryId → Except Refusal (Pool × UInt64 × List Holon)
  | [] => .ok (p, lastId, [])
  | id :: ids => do
    let (p, h) ← p.update id (commitHolon (.numbered (lastId + 1)))
    let (p, last, hs) ← p.commitEach (lastId + 1) ids
    .ok (p, last, h :: hs)

/-- The pool without the holons whose staging has ended. -/
def withoutFinished (p : Pool) : Pool :=
  ((p.entries.filter fun e => e.2.isFinished).map Prod.fst).foldl remove p

end Pool

namespace Store

/-- The store with a committed holon in it. -/
def persist (s : Store) (h : Holon) : Store :=
  match h.asStaged?.bind StagedHolon.toSaved? with
  | some saved => { s with saved := s.saved.insert saved.savedId saved }
  | none => s

/-- Commits holons of a session: all of them or none. -/
def commit (s : Store) (session : SessionState) (ids : List TemporaryId) : Except Refusal Served := do
  let (pool, lastId, committed) ← session.stagedHolons.commitEach s.lastId ids
  .ok ⟨.holons committed, session.withStaged pool.withoutFinished, committed.foldl persist { s with lastId }⟩

/-- All persisted holons as references, with their properties if those are to be embedded. -/
def allHolons (s : Store) (embed : Bool) (txId : TxId) : Collection :=
  { Collection.new .fetched with
    members := s.saved.values.map fun h =>
      .smart ⟨txId, .local h.savedId, if embed then some h.properties else none⟩ }

/-- The holon that a clone is made from. -/
def cloneSource (s : Store) (session : SessionState) : Reference → Except Refusal Holon
  | .transient r => session.getTransient r
  | .staged r => session.getStaged r
  | .smart r => (s.find r.holonId.localId).map .saved

/-- Stages the objects of a file in order, each under a fresh id. -/
def loadRecords (file : FileData) (session : SessionState) :
    List (SortedMap String Json.Tree) → IdSource → Except Refusal (List Holon × SessionState) × IdSource
  | [], ids => (.ok ([], session), ids)
  | record :: records, ids =>
    match file.properties record with
    | .error e => (.error e, ids)
    | .ok properties =>
      match (TransientHolon.new properties).stage with
      | .error e => (.error e, ids)
      | .ok h =>
        let (_, session) := session.stageInto ids.next h
        let (outcome, ids) := loadRecords file session records ids.advance
        (outcome.map fun (hs, session) => (.staged h :: hs, session), ids)

def loadFiles (session : SessionState) :
    List FileData → IdSource → Except Refusal (List Holon × SessionState) × IdSource
  | [], ids => (.ok ([], session), ids)
  | file :: files, ids =>
    match file.records with
    | .error e => (.error e, ids)
    | .ok records =>
      match loadRecords file session records ids with
      | (.error e, ids) => (.error e, ids)
      | (.ok (hs, session), ids) =>
        let (outcome, ids) := loadFiles session files ids
        (outcome.map fun (more, session) => (hs ++ more, session), ids)

/-- Stages what a promotion gives, under a fresh id; a refused promotion draws none. -/
def stageFresh (s : Store) (session : SessionState) (h : Except Refusal StagedHolon) (ids : IdSource) :
    Except Refusal Served × IdSource :=
  match h with
  | .error e => (.error e, ids)
  | .ok h =>
    let (body, session) := session.stageInto ids.next h
    (.ok ⟨body, session, s⟩, ids.advance)

/-- The holon of the transient pool that a reference names, staged, and the session without it. -/
def takeTransient (session : SessionState) (target : TransientReference) :
    Except Refusal (StagedHolon × SessionState) := do
  let h ← session.getTransient target
  let staged ← h.stage
  .ok (staged, { session with transientHolons := session.transientHolons.remove target.id })

/-- Stages a successor of a persisted holon: under the id that its key and next version name, if it has a key. -/
def stageVersion (s : Store) (session : SessionState) (id : HolonId) (ids : IdSource) :
    Except Refusal Served × IdSource :=
  match s.find id.localId with
  | .error e => (.error e, ids)
  | .ok h =>
    let (temporaryId, ids) :=
      match h.properties.key? with
      | some key => (TemporaryId.ofKey (versionedKey key (h.version + 1)), ids)
      | none => (ids.next, ids.advance)
    let outcome := h.newVersion.stage.map fun staged =>
      let (body, session) := session.stageInto temporaryId staged
      (⟨body, session, s⟩ : Served)
    (outcome, ids)

/-- An answer that leaves the store as it is. -/
def answering (s : Store) (r : Except Refusal (ResponseBody × SessionState)) : Except Refusal Served :=
  r.map fun (body, session) => ⟨body, session, s⟩

/-- The staged holon with the key of some properties. -/
def findStaged (session : SessionState) (properties : PropertyMap) : Except Refusal StagedReference :=
  match properties.key? with
  | none => .error (.emptyField keyProperty.text)
  | some key =>
    match session.stagedHolons.idOfKey? key with
    | none => .error (.notFound ("staged holon with key " ++ key))
    | some id => .ok (session.stagedReference id)

def run (s : Store) (embed : Bool) (session : SessionState) (order : Order) (ids : IdSource) :
    Except Refusal Served × IdSource :=
  match order with
  | .newHolon properties =>
    let id := ids.next
    let pool := session.transientHolons.insert id (.transient (.new properties))
    (.ok ⟨.reference (.transient (session.transientReference id)), { session with transientHolons := pool }, s⟩,
      ids.advance)
  | .stage holon => s.stageFresh session holon.stage ids
  | .stageTransient target =>
    match takeTransient session target with
    | .error e => (.error e, ids)
    | .ok (staged, session) => s.stageFresh session (.ok staged) ids
  | .withProperties target properties =>
    (s.answering (session.updateStaged target (·.edited (.updateProperties properties))), ids)
  | .removeProperties target named =>
    (s.answering (session.updateStaged target (·.withoutProperties named.keys)), ids)
  | .addRelated target relationship holons =>
    let keyed := holons.map fun r => (r, s.referenceKey? session r)
    (s.answering (session.updateStaged target (·.edited (.addRelated relationship keyed))), ids)
  | .removeRelated target relationship holons =>
    (s.answering (session.updateStaged target (·.edited (.removeRelated relationship holons))), ids)
  | .abandon target => (s.answering (session.updateStaged target StagedHolon.abandon), ids)
  | .commitAll => (s.commit session session.pendingIds, ids)
  | .commitOne target =>
    match session.getStaged target with
    | .error e => (.error e, ids)
    | .ok _ => (s.commit session [target.id], ids)
  | .getAll => (.ok ⟨.collection (s.allHolons embed session.txId), session, s⟩, ids)
  | .getById id => ((s.find id.localId).map fun h => ⟨.holon (.saved h), session, s⟩, ids)
  | .getStagedByKey properties =>
    ((findStaged session properties).map fun r => ⟨.reference (.staged r), session, s⟩, ids)
  | .clone source =>
    let staged := do
      source.checkTx session.txId
      let h ← s.cloneSource session source
      (← h.copy).stage
    s.stageFresh session staged ids
  | .newVersion id => s.stageVersion session id ids
  | .delete id =>
    ((s.find id).map fun _ => ⟨.none, session, { s with saved := s.saved.erase id }⟩, ids)
  | .query sources query =>
    ((session.related query.relationship sources.members).map fun members =>
      ⟨.nodes ⟨members, some query⟩, session, s⟩, ids)
  | .load content =>
    let (outcome, ids) := loadFiles session content.files ids
    (outcome.map fun (hs, session) => ⟨.holons hs, session, s⟩, ids)

end Store

end Holarchy
