import Holarchy.Proofs.Pool
import Holarchy.Server
/-!
# Staging

Four orders put one holon into the staged pool.  They differ in where the holon comes from, `Store.promoted`, and in the
id it is put under, `Store.stagingId`; the rest they share, and `Store.run_staging` says what that is.
-/
namespace Holarchy

/-- An order that puts one holon into the staged pool. -/
inductive Staging where
  | holon (h : Holon)
  | pooled (target : TransientReference)
  | clone (source : Reference)
  | version (id : HolonId)

def Staging.order : Staging → Order
  | .holon h => .stage h
  | .pooled target => .stageTransient target
  | .clone source => .clone source
  | .version id => .newVersion id

namespace SessionState

def gaining (s : SessionState) (id : TemporaryId) (h : StagedHolon) (transient : Pool) : SessionState :=
  { s with transientHolons := transient, stagedHolons := s.stagedHolons.insert id (.staged h) }

theorem get?_gaining (s : SessionState) (id j : TemporaryId) (h : StagedHolon) (transient : Pool) :
    (s.gaining id h transient).stagedHolons.get? j = if j = id then some (.staged h) else s.stagedHolons.get? j :=
  Pool.get?_insert s.stagedHolons id j (.staged h)

end SessionState

namespace Store

/-- The id that the key and the next version of a persisted holon name. -/
def versionId? (s : Store) (id : HolonId) : Option TemporaryId :=
  (s.saved.get? id.localId).bind fun h =>
    h.properties.key?.map fun key => .ofKey (versionedKey key (h.version + 1))

/-- The id under which a holon is staged, and the source of ids after it. -/
def stagingId (s : Store) (g : Staging) (ids : IdSource) : TemporaryId × IdSource :=
  match g with
  | .version id =>
    match s.versionId? id with
    | some temporaryId => (temporaryId, ids)
    | none => (ids.next, ids.advance)
  | _ => (ids.next, ids.advance)

/-- The holon that is staged, and the transient pool that this leaves. -/
def promoted (s : Store) (session : SessionState) : Staging → Except Refusal (StagedHolon × Pool)
  | .holon h => h.stage.map fun staged => (staged, session.transientHolons)
  | .pooled target => (takeTransient session target).map fun (staged, session) => (staged, session.transientHolons)
  | .clone source => do
    source.checkTx session.txId
    let h ← s.cloneSource session source
    let staged ← (← h.copy).stage
    .ok (staged, session.transientHolons)
  | .version id => do
    let h ← s.find id.localId
    let staged ← h.newVersion.stage
    .ok (staged, session.transientHolons)

theorem takeTransient_ok {session session' : SessionState} {target : TransientReference} {staged : StagedHolon}
    (h : takeTransient session target = .ok (staged, session')) :
    session' = { session with transientHolons := session'.transientHolons } := by
  unfold takeTransient at h
  cases hg : session.getTransient target with
  | error e => rw [hg] at h; cases h
  | ok holon =>
    rw [hg] at h
    simp only [bind, Except.bind] at h
    cases hs : holon.stage with
    | error e => rw [hs] at h; cases h
    | ok s => rw [hs] at h; cases h; rfl

theorem stage_newVersion (h : SavedHolon) : ∃ staged, h.newVersion.stage = .ok staged := ⟨_, rfl⟩

/-- **What staging is**: a refusal that draws no id and changes nothing, or the staged pool gains the promoted holon
under the id that it is staged under. -/
theorem run_staging (s : Store) (embed : Bool) (session : SessionState) (g : Staging) (ids : IdSource) :
    s.run embed session g.order ids =
      match s.promoted session g with
      | .error e => (.error e, ids)
      | .ok (staged, transient) =>
        (.ok ⟨.reference (.staged (session.stagedReference (s.stagingId g ids).1)),
          session.gaining (s.stagingId g ids).1 staged transient, s⟩, (s.stagingId g ids).2) := by
  cases g with
  | holon h =>
    simp only [run, Staging.order, promoted, stageFresh, stagingId]
    cases h.stage <;> rfl
  | pooled target =>
    simp only [run, Staging.order, promoted, stageFresh, stagingId]
    cases ht : takeTransient session target with
    | error e => rfl
    | ok taken =>
      obtain ⟨staged, session'⟩ := taken
      have hs := takeTransient_ok ht
      simp only [Except.map]
      rw [hs]
      rfl
  | clone source =>
    simp only [run, Staging.order, promoted, stageFresh, stagingId, bind, Except.bind]
    cases source.checkTx session.txId with
    | error e => rfl
    | ok u =>
      simp only
      cases s.cloneSource session source with
      | error e => rfl
      | ok h =>
        simp only
        cases h.copy with
        | error e => rfl
        | ok copy =>
          simp only
          cases copy.stage <;> rfl
  | version id =>
    simp only [run, Staging.order, promoted, stageVersion, stagingId, bind, Except.bind]
    cases hf : s.find id.localId with
    | error e => rfl
    | ok h =>
      obtain ⟨staged, hstaged⟩ := stage_newVersion h
      have hsaved : s.saved.get? id.localId = some h := by
        unfold find at hf
        split at hf
        · rename_i hget; cases hf; exact hget
        · cases hf
      simp only [hstaged, versionId?, hsaved, Option.bind_some]
      cases h.properties.key? <;> rfl

end Store

/-- **What a staging request is answered with**: a refusal, or the session with one more staged holon. -/
theorem Server.handle_staging (s : Server) {r : DanceRequest} {g : Staging} (hr : r.order s.space = .ok g.order)
    (ids : IdSource) :
    (∃ e s', s.handle r ids = ((.ofRefusal s.space e, s'), ids)) ∨
      ∃ staged transient, s.store.promoted r.context.state g = .ok (staged, transient) ∧
        s.handle r ids =
          ((.ok s.space (.reference (.staged (r.context.state.stagedReference (s.store.stagingId g ids).1)))
            (r.context.state.gaining (s.store.stagingId g ids).1 staged transient), s), (s.store.stagingId g ids).2) := by
  obtain ⟨space, store, failNext, delay, embed, requests⟩ := s
  cases failNext with
  | some e => exact .inl ⟨e, _, rfl⟩
  | none =>
    simp only [handle, hr, Store.run_staging]
    cases hp : store.promoted r.context.state g with
    | error e => exact .inl ⟨e, _, rfl⟩
    | ok p => exact .inr ⟨p.1, p.2, rfl, rfl⟩

end Holarchy
