import Holarchy.Proofs.Server.Staging
import Holarchy.Proofs.SortedMap
/-!
# When staging overwrites

A pool takes whatever is put under an id, so a holon that is staged under an id in use takes the place of the one there.
Fresh ids are never in use; the id of a successor, which its key and version name, can be.
-/
namespace Holarchy

namespace SessionState

def uses (s : SessionState) (id : TemporaryId) : Bool := s.transientHolons.contains id || s.stagedHolons.contains id

theorem uses_eq_false_iff {s : SessionState} {id : TemporaryId} :
    s.uses id = false ↔ s.transientHolons.contains id = false ∧ s.stagedHolons.contains id = false :=
  Bool.or_eq_false_iff

/-- The staged pool gains one holon under an id of its own, and what was staged earlier stays as it was. -/
def GainsOne (s s' : SessionState) : Prop :=
  ∃ id h, s.uses id = false ∧ s'.stagedHolons.get? id = some (.staged h) ∧
    ∀ j, j ≠ id → s'.stagedHolons.get? j = s.stagedHolons.get? j

theorem gainsOne_gaining_iff (s : SessionState) (id : TemporaryId) (h : StagedHolon) (transient : Pool) :
    s.GainsOne (s.gaining id h transient) ↔ s.uses id = false := by
  constructor
  · rintro ⟨id', h', hfree, hget, -⟩
    rw [get?_gaining] at hget
    split at hget
    · rename_i heq
      rw [← heq, hfree]
    · have hused : s.stagedHolons.contains id' = true := Pool.contains_iff.2 ⟨_, hget⟩
      simp [uses, hused] at hfree
  · intro hfree
    refine ⟨id, h, hfree, by rw [get?_gaining, if_pos rfl], fun j hj => by rw [get?_gaining, if_neg hj]⟩

end SessionState

namespace Store

/-- The holon is a successor, and its key and version name an id in use. -/
def Collides (s : Store) (session : SessionState) (g : Staging) : Prop :=
  ∃ id t, g = .version id ∧ s.versionId? id = some t ∧ session.uses t = true

theorem uses_stagingId (s : Store) {session : SessionState} {ids : IdSource} (hfresh : session.uses ids.next = false)
    (g : Staging) : session.uses (s.stagingId g ids).1 = false ↔ ¬ s.Collides session g := by
  cases g with
  | version id =>
    simp only [stagingId, Collides, Staging.version.injEq]
    cases hv : s.versionId? id with
    | none => simp [hfresh, hv]
    | some t => simp [hv]
  | _ => simp [stagingId, Collides, hfresh]

/-- A successor starts without changes. -/
theorem promoted_version {s : Store} {session : SessionState} {id : HolonId} {staged : StagedHolon} {transient : Pool}
    (h : s.promoted session (.version id) = .ok (staged, transient)) : staged.stagedState = .forUpdate := by
  simp only [promoted, bind, Except.bind] at h
  cases hf : s.find id.localId with
  | error e => rw [hf] at h; cases h
  | ok saved => rw [hf] at h; cases h; rfl

end Store

namespace Server

/-- **Staging loses nothing, unless it stages a successor whose key and version name an id in use.**  A successor stands
under that id in any case, as one without changes: in place of what stood there. -/
theorem staging_gains_one_iff (server : Server) (r : DanceRequest) (g : Staging) (ids : IdSource)
    (hr : r.order server.space = .ok g.order) (hfresh : r.context.state.uses ids.next = false)
    (hok : (server.handle r ids).1.1.status.isSuccess = true) :
    ∃ s', (server.handle r ids).1.1.snapshot = some s' ∧
      (r.context.state.GainsOne s' ↔ ¬ server.store.Collides r.context.state g) ∧
      ∀ id t, g = .version id → server.store.versionId? id = some t →
        ∃ h, s'.stagedHolons.get? t = some (.staged h) ∧ h.stagedState = .forUpdate := by
  rcases server.handle_staging hr ids with ⟨e, server', hhandle⟩ | ⟨staged, transient, hp, hhandle⟩
  · rw [hhandle, DanceResponse.ofRefusal, Status.isSuccess_ofRefusal] at hok
    cases hok
  · rw [hhandle]
    refine ⟨_, rfl, ?_, ?_⟩
    · rw [SessionState.gainsOne_gaining_iff, server.store.uses_stagingId hfresh]
    · rintro id t rfl ht
      have hid : (server.store.stagingId (.version id) ids).1 = t := by simp only [Store.stagingId, ht]
      refine ⟨staged, ?_, Store.promoted_version hp⟩
      rw [hid, SessionState.get?_gaining, if_pos rfl]

/-- A server with one persisted holon, under the key `book`. -/
def withBook : Server := ((new ⟨"local"⟩).seed (.ofValues [(keyProperty, .string "book")])).1

def succeedBook (s : SessionState) : DanceRequest :=
  .new "stage_new_version" (.newVersion (.local (.numbered 1))) .none ⟨"local"⟩ s

def sessionAfter (server : Server) (r : DanceRequest) : SessionState :=
  ((server.handle r (.ofPresets [])).1.1.snapshot).getD r.context.state

theorem staging_gains_one_iff_of_first_successor :
    ∃ s', (withBook.handle (succeedBook (.new ⟨1⟩)) (.ofPresets [])).1.1.snapshot = some s' ∧
      (SessionState.new ⟨1⟩).GainsOne s' := by
  obtain ⟨s', hs', hgains, -⟩ := staging_gains_one_iff withBook (succeedBook (.new ⟨1⟩))
    (.version (.local (.numbered 1))) (.ofPresets []) rfl (by decide +kernel) (by decide +kernel)
  refine ⟨s', hs', hgains.2 ?_⟩
  rintro ⟨id, t, -, -, hused⟩
  cases hused

/-- The session in which a successor of the book has been staged and then given a title. -/
def titled : SessionState :=
  let staged := withBook.sessionAfter (succeedBook (.new ⟨1⟩))
  let target := staged.stagedReference (.ofKey (versionedKey "book" 2))
  withBook.sessionAfter (.new "with_properties" (.command target)
    (.parameterValues (.ofValues [(⟨"title"⟩, .string "Holons")])) ⟨"local"⟩ staged)

def titles (s : SessionState) : List (Option Value) :=
  s.stagedHolons.holons.values.map fun h => h.properties.value? ⟨"title"⟩

/-- A second successor of the book takes the place of the first, and the title is gone. -/
theorem second_successor_discards_the_first :
    (succeedBook titled).order withBook.space = .ok (Staging.version (.local (.numbered 1))).order ∧
      titled.checkInvariants.isOk = true ∧ titled.uses (IdSource.ofPresets []).next = false ∧
      titles titled = [some (.string "Holons")] ∧
      ∃ s', (withBook.handle (succeedBook titled) (.ofPresets [])).1.1.snapshot = some s' ∧
        titles s' = [none] ∧ ¬ titled.GainsOne s' := by
  refine ⟨rfl, by decide +kernel, by decide +kernel, by decide +kernel, withBook.sessionAfter (succeedBook titled),
    by decide +kernel, by decide +kernel, ?_⟩
  rintro ⟨id, h, hfree, hget, -⟩
  have hkeys : (withBook.sessionAfter (succeedBook titled)).stagedHolons.holons.keys =
      titled.stagedHolons.holons.keys := by decide +kernel
  have hmem : id ∈ titled.stagedHolons.holons.keys := hkeys ▸ SortedMap.mem_keys_iff.2 ⟨_, hget⟩
  have hused : titled.stagedHolons.contains id = true := Pool.contains_iff.2 (SortedMap.mem_keys_iff.1 hmem)
  simp [SessionState.uses, hused] at hfree

end Server

end Holarchy
