import Holarchy.Proofs.Server.Reading
/-!
# What a staging stages

All four stagings promote a transient holon: the one that is given, the one in the pool, a copy, or a new version.  What
a holon keeps on the way differs, and where it comes from; what has just been staged is told by its version, what it
succeeds, and its content.
-/
namespace Holarchy

/-- A holon that has just been staged: its state follows from what it succeeds, its collections have the members they
had under the keys they had, and no error is on record. -/
structure StagedHolon.JustStaged (staged : StagedHolon) (version : UInt64) (predecessor : Option LocalId)
    (properties : PropertyMap) (relationships : RelationshipMap) : Prop where
  version : staged.version = version
  predecessorId : staged.predecessorId = predecessor
  stagedState : staged.stagedState = if predecessor.isSome then .forUpdate else .forCreate
  properties : staged.properties = properties
  related : ∀ name, staged.relationships.get? name = (relationships.get? name).map fun c => { c with state := .staged }
  holonState : staged.holonState = .mutable
  errors : staged.errors = []

variable {staged : StagedHolon}

theorem TransientHolon.justStaged {h : TransientHolon} (hstage : h.stage = .ok staged) :
    staged.JustStaged h.version h.predecessorId h.properties h.relationships := by
  unfold stage at hstage
  split at hstage <;> cases hstage
  exact {
    version := rfl
    predecessorId := rfl
    stagedState := rfl
    properties := rfl
    related := fun name => SortedMap.get?_mapValues h.relationships _ name
    holonState := rfl
    errors := rfl }

/-- A copy is staged as new, with the members of the holon that it is a copy of. -/
theorem Holon.justStaged_of_copy {h : Holon} {copy : TransientHolon} (hcopy : h.copy = .ok copy)
    (hstage : copy.stage = .ok staged) : staged.JustStaged 1 none h.properties h.relationships := by
  have hstaged := TransientHolon.justStaged hstage
  unfold Holon.copy at hcopy
  split at hcopy <;> cases hcopy
  refine { hstaged with related := fun name => ?_ }
  have hmoved := hstaged.related name
  rw [RelationshipMap.withState, SortedMap.get?_mapValues, Option.map_map] at hmoved
  exact hmoved

theorem SavedHolon.justStaged_of_newVersion {h : SavedHolon} (hstage : h.newVersion.stage = .ok staged) :
    staged.JustStaged 1 (some h.savedId) h.properties ∅ := TransientHolon.justStaged hstage

theorem Staging.order_injective {g g' : Staging} (h : g.order = g'.order) : g = g' := by
  cases g <;> cases g' <;> cases h <;> rfl

namespace Store

variable {s : Store} {embed : Bool} {session : SessionState} {ids ids' : IdSource} {served : Served}
  {transient : Pool}

/-- The holon that a reference names, in a pool or in the store. -/
def Names (s : Store) (session : SessionState) : Reference → Holon → Prop
  | .transient r, h => session.getTransient r = .ok h
  | .staged r, h => session.getStaged r = .ok h
  | .smart r, h => ∃ saved, s.saved.get? r.holonId.localId = some saved ∧ h = .saved saved

theorem names_of_cloneSource {source : Reference} {h : Holon} (hsource : s.cloneSource session source = .ok h) :
    s.Names session source h := by
  cases source with
  | transient r => exact hsource
  | staged r => exact hsource
  | smart r =>
    obtain ⟨saved, hfind, rfl⟩ := exists_of_map_eq_ok hsource
    exact ⟨saved, find_eq_ok_iff.1 hfind, rfl⟩

theorem staged_of_holon {h : TransientHolon} (hp : s.promoted session (.holon h) = .ok (staged, transient)) :
    h.stage = .ok staged := by
  obtain ⟨_, hstage, hsame⟩ := exists_of_map_eq_ok hp
  cases hsame
  exact hstage

theorem staged_of_pooled {target : TransientReference}
    (hp : s.promoted session (.pooled target) = .ok (staged, transient)) :
    ∃ h, session.getTransient target = .ok (.transient h) ∧ h.stage = .ok staged := by
  obtain ⟨⟨_, session'⟩, htake, hsame⟩ := exists_of_map_eq_ok hp
  cases hsame
  unfold takeTransient at htake
  obtain ⟨holon, hget, htake⟩ := exists_of_bind_eq_ok htake
  obtain ⟨_, hstage, htake⟩ := exists_of_bind_eq_ok htake
  cases htake
  cases holon with
  | transient h => exact ⟨h, hget, hstage⟩
  | staged | saved => cases hstage

theorem staged_of_clone {source : Reference} (hp : s.promoted session (.clone source) = .ok (staged, transient)) :
    ∃ h, s.Names session source h ∧ staged.JustStaged 1 none h.properties h.relationships := by
  unfold promoted at hp
  obtain ⟨-, -, hp⟩ := exists_of_bind_eq_ok hp
  obtain ⟨h, hsource, hp⟩ := exists_of_bind_eq_ok hp
  obtain ⟨copy, hcopy, hp⟩ := exists_of_bind_eq_ok hp
  obtain ⟨_, hstage, hp⟩ := exists_of_bind_eq_ok hp
  cases hp
  exact ⟨h, names_of_cloneSource hsource, Holon.justStaged_of_copy hcopy hstage⟩

/-- A new version names the id that it was asked for by, as every holon of the store stands under its own. -/
theorem staged_of_version {id : HolonId} (hfiled : s.Filed)
    (hp : s.promoted session (.version id) = .ok (staged, transient)) :
    ∃ saved, s.saved.get? id.localId = some saved ∧ staged.JustStaged 1 (some id.localId) saved.properties ∅ := by
  unfold promoted at hp
  obtain ⟨saved, hfind, hp⟩ := exists_of_bind_eq_ok hp
  obtain ⟨_, hstage, hp⟩ := exists_of_bind_eq_ok hp
  cases hp
  have hget := find_eq_ok_iff.1 hfind
  have hstaged := SavedHolon.justStaged_of_newVersion hstage
  rw [hfiled _ _ hget] at hstaged
  exact ⟨saved, hget, hstaged⟩

/-- A staging gives its reference and the session with one more holon. -/
theorem Gives.of_staging {g : Staging} (h : s.Gives embed session ids g.order served ids') :
    ∃ staged transient, s.promoted session g = .ok (staged, transient) ∧
      served = ⟨.reference (.staged (session.stagedReference (s.stagingId g ids).1)),
        session.gaining (s.stagingId g ids).1 staged transient, s⟩ := by
  generalize horder : g.order = order at h
  cases h with
  | @staged g' staged transient hp =>
    cases Staging.order_injective horder
    exact ⟨staged, transient, hp, rfl⟩
  | drafted | loaded | deleted => cases g <;> cases horder
  | commanded hcommand =>
    rw [← horder, command?_staging] at hcommand
    cases hcommand
  | committed hcommitting => cases g <;> cases horder <;> cases hcommitting
  | answered hreading => cases g <;> cases horder <;> cases hreading

end Store

/-- **A holon that a session has gained can be got by its reference**, and by its key if it has one. -/
theorem SessionState.live_gaining (s : SessionState) (id : TemporaryId) (staged : StagedHolon) (transient : Pool) :
    (s.gaining id staged transient).getStaged (s.stagedReference id) = .ok (.staged staged) ∧
      ∀ key, staged.properties.key? = some key →
        (s.gaining id staged transient).stagedHolons.idOfKey? key = some id := by
  refine ⟨getStaged_eq_ok_iff.2 ⟨rfl, ?_⟩, fun key hkey => ?_⟩
  · rw [get?_gaining]
    exact if_pos rfl
  · have hkey' : (Holon.staged staged).key? = some key := hkey
    exact Pool.idOfKey?_insert_eq_some_iff.2 (by rw [if_pos hkey'])

end Holarchy
