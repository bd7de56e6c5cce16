import Holarchy.Proofs.Reconciliation
import Holarchy.Proofs.Server.Changes
/-!
# What is read of a store

A read that finds something gives it and leaves everything as it was.  A holon that is read by its id has that id, since
every holon stands under its own; and a list of all holons tells of each of them once, with its properties or as a
placeholder, as long as no transient holon of the session succeeds a persisted one.
-/
namespace Holarchy

namespace Store

/-- Every holon stands under its own id. -/
def Filed (s : Store) : Prop := ∀ id h, s.saved.get? id = some h → h.savedId = id

variable {s : Store}

theorem filed_empty : empty.Filed := fun id h hget => by cases hget

theorem Filed.adding (hs : s.Filed) {h : SavedHolon} (hid : h.savedId = s.nextId) : (s.adding h).Filed := by
  intro id h' hget
  rw [Store.adding, SortedMap.get?_insert] at hget
  split at hget
  · rename_i hsame
    cases hget
    rw [hid, hsame]
  · exact hs id h' hget

theorem Filed.gaining (hs : s.Filed) (hs' : List StagedHolon) : (s.gaining hs').Filed := by
  induction hs' generalizing s with
  | nil =>
    rw [gaining_nil]
    exact hs
  | cons h hs' ih =>
    rw [gaining_cons]
    exact ih (hs.adding rfl)

theorem Filed.erasing (hs : s.Filed) (id : LocalId) : Filed { s with saved := s.saved.erase id } := by
  intro j h hget
  have hget' : (s.saved.erase id).get? j = some h := hget
  rw [SortedMap.get?_erase] at hget'
  split at hget'
  · cases hget'
  · exact hs j h hget'

/-- What a store has can be read back by its id. -/
theorem Filed.get?_of_mem (hs : s.Filed) {h : SavedHolon} (hmem : h ∈ s.saved.values) :
    s.saved.get? h.savedId = some h := by
  obtain ⟨⟨id, _⟩, hentry, rfl⟩ := List.mem_map.1 hmem
  have hget := SortedMap.get?_eq_some_iff.2 hentry
  rw [hs id _ hget]
  exact hget

/-- What stands in the place of a holon once these ids have been read. -/
def filling (s : Store) (ids : List LocalId) (g : SavedHolon) : SavedHolon :=
  if g.savedId ∈ ids then (s.saved.get? g.savedId).getD g else g

theorem Filed.filling_cons (hs : s.Filed) {id : LocalId} {h : SavedHolon} (hget : s.saved.get? id = some h)
    (rest : List LocalId) (g : SavedHolon) :
    s.filling rest (if g.savedId = id then h else g) = s.filling (id :: rest) g := by
  have hid := hs id h hget
  by_cases hg : g.savedId = id
  · have hread : s.filling rest h = h := by
      unfold filling
      rw [hid, hget]
      simp
    rw [if_pos hg, hread, filling, hg, if_pos List.mem_cons_self, hget]
    rfl
  · simp [filling, hg]

/-- The places of all holons filled. -/
theorem Filed.map_filling (hs : s.Filed) :
    (s.saved.values.map fun h => SavedHolon.placeholder h.savedId).map (s.filling (s.saved.values.map (·.savedId))) =
      s.saved.values := by
  have hfilled : ∀ h ∈ s.saved.values, s.filling (s.saved.values.map (·.savedId)) (.placeholder h.savedId) = h := by
    intro h hmem
    have hin : h.savedId ∈ s.saved.values.map (·.savedId) := List.mem_map_of_mem hmem
    have hid : (SavedHolon.placeholder h.savedId).savedId = h.savedId := rfl
    rw [filling, hid, if_pos hin, hs.get?_of_mem hmem]
    rfl
  calc
    _ = s.saved.values.map fun h => s.filling (s.saved.values.map (·.savedId)) (.placeholder h.savedId) := List.map_map
    _ = s.saved.values.map id := List.map_congr_left hfilled
    _ = s.saved.values := List.map_id _

end Store

namespace Running

variable {x : Running}

theorem filed_step (h : x.server.store.Filed) (e : Event) : (x.step e).server.store.Filed := by
  rcases x.store_cases e with ⟨hstore, -⟩ | ⟨holon, hstore, hid, -⟩ | ⟨hs, hstore, -⟩ | ⟨id, hstore, -⟩
  · rw [hstore]
    exact h
  · rw [hstore]
    exact h.adding hid
  · rw [hstore]
    exact h.gaining hs
  · rw [hstore]
    exact h.erasing id

/-- **Whatever happens to a server, its holons stand under their own ids.** -/
theorem filed_run (h : x.server.store.Filed) (es : List Event) : (x.run es).server.store.Filed := by
  induction es generalizing x with
  | nil => exact h
  | cons e es ih => exact ih (filed_step h e)

end Running

namespace SessionState

/-- No transient holon succeeds a persisted one. -/
def Original (s : SessionState) : Prop := ∀ id h, s.transientHolons.get? id = some h → h.predecessorId = none

end SessionState

namespace Store

variable {s : Store} {embed : Bool} {session : SessionState} {ids ids' : IdSource} {order : Order} {served : Served}

theorem Gives.original (h : s.Gives embed session ids order served ids') (horiginal : session.Original) :
    served.session.Original := by
  intro id holon hget
  rcases h.transient with hsame | ⟨properties, -, -, hinsert⟩ | ⟨target, -, hremove⟩
  · rw [hsame] at hget
    exact horiginal id holon hget
  · rw [hinsert, Pool.get?_insert] at hget
    split at hget
    · cases hget
      rfl
    · exact horiginal id holon hget
  · rw [hremove, Pool.get?_remove] at hget
    split at hget
    · cases hget
    · exact horiginal id holon hget

theorem run_of_reading {body : ResponseBody} (h : s.reading? embed session order = some (.ok body)) :
    s.run embed session order ids = (.ok ⟨body, session, s⟩, ids) := by
  have hmap {β : Type} {outcome : Except Refusal β} {f : β → ResponseBody} (hbody : outcome.map f = .ok body) :
      outcome.map (fun b => (⟨f b, session, s⟩ : Served)) = .ok ⟨body, session, s⟩ := by
    obtain ⟨b, hb, rfl⟩ := exists_of_map_eq_ok hbody
    rw [hb]
    rfl
  cases order with
  | getAll =>
    cases h
    rfl
  | getById | getStagedByKey | query => rw [run, hmap (Option.some.inj h)]
  | _ => cases h

end Store

theorem Server.handle_of_reading {s : Server} {q : DanceRequest} {order : Order} {body : ResponseBody} (ids : IdSource)
    (hready : s.failNext = none) (horder : q.order s.space = .ok order)
    (hreading : s.store.reading? s.embedProperties q.context.state order = some (.ok body)) :
    s.handle q ids = ((.ok s.space body q.context.state, s), ids) := by
  unfold handle
  split
  · rename_i e hfail
    rw [hready] at hfail
    cases hfail
  · simp only [horder, Store.run_of_reading hreading]

/-- A holon as it is read where its reference carries the properties. -/
def SavedHolon.embedded (h : SavedHolon) : SavedHolon := .fetched h.savedId h.properties none 1

namespace Findings

variable {session : SessionState}

/-- What is told by a list of all holons that has their properties. -/
theorem ofBody_embedded (s : Store) (session : SessionState) :
    ofBody session (.collection (s.allHolons true session.txId)) =
      ⟨[], s.saved.values.map SavedHolon.embedded, []⟩ := by
  have hreads : List.Forall₂ (Reads session.transientHolons) (s.allHolons true session.txId).members
      (s.saved.values.map fun h => .content h.embedded) := by
    refine List.forall₂_map_left_iff.2 (List.forall₂_map_right_iff.2 (List.forall₂_same.2 fun h _ => ?_))
    exact .cached rfl
  rw [ofBody, concat_ofMember hreads, List.filterMap_map, List.filterMap_map]
  simp [Function.comp_def, Reading.fetched?, Reading.missing?]

/-- What is told by a list without them, as no transient holon has them either. -/
theorem ofBody_bare (s : Store) (horiginal : session.Original) :
    ofBody session (.collection (s.allHolons false session.txId)) =
      ⟨[], s.saved.values.map fun h => .placeholder h.savedId, s.saved.values.map (·.savedId)⟩ := by
  have hreads : List.Forall₂ (Reads session.transientHolons) (s.allHolons false session.txId).members
      (s.saved.values.map fun h => .missing h.savedId) := by
    refine List.forall₂_map_left_iff.2 (List.forall₂_map_right_iff.2 (List.forall₂_same.2 fun h _ => ?_))
    refine .missed rfl fun id holon hsucceeds => ?_
    have hnone := horiginal id holon hsucceeds.1
    rw [hsucceeds.2] at hnone
    cases hnone
  rw [ofBody, concat_ofMember hreads, List.filterMap_map, List.filterMap_map]
  simp [Function.comp_def, Reading.fetched?, Reading.missing?]

end Findings

end Holarchy
