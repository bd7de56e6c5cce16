import Holarchy.Proofs.Server.Changes
/-!
# The age of a holon

The ids of a store are the numbers of a counter, and no number is given twice.  So the ids tell the ages of the holons:
the store has them in the order in which they were persisted, whatever was deleted in between.
-/
namespace Holarchy

theorem Store.savedId_additions (s : Store) (hs : List StagedHolon) :
    (s.additions hs).map SavedHolon.savedId =
      (List.range' 1 hs.length).map fun n => .numbered (s.lastId + .ofNat n) := by
  rw [additions, numbered, List.map_map, List.map_map, ← List.zipIdx_map_snd 1 hs, List.map_map]
  rfl

/-- Of a list without repeated keys a sublist is the part that has its keys. -/
theorem eq_filter_of_sublist {α κ : Type} [DecidableEq κ] {key : α → κ} {part whole : List α}
    (h : part.Sublist whole) (hnodup : (whole.map key).Nodup) :
    part = whole.filter fun a => (part.map key).contains (key a) := by
  induction h with
  | slnil => rfl
  | @cons part whole a hsub ih =>
    rw [List.map_cons, List.nodup_cons] at hnodup
    have hnot : key a ∉ part.map key := fun hmem => hnodup.1 ((hsub.map key).subset hmem)
    rw [List.filter_cons_of_neg (by simpa using hnot)]
    exact ih hnodup.2
  | @cons_cons part whole a hsub ih =>
    rw [List.map_cons, List.nodup_cons] at hnodup
    rw [List.filter_cons_of_pos (by simp)]
    refine congrArg (a :: ·) ((ih hnodup.2).trans (List.filter_congr fun b hb => ?_))
    have hne : key b ≠ key a := fun heq => hnodup.1 (heq ▸ List.mem_map.2 ⟨b, hb, rfl⟩)
    rw [List.map_cons, List.contains_cons, beq_false_of_ne hne, Bool.false_or]

namespace Running

variable {x : Running} {log : List SavedHolon}

/-- What is persisted takes the numbers that follow the counter. -/
theorem savedId_persists (x : Running) (e : Event) :
    (x.persists e).map SavedHolon.savedId =
      (List.range' 1 (x.persists e).length).map fun n => .numbered (x.server.store.lastId + .ofNat n) := by
  rcases x.store_cases e with ⟨-, hnone⟩ | ⟨holon, -, hid, hone⟩ | ⟨hs, -, hmany⟩ | ⟨id, -, hnone⟩
  · rw [hnone]
    rfl
  · rw [hone, List.map_singleton, hid]
    rfl
  · rw [hmany, Store.length_additions, Store.savedId_additions]
  · rw [hnone]
    rfl

/-- **Nothing is overwritten**: what is persisted goes behind what is there, or there is a holon less. -/
theorem Recorded.entries_step (h : x.Recorded log) (e : Event)
    (hroom : log.length + (x.persists e).length < UInt64.size) :
    (x.step e).server.store.saved.entries =
        x.server.store.saved.entries ++ (x.persists e).map (fun h => (h.savedId, h)) ∨
      x.persists e = [] ∧ ∃ id, (x.step e).server.store.saved = x.server.store.saved.erase id := by
  rcases x.store_cases e with ⟨hstore, hnone⟩ | ⟨holon, hstore, hid, hone⟩ | ⟨hs, hstore, hmany⟩ |
    ⟨id, hstore, hnone⟩
  · rw [hnone, hstore]
    exact .inl (List.append_nil _).symm
  · rw [hone] at hroom ⊢
    have hroom' : x.server.store.HasRoom (0 + 1) := h.hasRoom hroom
    rw [hstore, h.follows.counted.entries_adding hroom', List.map_singleton, hid]
    exact .inl rfl
  · rw [hmany, Store.length_additions] at hroom
    rw [hstore, hmany]
    exact .inl (h.follows.counted.entries_gaining (h.hasRoom hroom))
  · exact .inr ⟨hnone, id, congrArg Store.saved hstore⟩

/-- The record in the order of its numbers, and in the store what is left of it. -/
structure Aged (x : Running) (log : List SavedHolon) : Prop where
  recorded : x.Recorded log
  numbers : log.map SavedHolon.savedId = (List.range' 1 log.length).map fun n => .numbered (.ofNat n)
  keyed : ∀ e ∈ x.server.store.saved.entries, e.1 = e.2.savedId
  left : x.server.saved.Sublist log

theorem aged_start (space : SpaceId) (ids : IdSource) : (start space ids).Aged [] :=
  ⟨recorded_start space ids, rfl, fun _ h => (by cases h), .slnil⟩

theorem Aged.step (h : x.Aged log) (e : Event) (hroom : log.length + (x.persists e).length < UInt64.size) :
    (x.step e).Aged (log ++ x.persists e) where
  recorded := h.recorded.step e hroom
  numbers := by
    have hnext : List.range' (1 + log.length) (x.persists e).length =
        (List.range' 1 (x.persists e).length).map (log.length + ·) := by
      rw [List.map_add_range', Nat.add_comm]
    rw [List.map_append, h.numbers, savedId_persists, h.recorded.counter, List.length_append,
      ← List.range'_append_1, List.map_append, hnext, List.map_map]
    simp only [Function.comp_def, UInt64.ofNat_add]
  keyed := by
    intro entry hentry
    rcases h.recorded.entries_step e hroom with hadded | ⟨-, id, herased⟩
    · rw [hadded] at hentry
      rcases List.mem_append.1 hentry with hold | hnew
      · exact h.keyed entry hold
      · obtain ⟨holon, -, rfl⟩ := List.mem_map.1 hnew
        rfl
    · rw [herased] at hentry
      exact h.keyed entry (Entries.mem_drop.1 hentry).1
  left := by
    rcases h.recorded.entries_step e hroom with hadded | ⟨hnone, id, herased⟩
    · have hvalues : (x.step e).server.saved = x.server.saved ++ x.persists e := by
        rw [Server.saved, SortedMap.values, hadded, List.map_append, List.map_map]
        exact congrArg _ (List.map_id _)
      rw [hvalues]
      exact h.left.append (.refl _)
    · have hvalues : (x.step e).server.saved.Sublist x.server.saved := by
        rw [Server.saved, herased]
        exact List.Sublist.map _ List.filter_sublist
      rw [hnone, List.append_nil]
      exact hvalues.trans h.left

theorem Aged.run {es : List Event} (h : x.Aged log) (hroom : log.length + (x.record es).length < UInt64.size) :
    (x.run es).Aged (log ++ x.record es) :=
  run_of_step (fun e h => h.step e) h hroom

/-- No id is on record twice. -/
theorem Recorded.nodup (h : x.Recorded log) : (log.map SavedHolon.savedId).Nodup :=
  List.pairwise_map.2 (h.follows.rising.imp KeyOrder.ne_of_before)

/-- **What is left of the record is in the store, in the order of the record.** -/
theorem Aged.saved_eq (h : x.Aged log) :
    x.server.saved = log.filter fun holon => x.server.store.saved.contains holon.savedId := by
  refine (eq_filter_of_sublist h.left h.recorded.nodup).trans (List.filter_congr fun holon _ => ?_)
  have hkeys : x.server.saved.map SavedHolon.savedId = x.server.store.saved.keys := by
    rw [Server.saved, SortedMap.values, SortedMap.keys, List.map_map]
    exact List.map_congr_left fun e he => (h.keyed e he).symm
  rw [hkeys, Bool.eq_iff_iff, List.contains_iff_mem, SortedMap.mem_keys_iff]
  exact Option.isSome_iff_exists.symm

/-- All holons are listed as the store has them. -/
theorem members_of_getAll {s : Server} {r : DanceRequest} {ids : IdSource} (hname : r.name = "get_all_holons")
    (hok : (s.handle r ids).1.1.status.isSuccess = true) :
    ∃ c, (s.handle r ids).1.1.body = .collection c ∧
      c.members = s.saved.map fun h =>
        .smart ⟨r.context.state.txId, .local h.savedId, if s.embedProperties then some h.properties else none⟩ := by
  obtain ⟨order, served, hready, horder, hrun⟩ := Server.isSuccess_handle_iff.1 hok
  obtain ⟨hname', -, -⟩ := DanceRequest.order_eq_ok_iff.1 horder
  have hgetAll : order = .getAll := by
    rw [hname] at hname'
    cases order <;> simp [Order.name] at hname' ⊢
  subst hgetAll
  have hhandle := Server.handle_of_runs hready horder hrun
  cases hrun
  exact ⟨_, congrArg (fun a => a.1.body) hhandle, rfl⟩

theorem record_append (x : Running) (es more : List Event) :
    x.record (es ++ more) = x.record es ++ (x.run es).record more := by
  induction es generalizing x with
  | nil => rfl
  | cons e es ih =>
    rw [List.cons_append, record, record, ih, List.append_assoc]
    rfl

/-- **Durable ids are never reused and sort by age.**  Of a server that was seeded and asked in any way, as long as it
persists fewer holons than there are numbers: the ids that it gave, in the order in which it gave them, are the numbers
from one on in eight bytes, and the counter has come to the last; so no id was given twice, whatever was deleted.  Each
holon in the store stands under its own id.  The store has what is left of all that was persisted, in that order, which
is the order of the bytes of the ids; and that is the order of an answer with all holons.  At every moment what was
persisted went behind what was there, with nothing overwritten, unless nothing was persisted and a holon was deleted. -/
theorem ids_sort_by_age (space : SpaceId) (ids : IdSource) (es : List Event)
    (hroom : ((start space ids).record es).length < UInt64.size) :
    let x := (start space ids).run es
    let log := (start space ids).record es
    log.map SavedHolon.savedId = (List.range' 1 log.length).map (fun n => ⟨Digest.Sha1.bigEndian 8 n⟩) ∧
      x.server.store.lastId.toNat = log.length ∧
      (log.map SavedHolon.savedId).Nodup ∧
      (∀ e ∈ x.server.store.saved.entries, e.1 = e.2.savedId) ∧
      (x.server.saved = log.filter fun h => x.server.store.saved.contains h.savedId) ∧
      x.server.saved.Pairwise (fun a b => a.savedId.bytes < b.savedId.bytes) ∧
      (∀ r, r.name = "get_all_holons" → (x.server.handle r x.ids).1.1.status.isSuccess = true →
        ∃ c, (x.server.handle r x.ids).1.1.body = .collection c ∧
          c.members.map Reference.holonId? = x.server.saved.map fun h => some (.local h.savedId)) ∧
      ∀ earlier e later, es = earlier ++ e :: later →
        let y := (start space ids).run earlier
        (y.step e).server.store.saved.entries =
            y.server.store.saved.entries ++ (y.persists e).map (fun h => (h.savedId, h)) ∨
          y.persists e = [] ∧ ∃ id, (y.step e).server.store.saved = y.server.store.saved.erase id := by
  intro x log
  have haged : x.Aged log := (aged_start space ids).run (by rw [List.length_nil, Nat.zero_add]; exact hroom)
  have hsmall : ∀ n ∈ List.range' 1 log.length, LocalId.numbered (.ofNat n) = ⟨Digest.Sha1.bigEndian 8 n⟩ := by
    intro n hn
    have hlt : n < UInt64.size := Nat.lt_of_lt_of_le (List.mem_range'_1.1 hn).2 (by rw [Nat.add_comm]; exact hroom)
    rw [LocalId.numbered, UInt64.toNat_ofNat_of_lt' hlt]
  refine ⟨haged.numbers.trans (List.map_congr_left hsmall), ?_, haged.recorded.nodup, haged.keyed, haged.saved_eq, ?_,
    fun r hname hok => ?_, ?_⟩
  · rw [haged.recorded.counter]
    exact UInt64.toNat_ofNat_of_lt' hroom
  · exact (haged.recorded.follows.rising.sublist haged.left).imp of_decide_eq_true
  · obtain ⟨c, hbody, hmembers⟩ := members_of_getAll hname hok
    refine ⟨c, hbody, ?_⟩
    rw [hmembers, List.map_map]
    rfl
  · rintro earlier e later rfl y
    have hlog : (start space ids).record (earlier ++ e :: later) =
        (start space ids).record earlier ++ (y.persists e ++ (y.step e).record later) := record_append _ _ _
    have hearlier : ((start space ids).record earlier).length + (y.persists e).length < UInt64.size := by
      rw [hlog, List.length_append, List.length_append, ← Nat.add_assoc] at hroom
      exact Nat.lt_of_le_of_lt (Nat.le_add_right _ _) hroom
    have hrecorded : y.Recorded ([] ++ (start space ids).record earlier) := (recorded_start space ids).run
      (by rw [List.length_nil, Nat.zero_add]; exact Nat.lt_of_le_of_lt (Nat.le_add_right _ _) hearlier)
    exact hrecorded.entries_step e hearlier

/-- A holon, then two drafts that are committed, then the deletion of the first holon, then one more. -/
def agedLibrary : List Event :=
  [.seed ∅, .handle (Server.commitDrafts .standalone), .handle (deletion (.numbered 1)), .seed ∅]

/-- The number of the holon that was deleted is not given again. -/
theorem ids_sort_by_age_in_library :
    (((start ⟨"local"⟩ (.ofPresets [])).run agedLibrary).server.saved.map SavedHolon.savedId =
        [.numbered 2, .numbered 3, .numbered 4]) ∧
      ((start ⟨"local"⟩ (.ofPresets [])).run agedLibrary).server.store.lastId.toNat = 4 := by
  obtain ⟨hnumbers, hlast, -, -, hleft, -⟩ :=
    ids_sort_by_age ⟨"local"⟩ (.ofPresets []) agedLibrary (by decide +kernel)
  refine ⟨?_, hlast.trans (by decide +kernel)⟩
  rw [hleft]
  decide +kernel

end Running

end Holarchy
