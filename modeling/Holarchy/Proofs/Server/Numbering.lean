import Holarchy.Proofs.Ident
import Holarchy.Proofs.SortedMap
import Holarchy.Server.Store
/-!
# Numbering

A store gives its ids in the order of a counter.  As long as no id in it is after the counter, and the counter has room,
what it persists goes behind everything in it: nothing is overwritten, and the entries are in the order of persisting.
-/
namespace Holarchy

namespace StagedHolon

/-- The holon as a commit under an id leaves it. -/
def committedAs (h : StagedHolon) (id : LocalId) : StagedHolon :=
  { h with stagedState := .committed id, holonState := .immutable, relationships := h.relationships.withState .saved }

/-- The holon as a store has it after a commit under an id. -/
def savedAs (h : StagedHolon) (id : LocalId) : SavedHolon :=
  ⟨.immutable, h.validationState, id, h.version, .fetched, h.properties, h.predecessorId⟩

end StagedHolon

/-- Holons in order under the ids that follow a number. -/
def numbered (last : UInt64) (hs : List StagedHolon) : List (LocalId × StagedHolon) :=
  (hs.zipIdx 1).map fun p => (.numbered (last + .ofNat p.2), p.1)

@[simp] theorem numbered_nil (last : UInt64) : numbered last [] = [] := rfl

theorem numbered_cons (last : UInt64) (h : StagedHolon) (hs : List StagedHolon) :
    numbered last (h :: hs) = (.numbered (last + 1), h) :: numbered (last + 1) hs := by
  rw [numbered, numbered, List.zipIdx_cons, List.zipIdx_succ, List.map_cons, List.map_map]
  congr 1
  refine List.map_congr_left fun p _ => ?_
  simp only [Function.comp, UInt64.ofNat_add]
  rw [UInt64.add_comm (.ofNat p.2), ← UInt64.add_assoc]
  rfl

theorem mem_numbered {last : UInt64} {hs : List StagedHolon} {e : LocalId × StagedHolon} (h : e ∈ numbered last hs) :
    ∃ n, 0 < n ∧ n ≤ hs.length ∧ e.1 = .numbered (last + .ofNat n) := by
  simp only [numbered, List.mem_map] at h
  obtain ⟨⟨holon, n⟩, hmem, rfl⟩ := h
  obtain ⟨hpos, hlt, -⟩ := List.mem_zipIdx hmem
  exact ⟨n, hpos, Nat.le_of_lt_succ (by omega), rfl⟩

/-- No number comes twice before the counter has come around. -/
theorem nodup_numbered {last : UInt64} {hs : List StagedHolon} (hsmall : hs.length < UInt64.size) :
    ((numbered last hs).map Prod.fst).Nodup := by
  induction hs generalizing last with
  | nil => exact .nil
  | cons h hs ih =>
    rw [List.length_cons] at hsmall
    rw [numbered_cons, List.map_cons, List.nodup_cons]
    refine ⟨fun hmem => ?_, ih (Nat.lt_of_succ_lt hsmall)⟩
    obtain ⟨e, he, heq⟩ := List.mem_map.1 hmem
    obtain ⟨n, hpos, hle, hn⟩ := mem_numbered he
    have hzero : UInt64.ofNat n = 0 := UInt64.add_eq_left.1 (LocalId.numbered_inj (hn.symm.trans heq))
    have hsame : n = 0 := by
      have htoNat := congrArg UInt64.toNat hzero
      rwa [UInt64.toNat_ofNat_of_lt' (Nat.lt_of_le_of_lt hle (Nat.lt_of_succ_lt hsmall))] at htoNat
    omega

namespace Store

open KeyOrder (before)

/-- What a commit of some holons persists, in order. -/
def additions (s : Store) (hs : List StagedHolon) : List SavedHolon :=
  (numbered s.lastId hs).map fun e => e.2.savedAs e.1

/-- The store after a commit of some holons. -/
def gaining (s : Store) (hs : List StagedHolon) : Store :=
  ⟨s.saved.insertMany ((s.additions hs).map fun h => (h.savedId, h)), s.lastId + .ofNat hs.length⟩

def nextId (s : Store) : LocalId := .numbered (s.lastId + 1)

def adding (s : Store) (h : SavedHolon) : Store := ⟨s.saved.insert s.nextId h, s.lastId + 1⟩

theorem seed_eq_adding (s : Store) (properties : PropertyMap) :
    (s.seed properties).1 = s.adding (.fetched s.nextId properties none 1) := rfl

theorem additions_cons (s : Store) (h : StagedHolon) (hs : List StagedHolon) :
    s.additions (h :: hs) = h.savedAs s.nextId :: (s.adding (h.savedAs s.nextId)).additions hs := by
  rw [additions, numbered_cons]
  rfl

theorem length_additions (s : Store) (hs : List StagedHolon) : (s.additions hs).length = hs.length := by
  rw [additions, numbered, List.length_map, List.length_map, List.length_zipIdx]

theorem exists_addition (s : Store) {hs : List StagedHolon} {h : StagedHolon} (hmem : h ∈ hs) :
    ∃ id, h.savedAs id ∈ s.additions hs := by
  have hsnd : (numbered s.lastId hs).map Prod.snd = hs := by
    rw [numbered, List.map_map]
    exact List.zipIdx_map_fst 1 hs
  rw [← hsnd, List.mem_map] at hmem
  obtain ⟨e, he, rfl⟩ := hmem
  exact ⟨e.1, List.mem_map.2 ⟨e, he, rfl⟩⟩

/-- What a commit persists is in the store afterwards. -/
theorem get?_gaining (s : Store) {hs : List StagedHolon} (hsmall : hs.length < UInt64.size) {h : SavedHolon}
    (hmem : h ∈ s.additions hs) : (s.gaining hs).saved.get? h.savedId = some h := by
  refine SortedMap.get?_insertMany_of_nodup ?_ (List.mem_map.2 ⟨h, hmem, rfl⟩)
  have hids : ((s.additions hs).map fun h => (h.savedId, h)).map Prod.fst = (numbered s.lastId hs).map Prod.fst := by
    rw [additions, List.map_map, List.map_map]
    rfl
  rw [hids]
  exact nodup_numbered hsmall

theorem gaining_nil (s : Store) : s.gaining [] = s := by
  obtain ⟨saved, last⟩ := s
  simp [gaining, additions, SortedMap.insertMany]

theorem gaining_cons (s : Store) (h : StagedHolon) (hs : List StagedHolon) :
    s.gaining (h :: hs) = (s.adding (h.savedAs s.nextId)).gaining hs := by
  have hlast : s.lastId + UInt64.ofNat (hs.length + 1) = s.lastId + 1 + UInt64.ofNat hs.length := by
    rw [UInt64.ofNat_add, UInt64.add_assoc, UInt64.add_comm (.ofNat hs.length)]
    rfl
  rw [gaining, additions_cons, List.length_cons, hlast]
  rfl

/-- The counter can number this many holons more. -/
def HasRoom (s : Store) (n : Nat) : Prop := s.lastId.toNat + n < UInt64.size

instance (s : Store) (n : Nat) : Decidable (s.HasRoom n) := Nat.decLt _ _

def Covers (s : Store) (id : LocalId) : Prop := before (LocalId.numbered s.lastId) id = false

/-- The ids are all at most the counter. -/
def Counted (s : Store) : Prop := ∀ id ∈ s.saved.keys, s.Covers id

theorem counted_empty : empty.Counted := fun id h => by cases h

variable {s : Store} {n : Nat}

theorem HasRoom.toNat_gaining {hs : List StagedHolon} (h : s.HasRoom hs.length) :
    (s.gaining hs).lastId.toNat = s.lastId.toNat + hs.length := by
  have hsmall : hs.length < UInt64.size := Nat.lt_of_le_of_lt (Nat.le_add_left _ _) h
  rw [gaining, UInt64.toNat_add, UInt64.toNat_ofNat_of_lt' hsmall]
  exact Nat.mod_eq_of_lt h

theorem HasRoom.toNat_succ (h : s.HasRoom (n + 1)) : (s.lastId + 1).toNat = s.lastId.toNat + 1 := by
  have hsmall : s.lastId.toNat + 1 < UInt64.size := Nat.lt_of_le_of_lt (by omega) h
  rw [UInt64.toNat_add]
  exact Nat.mod_eq_of_lt hsmall

theorem HasRoom.adding (h : s.HasRoom (n + 1)) (holon : SavedHolon) : (s.adding holon).HasRoom n := by
  show (s.lastId + 1).toNat + n < UInt64.size
  rw [h.toNat_succ]
  exact Nat.lt_of_le_of_lt (by omega) h

theorem HasRoom.before_nextId (h : s.HasRoom (n + 1)) {id : LocalId} (hid : s.Covers id) :
    before id s.nextId = true :=
  KeyOrder.before_of_not_before hid (LocalId.before_numbered (by rw [h.toNat_succ]; exact Nat.lt_succ_self _))

/-- What the counter covered it still covers, and the id it has come to as well. -/
theorem HasRoom.covers_adding (h : s.HasRoom (n + 1)) (holon : SavedHolon) {id : LocalId}
    (hid : s.Covers id ∨ id = s.nextId) : (s.adding holon).Covers id := by
  rcases hid with hid | rfl
  · exact KeyOrder.asymm (h.before_nextId hid)
  · exact KeyOrder.irrefl _

/-- **What is persisted goes behind what is there.** -/
theorem Counted.entries_adding (h : s.Counted) (hroom : s.HasRoom (n + 1)) (holon : SavedHolon) :
    (s.adding holon).saved.entries = s.saved.entries ++ [(s.nextId, holon)] :=
  Entries.put_of_forall_before fun _ he => hroom.before_nextId (h _ (List.mem_map_of_mem he))

theorem Counted.adding (h : s.Counted) (hroom : s.HasRoom (n + 1)) (holon : SavedHolon) :
    (s.adding holon).Counted := by
  intro id hid
  rw [SortedMap.keys, h.entries_adding hroom, List.map_append, List.mem_append] at hid
  exact hroom.covers_adding holon (hid.imp (h id) List.mem_singleton.1)

theorem Counted.entries_gaining (h : s.Counted) {hs : List StagedHolon} (hroom : s.HasRoom hs.length) :
    (s.gaining hs).saved.entries = s.saved.entries ++ (s.additions hs).map fun h => (h.savedId, h) := by
  induction hs generalizing s with
  | nil => rw [gaining_nil]; exact (List.append_nil _).symm
  | cons holon hs ih =>
    rw [gaining_cons, ih (h.adding hroom _) (hroom.adding _), h.entries_adding hroom, additions_cons, List.append_assoc]
    rfl

theorem HasRoom.of_le {m : Nat} (h : s.HasRoom n) (hle : m ≤ n) : s.HasRoom m :=
  Nat.lt_of_le_of_lt (Nat.add_le_add_left hle _) h

/-- The list is a record of what was persisted: it is in the order of the ids, and the counter is not behind. -/
structure Follows (s : Store) (log : List SavedHolon) : Prop where
  counted : s.Counted
  covered : ∀ h ∈ log, s.Covers h.savedId
  rising : log.Pairwise fun a b => before a.savedId b.savedId = true

variable {log : List SavedHolon}

theorem Follows.adding (h : s.Follows log) (hroom : s.HasRoom (n + 1)) (holon : SavedHolon) :
    (s.adding holon).Follows log where
  counted := h.counted.adding hroom holon
  covered h' hmem := hroom.covers_adding holon (.inl (h.covered h' hmem))
  rising := h.rising

theorem Follows.recording (h : s.Follows log) (hroom : s.HasRoom (n + 1)) {holon : SavedHolon}
    (hid : holon.savedId = s.nextId) : (s.adding holon).Follows (log ++ [holon]) where
  counted := h.counted.adding hroom holon
  covered h' hmem := by
    refine hroom.covers_adding holon ((List.mem_append.1 hmem).imp (h.covered h') fun hlast => ?_)
    rw [List.mem_singleton.1 hlast, hid]
  rising := by
    refine List.pairwise_append.2 ⟨h.rising, List.pairwise_singleton _ _, fun a ha b hb => ?_⟩
    rw [List.mem_singleton.1 hb, hid]
    exact hroom.before_nextId (h.covered a ha)

theorem Follows.gaining (h : s.Follows log) {hs : List StagedHolon} (hroom : s.HasRoom hs.length) :
    (s.gaining hs).Follows (log ++ s.additions hs) := by
  induction hs generalizing s log with
  | nil =>
    rw [gaining_nil]
    exact (List.append_nil log).symm ▸ h
  | cons holon hs ih =>
    rw [gaining_cons, additions_cons, List.append_cons]
    exact ih (h.recording hroom rfl) (hroom.adding _)

theorem Follows.erasing (h : s.Follows log) (id : LocalId) :
    Follows { s with saved := s.saved.erase id } log where
  counted id' hid := by
    obtain ⟨holon, hget⟩ := SortedMap.mem_keys_iff.1 hid
    rw [SortedMap.get?_erase] at hget
    split at hget
    · cases hget
    · exact h.counted id' (SortedMap.mem_keys_iff.2 ⟨holon, hget⟩)
  covered := h.covered
  rising := h.rising

end Store

end Holarchy
