import Holarchy.Pool
import Holarchy.Proofs.SortedMap
/-!
# Writes to a pool

What `insert` and `remove` do to the look-ups by id and by key, and that they keep the index sound.
-/
namespace Holarchy

theorem PropertyMap.key?_eq_some_iff {properties : PropertyMap} {key : String} :
    properties.key? = some key ↔ properties.get? keyProperty = some (some (.string key)) := by
  unfold key?
  split
  · rename_i s hs
    simp [hs]
  · rename_i hnot
    constructor
    · intro h; cases h
    · exact fun h => absurd h (hnot key)

namespace Pool

theorem key?_pooled (id : TemporaryId) (h : Holon) : (pooled id h).key? = h.key? := by cases h <;> rfl

theorem get?_insert (p : Pool) (id j : TemporaryId) (h : Holon) :
    (p.insert id h).get? j = if j = id then some (pooled id h) else p.get? j := SortedMap.get?_insert p.holons id j _

theorem get?_remove (p : Pool) (id j : TemporaryId) :
    (p.remove id).get? j = if j = id then none else p.get? j := SortedMap.get?_erase p.holons id j

theorem contains_iff {p : Pool} {id : TemporaryId} : p.contains id = true ↔ ∃ h, p.get? id = some h :=
  Option.isSome_iff_exists

theorem get?_unindexed_eq_some_iff {p : Pool} {id j : TemporaryId} {key : String} :
    (p.unindexed id).get? key = some j ↔ p.idOfKey? key = some j ∧ j ≠ id := by
  rw [unindexed, SortedMap.get?_filter_eq_some_iff, bne_iff_ne]
  rfl

theorem idOfKey?_remove_eq_some_iff {p : Pool} {id j : TemporaryId} {key : String} :
    (p.remove id).idOfKey? key = some j ↔ p.idOfKey? key = some j ∧ j ≠ id := get?_unindexed_eq_some_iff

/-- **A write takes its key, if it has one, and gives up the keys that its id had.** -/
theorem idOfKey?_insert_eq_some_iff {p : Pool} {id j : TemporaryId} {h : Holon} {key : String} :
    (p.insert id h).idOfKey? key = some j ↔
      if h.key? = some key then j = id else p.idOfKey? key = some j ∧ j ≠ id := by
  simp only [insert, idOfKey?]
  cases hk : h.key? with
  | none =>
    rw [if_neg (by simp)]
    exact get?_unindexed_eq_some_iff
  | some key' =>
    simp only [SortedMap.get?_insert, Option.some.injEq]
    by_cases heq : key = key'
    · subst heq
      simp [eq_comm]
    · rw [if_neg heq, if_neg (Ne.symm heq)]
      exact get?_unindexed_eq_some_iff

/-- There is a holon under the id, and it has the key. -/
def Carries (p : Pool) (key : String) (id : TemporaryId) : Prop := ∃ h, p.get? id = some h ∧ h.key? = some key

/-- What the index names is there and carries the key. -/
def Indexed (p : Pool) : Prop := ∀ key id, p.idOfKey? key = some id → p.Carries key id

theorem carries_insert_iff {p : Pool} {id j : TemporaryId} {h : Holon} {key : String} :
    (p.insert id h).Carries key j ↔ if j = id then h.key? = some key else p.Carries key j := by
  rw [Carries, get?_insert]
  split
  · simp only [Option.some.injEq, exists_eq_left', key?_pooled]
  · rfl

theorem carries_remove_iff {p : Pool} {id j : TemporaryId} {key : String} :
    (p.remove id).Carries key j ↔ p.Carries key j ∧ j ≠ id := by
  rw [Carries, get?_remove]
  split
  · rename_i hj
    simp [hj]
  · rename_i hj
    exact (and_iff_left hj).symm

theorem indexFault?_eq_none_iff {p : Pool} {key : String} {id : TemporaryId} :
    p.indexFault? (key, id) = none ↔ p.Carries key id := by
  unfold indexFault? Carries
  cases p.get? id with
  | none => simp
  | some h =>
    simp only [Option.some.injEq, exists_eq_left']
    split <;> simp_all

/-- **The check of the index is complete**: it passes exactly the sound ones. -/
theorem checkIndex_eq_ok_iff {p : Pool} : p.checkIndex = .ok () ↔ p.Indexed := by
  have hcheck : p.checkIndex = .ok () ↔ ∀ e ∈ p.keyedIndex.entries, p.indexFault? e = none := by
    unfold checkIndex
    split
    · rename_i e he
      constructor
      · intro h; cases h
      · intro h
        rw [List.findSome?_eq_none_iff.2 h] at he
        cases he
    · rename_i hnone
      exact ⟨fun _ => List.findSome?_eq_none_iff.1 hnone, fun _ => rfl⟩
  rw [hcheck]
  constructor
  · intro h key id hid
    exact indexFault?_eq_none_iff.1 (h _ (SortedMap.get?_eq_some_iff.1 hid))
  · rintro h ⟨key, id⟩ he
    exact indexFault?_eq_none_iff.2 (h key id (SortedMap.get?_eq_some_iff.2 he))

theorem indexed_empty : (∅ : Pool).Indexed := fun _ _ h => by cases h

theorem Indexed.insert {p : Pool} (h : p.Indexed) (id : TemporaryId) (holon : Holon) : (p.insert id holon).Indexed := by
  intro key j hj
  rw [idOfKey?_insert_eq_some_iff] at hj
  rw [carries_insert_iff]
  split at hj
  · rename_i hkey
    rw [if_pos hj]
    exact hkey
  · rw [if_neg hj.2]
    exact h key j hj.1

theorem Indexed.remove {p : Pool} (h : p.Indexed) (id : TemporaryId) : (p.remove id).Indexed := by
  intro key j hj
  rw [idOfKey?_remove_eq_some_iff] at hj
  exact carries_remove_iff.2 ⟨h key j hj.1, hj.2⟩

end Pool

end Holarchy
