import Holarchy.Collection
/-!
# Batches of references

A batch goes into a collection whole or not at all, and what decides is its keys alone.
-/
namespace Holarchy

namespace Collection

/-- The keys of a batch, in order. -/
def batchKeys (batch : List (Reference × Option String)) : List String := batch.filterMap Prod.snd

variable {taken : SortedMap String UInt64} {batch : List (Reference × Option String)}

theorem clash?_eq_none_iff {seen : List String} :
    clash? taken seen batch = none ↔
      (batchKeys batch).Nodup ∧ ∀ key ∈ batchKeys batch, taken.contains key = false ∧ key ∉ seen := by
  fun_induction clash? taken seen batch with
  | case1 => simp [batchKeys]
  | case2 seen r batch ih => exact ih
  | case3 seen r key batch hclash =>
    refine iff_of_false (by simp) fun ⟨_, hfree⟩ => ?_
    obtain ⟨htaken, hseen⟩ := hfree key (by simp [batchKeys])
    simp [htaken, hseen] at hclash
  | case4 seen r key batch hclash ih =>
    have hkey : taken.contains key = false ∧ key ∉ seen := by simpa using hclash
    have hkeys : batchKeys ((r, some key) :: batch) = key :: batchKeys batch := rfl
    rw [ih, hkeys, List.nodup_cons]
    constructor
    · rintro ⟨hnodup, hfree⟩
      refine ⟨⟨fun hmem => (hfree key hmem).2 List.mem_cons_self, hnodup⟩, fun k hk => ?_⟩
      rcases List.mem_cons.1 hk with rfl | hk
      · exact hkey
      · exact ⟨(hfree k hk).1, fun hmem => (hfree k hk).2 (List.mem_cons_of_mem _ hmem)⟩
    · rintro ⟨⟨hnot, hnodup⟩, hfree⟩
      refine ⟨hnodup, fun k hk => ?_⟩
      obtain ⟨htaken, hseen⟩ := hfree k (List.mem_cons_of_mem _ hk)
      refine ⟨htaken, fun hmem => ?_⟩
      rcases List.mem_cons.1 hmem with rfl | hmem
      · exact hnot hk
      · exact hseen hmem

theorem members_foldl_push (c : Collection) (batch : List (Reference × Option String)) :
    (batch.foldl push c).members = c.members ++ batch.map Prod.fst := by
  induction batch generalizing c with
  | nil => exact (List.append_nil _).symm
  | cons entry batch ih =>
    rw [List.foldl_cons, ih]
    exact List.append_assoc _ _ _

variable {c c' : Collection}

theorem addReferences_eq_ok_iff :
    c.addReferences batch = .ok c' ↔
      (batchKeys batch).Nodup ∧ (∀ key ∈ batchKeys batch, c.keyedIndex.contains key = false) ∧
        c' = batch.foldl push c := by
  have hfree : (∀ key ∈ batchKeys batch, c.keyedIndex.contains key = false ∧ key ∉ ([] : List String)) ↔
      ∀ key ∈ batchKeys batch, c.keyedIndex.contains key = false := by simp
  have hclash : clash? c.keyedIndex [] batch = none ↔
      (batchKeys batch).Nodup ∧ ∀ key ∈ batchKeys batch, c.keyedIndex.contains key = false :=
    clash?_eq_none_iff.trans (and_congr_right fun _ => hfree)
  unfold addReferences
  cases h : clash? c.keyedIndex [] batch with
  | none =>
    obtain ⟨hnodup, hfree⟩ := hclash.1 h
    exact ⟨fun hok => ⟨hnodup, hfree, (Except.ok.inj hok).symm⟩, fun ⟨_, _, hc'⟩ => congrArg Except.ok hc'.symm⟩
  | some key =>
    rw [h] at hclash
    refine iff_of_false (by simp) fun ⟨hnodup, hfree, _⟩ => ?_
    cases hclash.2 ⟨hnodup, hfree⟩

/-- The only refusal there is. -/
theorem exists_of_addReferences_eq_error {e : Refusal} (h : c.addReferences batch = .error e) :
    ∃ key, e = .duplicate "key" key := by
  unfold addReferences at h
  split at h <;> cases h
  exact ⟨_, rfl⟩

theorem members_addReferences (h : c.addReferences batch = .ok c') :
    c'.members = c.members ++ batch.map Prod.fst := by
  obtain ⟨-, -, rfl⟩ := addReferences_eq_ok_iff.1 h
  exact members_foldl_push c batch

theorem state_foldl_push (c : Collection) (batch : List (Reference × Option String)) :
    (batch.foldl push c).state = c.state := by
  induction batch generalizing c with
  | nil => rfl
  | cons entry batch ih => exact ih (c.push entry)

theorem state_addReferences (h : c.addReferences batch = .ok c') : c'.state = c.state := by
  obtain ⟨-, -, rfl⟩ := addReferences_eq_ok_iff.1 h
  exact state_foldl_push c batch

theorem state_removeReferences (c : Collection) (references : List Reference) :
    (c.removeReferences references).state = c.state := state_foldl_push _ _

theorem members_removeReferences (c : Collection) (references : List Reference) :
    (c.removeReferences references).members = c.members.filter fun r => !references.contains r := by
  have hmembers : c.keyedMembers.map Prod.fst = c.members := by
    rw [keyedMembers, List.map_map]
    exact List.zipIdx_map_fst 0 c.members
  calc (c.removeReferences references).members
      = [] ++ (c.keyedMembers.filter fun m => !references.contains m.1).map Prod.fst := members_foldl_push _ _
    _ = (c.keyedMembers.map Prod.fst).filter fun r => !references.contains r := by rw [List.filter_map]; rfl
    _ = c.members.filter fun r => !references.contains r := by rw [hmembers]

/-- An empty collection takes every batch in which no key comes twice. -/
theorem exists_addReferences_new_iff {state : CollectionState} :
    (∃ c, (new state).addReferences batch = .ok c) ↔ (batchKeys batch).Nodup := by
  simp only [addReferences_eq_ok_iff]
  exact ⟨fun ⟨_, hnodup, _⟩ => hnodup, fun hnodup => ⟨_, hnodup, fun _ _ => rfl, rfl⟩⟩

end Collection

end Holarchy
