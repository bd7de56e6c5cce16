import Holarchy.SortedMap
/-!
# Maps and their entries

A map is what its entries make of the empty one, and its keys are what can be looked up in it.
-/
namespace Holarchy

variable {β κ : Type}

theorem KeyOrder.ne_of_before [KeyOrder κ] {a b : κ} (h : before a b = true) : a ≠ b := by
  rintro rfl
  rw [irrefl] at h
  cases h

theorem KeyOrder.before_of_not_before [KeyOrder κ] {a b c : κ} (h : before b a = false) (h' : before b c = true) :
    before a c = true := by
  cases hab : before a b with
  | true => exact trans hab h'
  | false => rwa [connected hab h]

namespace Entries

open KeyOrder (before)

theorem put_of_forall_before [KeyOrder κ] {k : κ} {v : β} : ∀ {m : List (κ × β)},
    (∀ e ∈ m, before e.1 k = true) → put k v m = m ++ [(k, v)]
  | [], _ => rfl
  | (k', v') :: m, h => by
    have hk : before k' k = true := h _ List.mem_cons_self
    simp only [put, KeyOrder.asymm hk, Bool.false_eq_true, if_false, hk, if_true, List.cons_append]
    rw [put_of_forall_before fun e he => h e (List.mem_cons_of_mem _ he)]

end Entries

namespace SortedMap

theorem entries_insertMany [KeyOrder κ] : ∀ {es : List (κ × β)} {m : SortedMap κ β},
    Entries.Rising (m.entries ++ es) → (m.insertMany es).entries = m.entries ++ es
  | [], m, _ => (List.append_nil _).symm
  | (k, v) :: es, m, h => by
    have hk : ∀ e ∈ m.entries, KeyOrder.before e.1 k = true := fun e he =>
      (List.pairwise_append.1 h).2.2 e he _ List.mem_cons_self
    have hm : (m.insert k v).entries = m.entries ++ [(k, v)] := Entries.put_of_forall_before hk
    have hr : Entries.Rising ((m.insert k v).entries ++ es) := by rw [hm]; simpa using h
    show ((m.insert k v).insertMany es).entries = _
    rw [entries_insertMany hr, hm]
    simp

/-- **A map is what its entries make of the empty one.** -/
theorem insertMany_entries [KeyOrder κ] (m : SortedMap κ β) : insertMany ∅ m.entries = m :=
  ext_entries (entries_insertMany m.rising)

/-- Writing what a map holds already changes nothing. -/
theorem insert_of_get? [KeyOrder κ] [DecidableEq κ] {m : SortedMap κ β} {k : κ} {v : β} (h : m.get? k = some v) :
    m.insert k v = m :=
  ext_get? fun j => by
    rw [get?_insert]
    split
    · subst j
      exact h.symm
    · rfl

theorem get?_insertMany_of_forall [KeyOrder κ] [DecidableEq κ] {es : List (κ × β)} {m : SortedMap κ β} {k : κ}
    (h : ∀ e ∈ es, e.1 ≠ k) : (m.insertMany es).get? k = m.get? k := by
  induction es generalizing m with
  | nil => rfl
  | cons e es ih =>
    have hrest := ih (m := m.insert e.1 e.2) fun e he => h e (List.mem_cons_of_mem _ he)
    rw [get?_insert, if_neg (Ne.symm (h e List.mem_cons_self))] at hrest
    exact hrest

theorem get?_insertMany_of_nodup [KeyOrder κ] [DecidableEq κ] {es : List (κ × β)} {m : SortedMap κ β} {k : κ} {v : β}
    (hnodup : (es.map Prod.fst).Nodup) (h : (k, v) ∈ es) : (m.insertMany es).get? k = some v := by
  induction es generalizing m with
  | nil => cases h
  | cons e es ih =>
    rw [List.map_cons, List.nodup_cons] at hnodup
    rcases List.mem_cons.1 h with rfl | h
    · have hrest : ∀ e ∈ es, e.1 ≠ k := by
        rintro e he rfl
        exact hnodup.1 (List.mem_map.2 ⟨e, he, rfl⟩)
      refine (get?_insertMany_of_forall (m := m.insert k v) hrest).trans ?_
      rw [get?_insert, if_pos rfl]
    · exact ih hnodup.2 h

/-- **Entries in any order** make the same map. -/
theorem insertMany_of_perm [KeyOrder κ] [DecidableEq κ] {es : List (κ × β)} {m : SortedMap κ β}
    (h : es.Perm m.entries) : insertMany ∅ es = m := by
  have hnodup : (es.map Prod.fst).Nodup :=
    (h.map Prod.fst).nodup_iff.2 (List.pairwise_map.2 (m.rising.imp KeyOrder.ne_of_before))
  refine ext_get? fun k => Option.ext fun v => ?_
  by_cases hk : k ∈ es.map Prod.fst
  · obtain ⟨⟨_, w⟩, hw, rfl⟩ := List.mem_map.1 hk
    rw [get?_insertMany_of_nodup hnodup hw, get?_eq_some_iff.2 (h.mem_iff.1 hw)]
  · have hnone : ∀ e ∈ es, e.1 ≠ k := fun e he hek => hk (hek ▸ List.mem_map_of_mem he)
    rw [get?_insertMany_of_forall hnone, get?_empty]
    exact ⟨nofun, fun hv => absurd rfl (hnone _ (h.mem_iff.2 (get?_eq_some_iff.1 hv)))⟩

theorem get?_filter_eq_some_iff [KeyOrder κ] {m : SortedMap κ β} {keep : κ → β → Bool} {k : κ} {v : β} :
    (m.filter keep).get? k = some v ↔ m.get? k = some v ∧ keep k v = true := by
  rw [get?_eq_some_iff, get?_eq_some_iff]
  exact List.mem_filter

theorem get?_mapValues {γ : Type} [KeyOrder κ] (m : SortedMap κ β) (f : β → γ) (k : κ) :
    (m.mapValues f).get? k = (m.get? k).map f := by
  apply Option.ext
  intro w
  simp only [Option.map_eq_some_iff, get?_eq_some_iff, mapValues, List.mem_map, Prod.mk.injEq]
  constructor
  · rintro ⟨⟨_, v⟩, h, rfl, rfl⟩
    exact ⟨v, h, rfl⟩
  · rintro ⟨v, h, rfl⟩
    exact ⟨(k, v), h, rfl, rfl⟩

theorem mem_keys_iff [KeyOrder κ] {m : SortedMap κ β} {k : κ} : k ∈ m.keys ↔ ∃ v, m.get? k = some v := by
  simp only [keys, List.mem_map, get?_eq_some_iff]
  constructor
  · rintro ⟨⟨_, v⟩, h, rfl⟩
    exact ⟨v, h⟩
  · rintro ⟨v, h⟩
    exact ⟨(k, v), h, rfl⟩

theorem mem_keys_insertMany_iff [KeyOrder κ] [DecidableEq κ] {es : List (κ × β)} {m : SortedMap κ β} {k : κ} :
    k ∈ (m.insertMany es).keys ↔ k ∈ m.keys ∨ k ∈ es.map Prod.fst := by
  induction es generalizing m with
  | nil => simp [insertMany]
  | cons e es ih =>
    have hinsert : k ∈ (m.insert e.1 e.2).keys ↔ k = e.1 ∨ k ∈ m.keys := by
      rw [mem_keys_iff, mem_keys_iff, get?_insert]
      by_cases hk : k = e.1 <;> simp [hk]
    show k ∈ ((m.insert e.1 e.2).insertMany es).keys ↔ _
    rw [ih, hinsert, List.map_cons, List.mem_cons, or_comm (a := k = e.1), or_assoc]

/-- **The first value with a property** stands under the first key whose value has it. -/
theorem find?_values_eq_some_iff [KeyOrder κ] {m : SortedMap κ β} {has : β → Bool} {v : β} :
    m.values.find? has = some v ↔
      ∃ k, m.get? k = some v ∧ has v = true ∧ ∀ j w, KeyOrder.before j k = true → m.get? j = some w → has w = false := by
  rw [values, List.find?_map, Option.map_eq_some_iff]
  constructor
  · rintro ⟨⟨k, w⟩, hfind, rfl⟩
    obtain ⟨hhas, front, back, hsplit, hfront⟩ := List.find?_eq_some_iff_append.1 hfind
    have hmem {j : κ} {w' : β} (hw : m.get? j = some w') : (j, w') ∈ front ++ (k, w) :: back :=
      hsplit ▸ get?_eq_some_iff.1 hw
    refine ⟨k, get?_eq_some_iff.2 (hsplit ▸ List.mem_append_right _ List.mem_cons_self), hhas, fun j w' hj hw => ?_⟩
    rcases List.mem_append.1 (hmem hw) with hin | hin
    · simpa using hfront _ hin
    · -- What stands from the found entry on has no earlier key.
      have hrising : Entries.Rising ((k, w) :: back) := (List.pairwise_append.1 (hsplit ▸ m.rising)).2.1
      rcases List.mem_cons.1 hin with hsame | hback
      · cases hsame
        exact absurd rfl (KeyOrder.ne_of_before hj)
      · have hlater := (List.pairwise_cons.1 hrising).1 _ hback
        rw [KeyOrder.asymm hj] at hlater
        cases hlater
  · rintro ⟨k, hget, hhas, hfirst⟩
    obtain ⟨front, back, hsplit⟩ := List.append_of_mem (get?_eq_some_iff.1 hget)
    refine ⟨(k, v), List.find?_eq_some_iff_append.2 ⟨hhas, front, back, hsplit, fun e he => ?_⟩, rfl⟩
    have hearlier : KeyOrder.before e.1 k = true :=
      (List.pairwise_append.1 (hsplit ▸ m.rising)).2.2 e he (k, v) List.mem_cons_self
    have hget' : m.get? e.1 = some e.2 := get?_eq_some_iff.2 (hsplit ▸ List.mem_append_left _ he)
    simp [hfirst e.1 e.2 hearlier hget']

theorem find?_values_eq_none_iff [KeyOrder κ] {m : SortedMap κ β} {has : β → Bool} :
    m.values.find? has = none ↔ ∀ k v, m.get? k = some v → has v = false := by
  simp only [List.find?_eq_none, values, List.mem_map, get?_eq_some_iff, Bool.not_eq_true]
  constructor
  · exact fun h k v hmem => h v ⟨(k, v), hmem, rfl⟩
  · rintro h v ⟨⟨k, _⟩, hmem, rfl⟩
    exact h k _ hmem

end SortedMap

end Holarchy
