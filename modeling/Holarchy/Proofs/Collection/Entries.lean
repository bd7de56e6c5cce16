import Holarchy.Proofs.Collection
import Holarchy.Proofs.SortedMap
/-!
# A collection is a list of entries

A collection that was built by adding and removing lists references in order, some of them under keys of their own; its
members and its index are the two halves of that list.  Removal takes entries out of the list, and so it moves positions
without changing what stands under a key.  Positions are kept in sixty-four bits, so all of this is about collections
whose positions fit.
-/
namespace Holarchy

namespace Collection

/-- A reference, and the key that it stands under if it has one. -/
abbrev Entry := Reference × Option String

/-- The collection that lists some entries. -/
def ofEntries (state : CollectionState) (entries : List Entry) : Collection := entries.foldl push (new state)

/-- A key of the batch is taken already or comes twice. -/
def Clashes (entries batch : List Entry) : Prop :=
  ∃ key ∈ batchKeys batch, key ∈ batchKeys entries ∨ 2 ≤ (batchKeys batch).count key

instance (entries batch : List Entry) : Decidable (Clashes entries batch) :=
  inferInstanceAs (Decidable (∃ key ∈ _, _))

/-- One of the two things that change a collection. -/
inductive Change where
  | add (batch : List Entry)
  | remove (references : List Reference)

/-- The outcome of a change and the collection after it; what is refused changes nothing. -/
def perform (c : Collection) : Change → Except Refusal Unit × Collection
  | .add batch =>
    match c.addReferences batch with
    | .ok extended => (.ok (), extended)
    | .error e => (.error e, c)
  | .remove references => (.ok (), c.removeReferences references)

def after (c : Collection) (changes : List Change) : Collection :=
  changes.foldl (fun c change => (c.perform change).2) c

/-- What a change makes of the entries: a batch goes behind them whole or not at all, and removal takes out the entries
of some references. -/
def Change.apply (entries : List Entry) : Change → List Entry
  | .add batch => if Clashes entries batch then entries else entries ++ batch
  | .remove references => entries.filter fun e => !references.contains e.1

/-- The entries of a collection that was empty, after some changes. -/
def listed (changes : List Change) : List Entry := changes.foldl Change.apply []

variable {state : CollectionState} {entries batch : List Entry} {key : String} {c : Collection}

theorem batchKeys_append (entries batch : List Entry) :
    batchKeys (entries ++ batch) = batchKeys entries ++ batchKeys batch := List.filterMap_append

theorem mem_batchKeys_iff : key ∈ batchKeys entries ↔ ∃ r, (r, some key) ∈ entries := by
  simp [batchKeys]

theorem not_clashes_iff :
    ¬ Clashes entries batch ↔ (batchKeys batch).Nodup ∧ ∀ key ∈ batchKeys batch, key ∉ batchKeys entries := by
  unfold Clashes
  rw [List.nodup_iff_count]
  constructor
  · intro h
    refine ⟨fun key => ?_, fun key hkey htaken => h ⟨key, hkey, .inl htaken⟩⟩
    by_cases hkey : key ∈ batchKeys batch
    · have honce : ¬ 2 ≤ (batchKeys batch).count key := fun htwice => h ⟨key, hkey, .inr htwice⟩
      omega
    · rw [List.count_eq_zero.2 hkey]
      exact Nat.zero_le 1
  · rintro ⟨honce, hfree⟩ ⟨key, hkey, htaken | htwice⟩
    · exact hfree key hkey htaken
    · have := honce key
      omega

/-- Entries under other keys leave what stands under a key. -/
theorem get?_foldl_push_of_not_mem (c : Collection) (h : key ∉ batchKeys entries) :
    (entries.foldl push c).keyedIndex.get? key = c.keyedIndex.get? key := by
  induction entries generalizing c with
  | nil => rfl
  | cons e entries ih =>
    obtain ⟨r, _ | k⟩ := e
    · exact ih _ h
    · have hkeys : batchKeys ((r, some k) :: entries) = k :: batchKeys entries := rfl
      rw [hkeys, List.mem_cons, not_or] at h
      rw [List.foldl_cons, ih _ h.2]
      simp only [push]
      rw [SortedMap.get?_insert, if_neg h.1]

/-- An entry that is put behind a collection stands under its key at its place. -/
theorem get?_foldl_push_of_getElem? (c : Collection) (hnodup : (batchKeys entries).Nodup) {n : Nat} {r : Reference}
    (h : entries[n]? = some (r, some key)) :
    (entries.foldl push c).keyedIndex.get? key = some (.ofNat (c.members.length + n)) := by
  induction entries generalizing c n with
  | nil => simp at h
  | cons e entries ih =>
    cases n with
    | zero =>
      simp only [List.getElem?_cons_zero, Option.some.injEq] at h
      subst h
      have hkeys : batchKeys ((r, some key) :: entries) = key :: batchKeys entries := rfl
      rw [hkeys, List.nodup_cons] at hnodup
      rw [List.foldl_cons, get?_foldl_push_of_not_mem _ hnodup.1]
      simp only [push]
      rw [SortedMap.get?_insert, if_pos rfl, Nat.add_zero]
    | succ n =>
      have hrest : (batchKeys entries).Nodup := by
        obtain ⟨r', _ | k⟩ := e
        · exact hnodup
        · exact (List.nodup_cons.1 hnodup).2
      rw [List.foldl_cons, ih (c.push e) hrest h]
      simp only [push, List.length_append, List.length_singleton]
      rw [Nat.add_assoc, Nat.add_comm 1 n]

theorem get?_ofEntries_eq_some_iff (hnodup : (batchKeys entries).Nodup) {i : UInt64} :
    (ofEntries state entries).keyedIndex.get? key = some i ↔
      ∃ n r, entries[n]? = some (r, some key) ∧ i = .ofNat n := by
  have hplace {n : Nat} {r : Reference} (h : entries[n]? = some (r, some key)) :
      (ofEntries state entries).keyedIndex.get? key = some (.ofNat n) := by
    have hpush := get?_foldl_push_of_getElem? (new state) hnodup h
    rw [new, List.length_nil, Nat.zero_add] at hpush
    exact hpush
  constructor
  · intro h
    by_cases hkey : key ∈ batchKeys entries
    · obtain ⟨r, hmem⟩ := mem_batchKeys_iff.1 hkey
      obtain ⟨n, hn⟩ := List.getElem?_of_mem hmem
      rw [hplace hn] at h
      exact ⟨n, r, hn, (Option.some.inj h).symm⟩
    · have hnone := get?_foldl_push_of_not_mem (new state) hkey
      rw [ofEntries, hnone] at h
      cases h
  · rintro ⟨n, r, hn, rfl⟩
    exact hplace hn

theorem contains_ofEntries_iff (state : CollectionState) (hnodup : (batchKeys entries).Nodup) :
    (ofEntries state entries).keyedIndex.contains key = true ↔ key ∈ batchKeys entries := by
  rw [SortedMap.contains, Option.isSome_iff_exists, mem_batchKeys_iff]
  simp only [get?_ofEntries_eq_some_iff hnodup]
  constructor
  · rintro ⟨_, n, r, hn, -⟩
    exact ⟨r, List.mem_of_getElem? hn⟩
  · rintro ⟨r, hmem⟩
    obtain ⟨n, hn⟩ := List.getElem?_of_mem hmem
    exact ⟨_, n, r, hn, rfl⟩

theorem members_ofEntries (state : CollectionState) (entries : List Entry) :
    (ofEntries state entries).members = entries.map Prod.fst := members_foldl_push (new state) entries

/-- No two keys stand at one place of a list. -/
theorem place_unique {n m : Nat} {r r' : Reference} {key' : String} (hn : entries[n]? = some (r, some key))
    (hm : entries[m]? = some (r', some key')) (h : n = m) : key = key' := by
  subst h
  rw [hn] at hm
  cases hm
  rfl

/-- A position that fits into sixty-four bits is the place that it stands for. -/
theorem toNat_place (hfits : entries.length ≤ UInt64.size) {n : Nat} {e : Entry} (h : entries[n]? = some e) :
    (UInt64.ofNat n).toNat = n := by
  obtain ⟨hlt, -⟩ := List.getElem?_eq_some_iff.1 h
  exact UInt64.toNat_ofNat_of_lt' (Nat.lt_of_lt_of_le hlt hfits)

/-- **The key at a position is that of the entry there.** -/
theorem keyAt?_ofEntries (hnodup : (batchKeys entries).Nodup) (hfits : entries.length ≤ UInt64.size) (i : UInt64) :
    (ofEntries state entries).keyAt? i = entries[i.toNat]?.bind Prod.snd := by
  have hat (key : String) : (key, i) ∈ (ofEntries state entries).keyedIndex.entries ↔
      entries[i.toNat]?.bind Prod.snd = some key := by
    rw [← SortedMap.get?_eq_some_iff, get?_ofEntries_eq_some_iff hnodup]
    constructor
    · rintro ⟨n, r, hn, rfl⟩
      rw [toNat_place hfits hn, hn]
      rfl
    · intro h
      obtain ⟨⟨r, key'⟩, hn, rfl⟩ := Option.bind_eq_some_iff.1 h
      exact ⟨i.toNat, r, hn, UInt64.ofNat_toNat.symm⟩
  unfold keyAt?
  cases hfind : (ofEntries state entries).keyedIndex.entries.find? fun e => e.2 = i with
  | none =>
    -- No key is at this position, so the entry there has none.
    cases hkey : entries[i.toNat]?.bind Prod.snd with
    | none => rfl
    | some key =>
      have hnot := List.find?_eq_none.1 hfind _ ((hat key).2 hkey)
      simp at hnot
  | some e =>
    obtain ⟨key, j⟩ := e
    have hj : j = i := by simpa using List.find?_some hfind
    subst hj
    exact ((hat key).1 (List.mem_of_find?_eq_some hfind)).symm

/-- **What stands under a key is the reference of its entry.** -/
theorem getByKey?_ofEntries (hnodup : (batchKeys entries).Nodup) (hfits : entries.length ≤ UInt64.size) (key : String) :
    (ofEntries state entries).getByKey? key = (entries.find? fun e => e.2 = some key).map Prod.fst := by
  unfold getByKey?
  cases hfind : entries.find? fun e => e.2 = some key with
  | none =>
    have hnone : (ofEntries state entries).keyedIndex.get? key = none := by
      refine Option.eq_none_iff_forall_ne_some.2 fun i hi => ?_
      obtain ⟨n, r, hn, -⟩ := (get?_ofEntries_eq_some_iff hnodup).1 hi
      have hnot := List.find?_eq_none.1 hfind _ (List.mem_of_getElem? hn)
      simp at hnot
    rw [hnone]
    rfl
  | some e =>
    obtain ⟨r, key'⟩ := e
    have hkey : key' = some key := by simpa using List.find?_some hfind
    subst hkey
    obtain ⟨n, hn⟩ := List.getElem?_of_mem (List.mem_of_find?_eq_some hfind)
    have hget : (ofEntries state entries).keyedIndex.get? key = some (.ofNat n) :=
      (get?_ofEntries_eq_some_iff hnodup).2 ⟨n, r, hn, rfl⟩
    simp only [hget, Option.bind_some, toNat_place hfits hn, members_ofEntries, List.getElem?_map, hn, Option.map_some]

theorem keyedMembers_ofEntries (hnodup : (batchKeys entries).Nodup) (hfits : entries.length ≤ UInt64.size) :
    (ofEntries state entries).keyedMembers = entries := by
  refine List.ext_getElem? fun n => ?_
  unfold keyedMembers
  rw [List.getElem?_map, List.getElem?_zipIdx, members_ofEntries, List.getElem?_map]
  cases hn : entries[n]? with
  | none => rfl
  | some e =>
    simp only [Option.map_some, Nat.zero_add, keyAt?_ofEntries hnodup hfits, toNat_place hfits hn, hn, Option.bind_some]

/-- **Removal takes entries out of the list.** -/
theorem removeReferences_ofEntries (hnodup : (batchKeys entries).Nodup) (hfits : entries.length ≤ UInt64.size)
    (references : List Reference) :
    (ofEntries state entries).removeReferences references =
      ofEntries state (entries.filter fun e => !references.contains e.1) := by
  unfold removeReferences
  rw [keyedMembers_ofEntries hnodup hfits]
  have hstate : (ofEntries state entries).state = state := state_foldl_push (new state) entries
  rw [hstate]
  rfl

theorem clash?_ofEntries_eq_none_iff (state : CollectionState) (hnodup : (batchKeys entries).Nodup) :
    clash? (ofEntries state entries).keyedIndex [] batch = none ↔ ¬ Clashes entries batch := by
  rw [clash?_eq_none_iff, not_clashes_iff]
  refine and_congr_right fun _ => forall₂_congr fun key _ => ?_
  rw [← contains_ofEntries_iff state hnodup, Bool.not_eq_true]
  exact and_iff_left List.not_mem_nil

/-- The refusal names the key at which a batch stops being free. -/
theorem clash?_eq_some {taken : SortedMap String UInt64} {seen : List String} (h : clash? taken seen batch = some key) :
    ∃ before r after, batch = before ++ (r, some key) :: after ∧ clash? taken seen before = none ∧
      (taken.contains key = true ∨ key ∈ seen ∨ key ∈ batchKeys before) := by
  fun_induction clash? taken seen batch with
  | case1 => cases h
  | case2 seen r batch ih =>
    obtain ⟨before, r', after, rfl, hnone, hwhy⟩ := ih h
    exact ⟨(r, none) :: before, r', after, rfl, hnone, hwhy⟩
  | case3 seen r k batch hclash =>
    cases h
    have hwhy : taken.contains key = true ∨ key ∈ seen := by simpa using hclash
    exact ⟨[], r, batch, rfl, rfl, hwhy.imp_right .inl⟩
  | case4 seen r k batch hclash ih =>
    obtain ⟨before, r', after, rfl, hnone, hwhy⟩ := ih h
    refine ⟨(r, some k) :: before, r', after, rfl, ?_, ?_⟩
    · rw [clash?, if_neg hclash]
      exact hnone
    · have hkeys : batchKeys ((r, some k) :: before) = k :: batchKeys before := rfl
      rw [hkeys, List.mem_cons]
      rcases hwhy with htaken | hseen | hbefore
      · exact .inl htaken
      · exact (List.mem_cons.1 hseen).elim (fun h => .inr (.inr (.inl h))) fun h => .inr (.inl h)
      · exact .inr (.inr (.inr hbefore))

/-- The batch holds a key that is taken, or comes twice in it, and this is the first: what stands before it is free. -/
def FirstClash (entries batch : List Entry) (key : String) : Prop :=
  ∃ before r after, batch = before ++ (r, some key) :: after ∧ ¬ Clashes entries before ∧
    key ∈ batchKeys (entries ++ before)

/-- **A batch goes behind the entries whole**, unless a key of it clashes. -/
theorem perform_add_of_free (hnodup : (batchKeys entries).Nodup) (hfree : ¬ Clashes entries batch) :
    (ofEntries state entries).perform (.add batch) = (.ok (), ofEntries state (entries ++ batch)) := by
  have hnone := (clash?_ofEntries_eq_none_iff state hnodup).2 hfree
  simp only [perform, addReferences, hnone]
  unfold ofEntries
  rw [List.foldl_append]

/-- **A batch with a clash is refused**, and nothing has changed. -/
theorem perform_add_of_clashes (state : CollectionState) (hnodup : (batchKeys entries).Nodup)
    (hclash : Clashes entries batch) :
    ∃ key, FirstClash entries batch key ∧
      (ofEntries state entries).perform (.add batch) = (.error (.duplicate "key" key), ofEntries state entries) := by
  cases hfound : clash? (ofEntries state entries).keyedIndex [] batch with
  | none => exact absurd hclash ((clash?_ofEntries_eq_none_iff state hnodup).1 hfound)
  | some key =>
    obtain ⟨before, r, after, hbatch, hnone, hwhy⟩ := clash?_eq_some hfound
    have htaken : key ∈ batchKeys (entries ++ before) := by
      rw [batchKeys_append, List.mem_append]
      rcases hwhy with htaken | hseen | hbefore
      · exact .inl ((contains_ofEntries_iff state hnodup).1 htaken)
      · cases hseen
      · exact .inr hbefore
    refine ⟨key, ⟨before, r, after, hbatch, (clash?_ofEntries_eq_none_iff state hnodup).1 hnone, htaken⟩, ?_⟩
    simp only [perform, addReferences, hfound]

/-- The collection lists the entries, and no key comes twice. -/
structure Lists (c : Collection) (state : CollectionState) (entries : List Entry) : Prop where
  image : c = ofEntries state entries
  distinct : (batchKeys entries).Nodup

theorem Lists.size_eq (h : c.Lists state entries) : c.size = entries.length := by
  rw [size, h.image, members_ofEntries, List.length_map]

/-- **A change does to the collection what it does to the entries.** -/
theorem Lists.step (h : c.Lists state entries) (hfits : c.size ≤ UInt64.size) (change : Change) :
    (c.perform change).2.Lists state (change.apply entries) := by
  rw [h.size_eq] at hfits
  obtain ⟨rfl, hnodup⟩ := h
  cases change with
  | add batch =>
    simp only [Change.apply]
    by_cases hclash : Clashes entries batch
    · obtain ⟨key, -, hrefused⟩ := perform_add_of_clashes state hnodup hclash
      rw [if_pos hclash, hrefused]
      exact ⟨rfl, hnodup⟩
    · obtain ⟨honce, hfree⟩ := not_clashes_iff.1 hclash
      rw [if_neg hclash, perform_add_of_free hnodup hclash]
      refine ⟨rfl, ?_⟩
      rw [batchKeys_append, List.nodup_append]
      refine ⟨hnodup, honce, fun key hkey key' hkey' heq => ?_⟩
      subst heq
      exact hfree key hkey' hkey
  | remove references =>
    refine ⟨removeReferences_ofEntries hnodup hfits references, ?_⟩
    exact hnodup.sublist (List.Sublist.filterMap _ List.filter_sublist)

/-- A collection has at no point of some changes more members than there are positions; no list in memory is that
long. -/
def Fits (c : Collection) (changes : List Change) : Prop :=
  ∀ before after, changes = before ++ after → (c.after before).size ≤ UInt64.size

/-- A batch that is taken goes behind the entries. -/
theorem Lists.add (h : c.Lists state entries) (hfits : c.size ≤ UInt64.size) {c' : Collection}
    (hadd : c.addReferences batch = .ok c') : c'.Lists state (entries ++ batch) := by
  have hfree : ¬ Clashes entries batch := by
    intro hclash
    obtain ⟨key, -, hrefused⟩ := perform_add_of_clashes state h.distinct hclash
    rw [← h.image, perform, hadd] at hrefused
    cases hrefused
  have hstep := h.step hfits (.add batch)
  rw [perform, hadd, Change.apply, if_neg hfree] at hstep
  exact hstep

theorem foldl_push_withState (c : Collection) (entries : List Entry) (state : CollectionState) :
    (entries.foldl push c).withState state = entries.foldl push (c.withState state) := by
  induction entries generalizing c with
  | nil => rfl
  | cons e entries ih => exact ih (c.push e)

/-- The entries stay the same in another state. -/
theorem Lists.withState (h : c.Lists state entries) (state' : CollectionState) :
    (c.withState state').Lists state' entries := by
  obtain ⟨rfl, hnodup⟩ := h
  exact ⟨foldl_push_withState _ _ _, hnodup⟩

theorem lists_new (state : CollectionState) : (new state).Lists state [] := ⟨rfl, .nil⟩

/-- An entry is found under its key. -/
theorem Lists.getByKey?_eq_some (h : c.Lists state entries) (hfits : entries.length ≤ UInt64.size) {r : Reference}
    (hmem : (r, some key) ∈ entries) : c.getByKey? key = some r := by
  obtain ⟨rfl, hnodup⟩ := h
  obtain ⟨n, hn⟩ := List.getElem?_of_mem hmem
  have hindex : (ofEntries state entries).keyedIndex.get? key = some (.ofNat n) :=
    (get?_ofEntries_eq_some_iff hnodup).2 ⟨n, r, hn, rfl⟩
  rw [getByKey?, hindex, Option.bind_some, toNat_place hfits hn, members_ofEntries, List.getElem?_map, hn]
  rfl

theorem Lists.run : ∀ {changes : List Change} {entries : List Entry} {c : Collection}, c.Lists state entries →
    c.Fits changes → (c.after changes).Lists state (changes.foldl Change.apply entries)
  | [], _, _, h, _ => h
  | change :: changes, entries, c, h, hfits => by
    have hnow : c.size ≤ UInt64.size := hfits [] _ rfl
    have hlater : (c.perform change).2.Fits changes := fun before after hsplit =>
      hfits (change :: before) after (by rw [hsplit]; rfl)
    exact (h.step hnow change).run hlater

/-- **A collection is a list of entries.**  A collection that was empty is, after any batches and removals, refused ones
included, the image of a list of references with keys, no key twice.  Its members are the references, a key leads to the
reference beside it and a position to the key there; what the index knows are positions within the list, never two keys
for one.  A batch is next put behind the list whole, unless a key of it is taken or comes twice: then it is refused with
the first such key, and nothing has changed.  A removal takes out the entries of the references that it names. -/
theorem collection_is_its_entries (state : CollectionState) (changes : List Change) (hfits : (new state).Fits changes) :
    let c := (new state).after changes
    let entries := listed changes
    c = ofEntries state entries ∧ (batchKeys entries).Nodup ∧ c.members = entries.map Prod.fst ∧
      (∀ key, c.getByKey? key = (entries.find? fun e => e.2 = some key).map Prod.fst) ∧
      (∀ i, c.keyAt? i = entries[i.toNat]?.bind Prod.snd) ∧
      (∀ key i, c.keyedIndex.get? key = some i →
        i.toNat < c.size ∧ ∀ key', c.keyedIndex.get? key' = some i → key' = key) ∧
      (∀ batch, ¬ Clashes entries batch → c.perform (.add batch) = (.ok (), ofEntries state (entries ++ batch))) ∧
      (∀ batch, Clashes entries batch →
        ∃ key, FirstClash entries batch key ∧ c.perform (.add batch) = (.error (.duplicate "key" key), c)) ∧
      ∀ references, c.perform (.remove references) =
        (.ok (), ofEntries state (entries.filter fun e => !references.contains e.1)) := by
  intro c entries
  have hlists : c.Lists state entries := Lists.run ⟨rfl, .nil⟩ hfits
  have hsize : entries.length ≤ UInt64.size := hlists.size_eq ▸ hfits changes [] (List.append_nil _).symm
  obtain ⟨himage, hnodup⟩ := hlists
  rw [himage]
  refine ⟨rfl, hnodup, members_ofEntries state entries, getByKey?_ofEntries hnodup hsize,
    keyAt?_ofEntries hnodup hsize, fun key i hi => ⟨?_, fun key' hi' => ?_⟩, fun batch hfree => ?_,
    fun batch hclash => ?_, fun references => ?_⟩
  · obtain ⟨n, r, hn, rfl⟩ := (get?_ofEntries_eq_some_iff hnodup).1 hi
    obtain ⟨hlt, -⟩ := List.getElem?_eq_some_iff.1 hn
    rw [toNat_place hsize hn, size, members_ofEntries, List.length_map]
    exact hlt
  · obtain ⟨n, r, hn, rfl⟩ := (get?_ofEntries_eq_some_iff hnodup).1 hi
    obtain ⟨m, r', hm, hplace⟩ := (get?_ofEntries_eq_some_iff hnodup).1 hi'
    have hsame : m = n := by rw [← toNat_place hsize hm, ← toNat_place hsize hn, hplace]
    exact place_unique hm hn hsame
  · exact perform_add_of_free hnodup hfree
  · exact perform_add_of_clashes state hnodup hclash
  · simp only [perform, removeReferences_ofEntries hnodup hsize]

def guest (n : Nat) : Reference := .staged ⟨⟨1⟩, .numbered n⟩

/-- One guest under two keys and another under none; a third whose key is taken; the second leaves and comes back. -/
def party : List Change :=
  [.add [(guest 1, some "ann"), (guest 2, none), (guest 1, some "bob")], .add [(guest 3, some "ann")],
    .remove [guest 2], .add [(guest 2, some "cy")]]

/-- The third guest is turned away, and the keys have moved up with their guest. -/
theorem collection_is_its_entries_of_party :
    ((new .pending).after party).members = [guest 1, guest 1, guest 2] ∧
      ((new .pending).after party).getByKey? "bob" = some (guest 1) ∧
      ((new .pending).after party).keyAt? 1 = some "bob" ∧
      (((new .pending).after party).perform (.add [(guest 3, some "ann")])).2 = (new .pending).after party := by
  have hfits : (new .pending).Fits party := by
    have hprefixes : ∀ n ≤ party.length, ((new .pending).after (party.take n)).size ≤ UInt64.size := by decide +kernel
    intro before after hsplit
    have hbefore : before = party.take before.length := by rw [hsplit, List.take_left]
    rw [hbefore]
    exact hprefixes _ (by rw [hsplit, List.length_append]; exact Nat.le_add_right _ _)
  obtain ⟨-, -, hmembers, hkeys, hpositions, -, -, hrefused, -⟩ := collection_is_its_entries .pending party hfits
  obtain ⟨key, -, hsame⟩ := hrefused [(guest 3, some "ann")] (by decide +kernel)
  refine ⟨hmembers.trans (by decide +kernel), (hkeys "bob").trans (by decide +kernel),
    (hpositions 1).trans (by decide +kernel), ?_⟩
  rw [hsame]

end Collection

end Holarchy
