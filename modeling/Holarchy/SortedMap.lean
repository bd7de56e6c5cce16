/-!
# Sorted maps

A map is the list of its entries in key order, each key once.  Two maps with the same entries are therefore the same
value, and every walk over a map visits the keys in one fixed order: pools commit in that order, and texts are written
in it.  `get?_insert` and `get?_erase` say what a write does to a look-up, `ext_get?` that look-ups determine the map.
-/
namespace Holarchy

/-- A type whose values stand in one strict line. -/
class KeyOrder (κ : Type) where
  before : κ → κ → Bool
  irrefl : ∀ a, before a a = false
  trans : ∀ {a b c}, before a b = true → before b c = true → before a c = true
  connected : ∀ {a b}, before a b = false → before b a = false → a = b

namespace KeyOrder

variable {κ : Type} [KeyOrder κ]

theorem asymm {a b : κ} (h : before a b = true) : before b a = false := by
  cases hb : before b a with
  | false => rfl
  | true => have := trans h hb; rw [irrefl] at this; cases this

/-- A type that names keys one to one takes over their order. -/
@[reducible] def ofInjective {ι : Type} (key : ι → κ) (inj : ∀ {a b}, key a = key b → a = b) : KeyOrder ι where
  before a b := before (key a) (key b)
  irrefl a := irrefl (key a)
  trans := trans
  connected h h' := inj (connected h h')

/-- A decidable strict linear order gives a key order. -/
@[reducible] def ofLT {ι : Type} [LT ι] [DecidableLT ι] (irrefl : ∀ a : ι, ¬ a < a)
    (trans : ∀ {a b c : ι}, a < b → b < c → a < c) (connected : ∀ {a b : ι}, ¬ a < b → ¬ b < a → a = b) :
    KeyOrder ι where
  before a b := decide (a < b)
  irrefl a := decide_eq_false (irrefl a)
  trans h h' := decide_eq_true (trans (of_decide_eq_true h) (of_decide_eq_true h'))
  connected h h' := connected (of_decide_eq_false h) (of_decide_eq_false h')

end KeyOrder

/-- Texts stand in the order of their code points, which is that of their bytes. -/
instance : KeyOrder String :=
  KeyOrder.ofLT String.lt_irrefl String.lt_trans fun h h' => String.le_antisymm (String.not_lt.1 h') (String.not_lt.1 h)

/-- Byte strings stand in dictionary order. -/
instance : KeyOrder (List UInt8) :=
  KeyOrder.ofLT List.lt_irrefl List.lt_trans fun h h' => List.le_antisymm (List.not_lt.1 h') (List.not_lt.1 h)

instance (w : Nat) : KeyOrder (BitVec w) :=
  KeyOrder.ofLT BitVec.lt_irrefl (fun h h' => by simp only [BitVec.lt_def] at *; omega)
    fun h h' => by apply BitVec.eq_of_toNat_eq; simp only [BitVec.lt_def] at *; omega

namespace Entries

variable {κ β γ : Type} [KeyOrder κ]

open KeyOrder (before)

/-- The keys rise strictly along the list. -/
def Rising (m : List (κ × β)) : Prop := m.Pairwise fun a b => before a.1 b.1 = true

def lookup (k : κ) : List (κ × β) → Option β
  | [] => none
  | (k', v) :: m => if before k' k then lookup k m else if before k k' then none else some v

def put (k : κ) (v : β) : List (κ × β) → List (κ × β)
  | [] => [(k, v)]
  | (k', v') :: m =>
    if before k k' then (k, v) :: (k', v') :: m
    else if before k' k then (k', v') :: put k v m
    else (k, v) :: m

def drop (k : κ) (m : List (κ × β)) : List (κ × β) := m.filter fun e => before e.1 k || before k e.1

theorem Rising.cons {k : κ} {v : β} {m : List (κ × β)} (h : Rising m) (hk : ∀ e ∈ m, before k e.1 = true) :
    Rising ((k, v) :: m) := List.pairwise_cons.2 ⟨hk, h⟩

theorem mem_put {k : κ} {v : β} {m : List (κ × β)} {e : κ × β} (h : e ∈ put k v m) : e = (k, v) ∨ e ∈ m := by
  induction m with
  | nil => simp [put] at h; exact .inl h
  | cons a m ih =>
    obtain ⟨k', v'⟩ := a
    simp only [put] at h
    split at h
    · simpa using h
    · split at h
      · rcases List.mem_cons.1 h with rfl | h
        · exact .inr List.mem_cons_self
        · exact (ih h).imp_right (List.mem_cons_of_mem _)
      · rcases List.mem_cons.1 h with rfl | h
        · exact .inl rfl
        · exact .inr (List.mem_cons_of_mem _ h)

theorem Rising.put {m : List (κ × β)} (h : Rising m) (k : κ) (v : β) : Rising (put k v m) := by
  induction m with
  | nil => exact List.pairwise_singleton _ _
  | cons a m ih =>
    obtain ⟨k', v'⟩ := a
    obtain ⟨ha, hm⟩ := List.pairwise_cons.1 h
    simp only [Entries.put]
    split
    · rename_i hk
      refine h.cons fun e he => ?_
      rcases List.mem_cons.1 he with rfl | he
      · exact hk
      · exact KeyOrder.trans hk (ha e he)
    · rename_i hk
      split
      · rename_i hk'
        refine (ih hm).cons fun e he => ?_
        rcases mem_put he with rfl | he
        · exact hk'
        · exact ha e he
      · rename_i hk'
        have := KeyOrder.connected (Bool.eq_false_iff.2 hk) (Bool.eq_false_iff.2 hk')
        subst this
        exact List.Pairwise.cons ha hm

theorem Rising.drop {m : List (κ × β)} (h : Rising m) (k : κ) : Rising (drop k m) := h.filter _

theorem lookup_of_rising_tail {k k' : κ} {m : List (κ × β)} (h : ∀ e ∈ m, before k' e.1 = true)
    (hk : before k' k = false) : lookup k m = none := by
  cases m with
  | nil => rfl
  | cons e m =>
    have he := h e List.mem_cons_self
    have hek : before e.1 k = false := by
      cases hc : before e.1 k with
      | false => rfl
      | true => rw [KeyOrder.trans he hc] at hk; cases hk
    have hke : before k e.1 = true := by
      cases hc : before k e.1 with
      | true => rfl
      | false => rw [KeyOrder.connected hc hek, he] at hk; cases hk
    simp [lookup, hek, hke]

theorem lookup_put [DecidableEq κ] {m : List (κ × β)} (k j : κ) (v : β) :
    lookup j (put k v m) = if j = k then some v else lookup j m := by
  induction m with
  | nil =>
    by_cases h : j = k
    · subst h; simp [put, lookup, KeyOrder.irrefl]
    · simp only [put, lookup, h, if_false]
      split
      · rfl
      · rename_i h1
        split
        · rfl
        · rename_i h2
          exact absurd (KeyOrder.connected (Bool.eq_false_iff.2 h2) (Bool.eq_false_iff.2 h1)) h
  | cons a m ih =>
    obtain ⟨k', v'⟩ := a
    simp only [put]
    split
    · rename_i hk
      by_cases h : j = k
      · subst h; simp [lookup, KeyOrder.irrefl]
      · simp only [lookup, h, if_false]
        cases h1 : before k j with
        | true => simp
        | false =>
          have h2 : before j k = true := by
            cases hc : before j k with
            | true => rfl
            | false => exact absurd (KeyOrder.connected hc h1) h
          have h3 : before j k' = true := KeyOrder.trans h2 hk
          simp [h2, h3, KeyOrder.asymm h3]
    · rename_i hk
      split
      · rename_i hk'
        simp only [lookup]
        by_cases h : j = k
        · subst h; simp [hk', ih]
        · rw [ih, if_neg h]; simp [h]
      · rename_i hk'
        have := KeyOrder.connected (Bool.eq_false_iff.2 hk) (Bool.eq_false_iff.2 hk')
        subst this
        by_cases h : j = k
        · subst h; simp [lookup, KeyOrder.irrefl]
        · simp only [lookup, h, if_false]
          cases h1 : before k j with
          | true => simp
          | false =>
            cases h2 : before j k with
            | true => simp
            | false => exact absurd (KeyOrder.connected h2 h1) h

theorem lookup_eq_some_iff {m : List (κ × β)} (h : Rising m) {k : κ} {v : β} : lookup k m = some v ↔ (k, v) ∈ m := by
  induction m with
  | nil => simp [lookup]
  | cons a m ih =>
    obtain ⟨k', v'⟩ := a
    obtain ⟨ha, hm⟩ := List.pairwise_cons.1 h
    simp only [lookup]
    split
    · rename_i hk
      rw [ih hm]
      constructor
      · exact List.mem_cons_of_mem _
      · intro hmem
        rcases List.mem_cons.1 hmem with he | hmem
        · cases he; rw [KeyOrder.irrefl] at hk; cases hk
        · exact hmem
    · rename_i hk
      have hnot : (k, v) ∉ m := fun hmem => hk (ha _ hmem)
      split
      · rename_i hk'
        constructor
        · intro h; cases h
        · intro hmem
          rcases List.mem_cons.1 hmem with he | hmem
          · cases he; rw [KeyOrder.irrefl] at hk'; cases hk'
          · exact absurd hmem hnot
      · rename_i hk'
        have := KeyOrder.connected (Bool.eq_false_iff.2 hk) (Bool.eq_false_iff.2 hk')
        subst this
        simp [hnot, eq_comm]

theorem lookup_eq_none_of_forall {m : List (κ × β)} (h : Rising m) {k : κ} (hk : ∀ e ∈ m, e.1 ≠ k) :
    lookup k m = none := by
  cases hl : lookup k m with
  | none => rfl
  | some v => exact absurd rfl (hk _ ((lookup_eq_some_iff h).1 hl))

theorem mem_drop {m : List (κ × β)} {k : κ} {e : κ × β} : e ∈ drop k m ↔ e ∈ m ∧ e.1 ≠ k := by
  simp only [drop, List.mem_filter, Bool.or_eq_true]
  constructor
  · rintro ⟨h, hk⟩
    refine ⟨h, ?_⟩
    rintro rfl
    simp [KeyOrder.irrefl] at hk
  · rintro ⟨h, hk⟩
    refine ⟨h, ?_⟩
    cases h1 : before e.1 k with
    | true => exact .inl rfl
    | false =>
      cases h2 : before k e.1 with
      | true => exact .inr rfl
      | false => exact absurd (KeyOrder.connected h1 h2) hk

/-- Rising lists with the same look-ups are the same list. -/
theorem eq_of_lookup : ∀ {m n : List (κ × β)}, Rising m → Rising n → (∀ k, lookup k m = lookup k n) → m = n
  | [], [], _, _, _ => rfl
  | [], (k, v) :: n, _, _, h => by have := h k; simp [lookup, KeyOrder.irrefl] at this
  | (k, v) :: m, [], _, _, h => by have := h k; simp [lookup, KeyOrder.irrefl] at this
  | (k, v) :: m, (k', v') :: n, hm, hn, h => by
    obtain ⟨hkm, hm'⟩ := List.pairwise_cons.1 hm
    obtain ⟨hkn, hn'⟩ := List.pairwise_cons.1 hn
    have h1 : lookup k ((k', v') :: n) = some v := by rw [← h k]; simp [lookup, KeyOrder.irrefl]
    have h2 : lookup k' ((k, v) :: m) = some v' := by rw [h k']; simp [lookup, KeyOrder.irrefl]
    have e1 := (lookup_eq_some_iff hn).1 h1
    have e2 := (lookup_eq_some_iff hm).1 h2
    have hkk : k = k' ∧ v = v' := by
      rcases List.mem_cons.1 e1 with e | e
      · cases e; exact ⟨rfl, rfl⟩
      · rcases List.mem_cons.1 e2 with e' | e'
        · cases e'; exact ⟨rfl, rfl⟩
        · have := KeyOrder.asymm (hkn _ e)
          have h' := hkm _ e'
          simp only at this h'
          rw [h'] at this; cases this
    obtain ⟨rfl, rfl⟩ := hkk
    refine congrArg _ (eq_of_lookup hm' hn' fun j => ?_)
    have := h j
    simp only [lookup] at this
    by_cases hj : before k j = true
    · simpa [hj] using this
    · rw [lookup_of_rising_tail hkm (Bool.eq_false_iff.2 hj), lookup_of_rising_tail hkn (Bool.eq_false_iff.2 hj)]

end Entries

/-- A finite map, kept as its entries in strictly rising key order. -/
structure SortedMap (κ β : Type) [KeyOrder κ] where
  entries : List (κ × β)
  rising : Entries.Rising entries

namespace SortedMap

variable {κ β γ : Type} [KeyOrder κ]

theorem ext_entries {m n : SortedMap κ β} (h : m.entries = n.entries) : m = n := by
  cases m; cases n; cases h; rfl

instance [DecidableEq κ] [DecidableEq β] : DecidableEq (SortedMap κ β) := fun m n =>
  decidable_of_iff (m.entries = n.entries) ⟨ext_entries, fun h => h ▸ rfl⟩

def empty : SortedMap κ β := ⟨[], .nil⟩

instance : EmptyCollection (SortedMap κ β) := ⟨empty⟩
instance : Inhabited (SortedMap κ β) := ⟨empty⟩

def get? (m : SortedMap κ β) (k : κ) : Option β := Entries.lookup k m.entries

def contains (m : SortedMap κ β) (k : κ) : Bool := (m.get? k).isSome

def insert (m : SortedMap κ β) (k : κ) (v : β) : SortedMap κ β := ⟨Entries.put k v m.entries, m.rising.put k v⟩

def erase (m : SortedMap κ β) (k : κ) : SortedMap κ β := ⟨Entries.drop k m.entries, m.rising.drop k⟩

def filter (m : SortedMap κ β) (keep : κ → β → Bool) : SortedMap κ β :=
  ⟨m.entries.filter fun e => keep e.1 e.2, List.Pairwise.filter _ m.rising⟩

def mapValues (m : SortedMap κ β) (f : β → γ) : SortedMap κ γ :=
  ⟨m.entries.map fun e => (e.1, f e.2), List.pairwise_map.2 (m.rising.imp fun h => h)⟩

def keys (m : SortedMap κ β) : List κ := m.entries.map Prod.fst

def values (m : SortedMap κ β) : List β := m.entries.map Prod.snd

def size (m : SortedMap κ β) : Nat := m.entries.length

def isEmpty (m : SortedMap κ β) : Bool := m.entries.isEmpty

/-- Every entry of a list written into the map in turn, so that of two with one key the later stays. -/
def insertMany (m : SortedMap κ β) (es : List (κ × β)) : SortedMap κ β := es.foldl (fun m e => m.insert e.1 e.2) m

def ofList (es : List (κ × β)) : SortedMap κ β := insertMany ∅ es

/-- The first map with the second written over it. -/
def merge (m n : SortedMap κ β) : SortedMap κ β := m.insertMany n.entries

@[simp] theorem get?_empty (k : κ) : (∅ : SortedMap κ β).get? k = none := rfl

theorem get?_insert [DecidableEq κ] (m : SortedMap κ β) (k j : κ) (v : β) :
    (m.insert k v).get? j = if j = k then some v else m.get? j := Entries.lookup_put k j v

theorem get?_eq_some_iff {m : SortedMap κ β} {k : κ} {v : β} : m.get? k = some v ↔ (k, v) ∈ m.entries :=
  Entries.lookup_eq_some_iff m.rising

/-- Maps with the same look-ups are the same map. -/
theorem ext_get? {m n : SortedMap κ β} (h : ∀ k, m.get? k = n.get? k) : m = n :=
  ext_entries (Entries.eq_of_lookup m.rising n.rising h)

theorem get?_erase [DecidableEq κ] (m : SortedMap κ β) (k j : κ) :
    (m.erase k).get? j = if j = k then none else m.get? j := by
  split
  · subst j
    exact Entries.lookup_eq_none_of_forall (m.erase k).rising fun e he => (Entries.mem_drop.1 he).2
  · rename_i h
    apply Option.ext
    intro v
    rw [get?_eq_some_iff, get?_eq_some_iff]
    exact Entries.mem_drop.trans (and_iff_left h)

end SortedMap

end Holarchy
