import Holarchy.Proofs.Pool
/-!
# The index of a pool and its history

The index of a pool cannot be read off what is in it: of several holons with one key it names the one written last, and
when that one is taken out the key goes to nobody.  A `Journal` keeps the writes of a pool beside it, back to when it was
last cleared, and `index_names_the_last_writer` says what the index is in terms of both.
-/
namespace Holarchy

namespace Pool

/-- What can be done to a pool.  A holon is staged under an id that is drawn for it. -/
inductive Operation : Type 1 where
  | insert (id : TemporaryId) (h : Holon)
  | update {α : Type} (id : TemporaryId) (change : Holon → Except Refusal (Holon × α))
  | remove (id : TemporaryId)
  | stage (id : TemporaryId) (h : TransientHolon)
  | clear

/-- The outcome of an operation and the pool after it. -/
def perform (p : Pool) : Operation → Except Refusal Unit × Pool
  | .insert id h => (.ok (), p.insert id h)
  | .update id change =>
    match p.update id change with
    | .ok (after, _) => (.ok (), after)
    | .error e => (.error e, p)
  | .remove id => (.ok (), p.remove id)
  | .stage id h =>
    match p.stageHolon id h with
    | .ok after => (.ok (), after)
    | .error e => (.error e, p)
  | .clear => (.ok (), ∅)

/-- A holon that was put under an id. -/
structure Write where
  id : TemporaryId
  holon : Holon

/-- The write that an operation makes, if it makes one. -/
def write? (p : Pool) : Operation → Option Write
  | .insert id h => some ⟨id, h⟩
  | .update id change => (p.get? id).bind fun h => (change h).toOption.map fun r => ⟨id, r.1⟩
  | .stage id h => h.stage.toOption.map fun staged => ⟨id, .staged staged⟩
  | .remove _ | .clear => none

/-- The last write of a holon with the key is the last write under the id, too. -/
def LastWriter (ws : List Write) (key : String) (id : TemporaryId) : Prop :=
  ∃ before h after, ws = before ++ ⟨id, h⟩ :: after ∧ h.key? = some key ∧
    ∀ w ∈ after, w.holon.key? ≠ some key ∧ w.id ≠ id

theorem not_lastWriter_nil {key : String} {id : TemporaryId} : ¬ LastWriter [] key id := by
  rintro ⟨before, h, after, heq, -⟩
  simp at heq

/-- **One more write**: it is the last writer of its key, and of no other key is its id the last writer any more. -/
theorem lastWriter_concat_iff {ws : List Write} {w : Write} {key : String} {id : TemporaryId} :
    LastWriter (ws ++ [w]) key id ↔
      if w.holon.key? = some key then id = w.id else LastWriter ws key id ∧ id ≠ w.id := by
  constructor
  · rintro ⟨before, h, after, heq, hkey, hlast⟩
    rcases List.eq_nil_or_concat after with rfl | ⟨after', w', rfl⟩
    · obtain ⟨-, hw⟩ := List.append_inj' heq rfl
      obtain rfl : w = ⟨id, h⟩ := by simpa using hw
      rw [if_pos hkey]
    · rw [List.concat_eq_append] at heq hlast
      obtain ⟨rfl, hw⟩ := List.append_inj' (heq.trans (List.append_assoc before (_ :: after') [w']).symm) rfl
      obtain rfl : w = w' := by simpa using hw
      obtain ⟨hother, hid⟩ := hlast w (by simp)
      rw [if_neg hother]
      exact ⟨⟨before, h, after', rfl, hkey, fun v hv => hlast v (by simp [hv])⟩, Ne.symm hid⟩
  · split
    · rename_i hkey
      rintro rfl
      exact ⟨ws, w.holon, [], rfl, hkey, by simp⟩
    · rename_i hother
      rintro ⟨⟨before, h, after, rfl, hkey, hlast⟩, hid⟩
      refine ⟨before, h, after ++ [w], by simp, hkey, fun v hv => ?_⟩
      rcases List.mem_append.1 hv with hv | hv
      · exact hlast v hv
      · rw [List.mem_singleton.1 hv]
        exact ⟨hother, Ne.symm hid⟩

/-- A pool and what was written to it since it was last cleared, in order. -/
structure Journal where
  pool : Pool
  writes : List Write

namespace Journal

def start : Journal := ⟨∅, []⟩

def step (j : Journal) (op : Operation) : Journal where
  pool := (j.pool.perform op).2
  writes :=
    match op with
    | .clear => []
    | op => j.writes ++ (j.pool.write? op).toList

def run (j : Journal) (ops : List Operation) : Journal := ops.foldl step j

/-- What the writes say about the pool. -/
structure Lawful (j : Journal) : Prop where
  index : ∀ key id, j.pool.idOfKey? key = some id ↔ j.pool.Carries key id ∧ LastWriter j.writes key id
  transient : ∀ id t, j.pool.get? id = some (.transient t) → t.temporaryId = some id

theorem lawful_empty (ws : List Write) (h : ∀ key id, ¬ LastWriter ws key id) : (Journal.mk ∅ ws).Lawful where
  index key id := ⟨fun hid => (by cases hid), fun hid => absurd hid.2 (h key id)⟩
  transient id t ht := by cases ht

theorem Lawful.write {j : Journal} (h : j.Lawful) (w : Write) :
    (Journal.mk (j.pool.insert w.id w.holon) (j.writes ++ [w])).Lawful where
  index key id := by
    rw [idOfKey?_insert_eq_some_iff, lastWriter_concat_iff, carries_insert_iff]
    split
    · rename_i hkey
      constructor
      · rintro rfl
        exact ⟨by rwa [if_pos rfl], rfl⟩
      · exact fun hid => hid.2
    · rw [h.index]
      constructor
      · rintro ⟨⟨hcarried, hlast⟩, hid⟩
        exact ⟨by rwa [if_neg hid], hlast, hid⟩
      · rintro ⟨hcarried, hlast, hid⟩
        rw [if_neg hid] at hcarried
        exact ⟨⟨hcarried, hlast⟩, hid⟩
  transient id t ht := by
    rw [get?_insert] at ht
    split at ht
    · rename_i hid
      obtain ⟨wid, holon⟩ := w
      cases holon with
      | transient t' => cases ht; rw [hid]
      | staged s => cases ht
      | saved s => cases ht
    · exact h.transient id t ht

theorem Lawful.remove {j : Journal} (h : j.Lawful) (id : TemporaryId) :
    (Journal.mk (j.pool.remove id) j.writes).Lawful where
  index key j' := by
    rw [idOfKey?_remove_eq_some_iff, h.index, carries_remove_iff]
    exact and_right_comm
  transient j' t ht := by
    rw [get?_remove] at ht
    split at ht
    · cases ht
    · exact h.transient j' t ht

end Journal

/-- **What an operation does**: it writes, takes out or clears, or it fails and does nothing. -/
theorem perform_cases (p : Pool) (op : Operation) :
    (∃ w, p.write? op = some w ∧ p.perform op = (.ok (), p.insert w.id w.holon) ∧ op ≠ .clear) ∨
    (∃ id, op = .remove id ∧ p.write? op = none ∧ p.perform op = (.ok (), p.remove id)) ∨
    (op = .clear ∧ p.perform op = (.ok (), ∅)) ∨
    ∃ e, p.write? op = none ∧ p.perform op = (.error e, p) ∧ op ≠ .clear := by
  cases op with
  | insert id h => exact .inl ⟨_, rfl, rfl, by simp⟩
  | update id change =>
    simp only [write?, perform, update]
    cases p.get? id with
    | none => exact .inr (.inr (.inr ⟨_, rfl, rfl, by simp⟩))
    | some h =>
      simp only [Option.bind_some]
      cases change h with
      | ok r => exact .inl ⟨_, rfl, rfl, by simp⟩
      | error e => exact .inr (.inr (.inr ⟨e, rfl, rfl, by simp⟩))
  | remove id => exact .inr (.inl ⟨id, rfl, rfl, rfl⟩)
  | stage id h =>
    simp only [write?, perform, stageHolon]
    cases h.stage with
    | ok staged => exact .inl ⟨_, rfl, rfl, by simp⟩
    | error e => exact .inr (.inr (.inr ⟨e, rfl, rfl, by simp⟩))
  | clear => exact .inr (.inr (.inl ⟨rfl, rfl⟩))

namespace Journal

theorem step_of_ne_clear {j : Journal} {op : Operation} (h : op ≠ .clear) :
    j.step op = ⟨(j.pool.perform op).2, j.writes ++ (j.pool.write? op).toList⟩ := by
  cases op with
  | clear => exact absurd rfl h
  | _ => rfl

theorem step_of_error {j : Journal} {op : Operation} {e : Refusal} (h : (j.pool.perform op).1 = .error e) :
    j.step op = j := by
  rcases j.pool.perform_cases op with ⟨w, -, hp, -⟩ | ⟨id, -, -, hp⟩ | ⟨-, hp⟩ | ⟨e', hw, hp, hop⟩
  · rw [hp] at h; cases h
  · rw [hp] at h; cases h
  · rw [hp] at h; cases h
  · rw [step_of_ne_clear hop, hw, hp, Option.toList_none, List.append_nil]

/-- **Every operation keeps the law.** -/
theorem Lawful.step {j : Journal} (h : j.Lawful) (op : Operation) : (j.step op).Lawful := by
  rcases j.pool.perform_cases op with ⟨w, hw, hp, hop⟩ | ⟨id, rfl, hw, hp⟩ | ⟨rfl, -⟩ | ⟨e, -, hp, -⟩
  · rw [step_of_ne_clear hop, hw, hp]
    exact h.write w
  · rw [step_of_ne_clear (by simp), hw, hp, Option.toList_none, List.append_nil]
    exact h.remove id
  · exact lawful_empty [] fun _ _ => not_lastWriter_nil
  · rw [step_of_error (congrArg Prod.fst hp)]
    exact h

theorem Lawful.run {j : Journal} (h : j.Lawful) (ops : List Operation) : (j.run ops).Lawful := by
  induction ops generalizing j with
  | nil => exact h
  | cons op ops ih => exact ih (h.step op)

theorem Lawful.indexed {j : Journal} (h : j.Lawful) : j.pool.Indexed := fun key id hid => ((h.index key id).1 hid).1

end Journal

/-- **The index names the last writer.**  Whatever was done to a pool that was empty at first: a key leads to an id
exactly if the holon under that id carries the key and no holon with the key, and nothing under the id, was written after
it since the pool was last cleared.  A transient holon knows its id, an operation that fails changes nothing, and the
index always passes its check. -/
theorem index_names_the_last_writer (ops : List Operation) :
    let j := Journal.start.run ops
    (∀ key id, j.pool.idOfKey? key = some id ↔
      (∃ h, j.pool.get? id = some h ∧ h.key? = some key) ∧ LastWriter j.writes key id) ∧
    (∀ id t, j.pool.get? id = some (.transient t) → t.temporaryId = some id) ∧
    (∀ op e, (j.pool.perform op).1 = .error e →
      (j.pool.perform op).2 = j.pool ∧ (j.step op).writes = j.writes) ∧
    j.pool.checkIndex = .ok () := by
  intro j
  have h : j.Lawful := (Journal.lawful_empty [] fun _ _ => not_lastWriter_nil).run ops
  refine ⟨h.index, h.transient, fun op e herror => ?_, checkIndex_eq_ok_iff.2 h.indexed⟩
  have hsame := Journal.step_of_error herror
  exact ⟨congrArg Journal.pool hsame, congrArg Journal.writes hsame⟩

/-- Two holons are put under one key, and the second of them is taken out. -/
def sharedKey : List Operation :=
  let book : Holon := .transient (.new (.ofValues [(keyProperty, .string "book")]))
  [.insert (.numbered 1) book, .insert (.numbered 2) book, .remove (.numbered 2)]

/-- The key goes to nobody: the holon that carries it was not the last to be written with it. -/
theorem index_names_the_last_writer_of_shared_key :
    let j := Journal.start.run sharedKey
    j.pool.Carries "book" (.numbered 1) ∧ ¬ LastWriter j.writes "book" (.numbered 1) ∧
      (j.pool.perform (.update (.numbered 2) fun h => .ok (h, ()))).2 = j.pool := by
  obtain ⟨hindex, -, herror, -⟩ := index_names_the_last_writer sharedKey
  have hcarried : (Journal.start.run sharedKey).pool.Carries "book" (.numbered 1) := ⟨_, rfl, rfl⟩
  refine ⟨hcarried, fun hlast => ?_, (herror _ _ rfl).1⟩
  have hnone : (Journal.start.run sharedKey).pool.idOfKey? "book" = none := by decide +kernel
  rw [(hindex "book" (.numbered 1)).2 ⟨hcarried, hlast⟩] at hnone
  cases hnone

end Pool

end Holarchy
