import Holarchy.Proofs.Pool
import Holarchy.SessionState
/-!
# Sound session states

What the check of a session state looks for, as three facts about its pools.
-/
namespace Holarchy.SessionState

theorem getStaged_eq_ok_iff {s : SessionState} {r : StagedReference} {h : Holon} :
    s.getStaged r = .ok h ↔ r.txId = s.txId ∧ s.stagedHolons.get? r.id = some h := by
  simp only [getStaged, Reference.checkTx, Reference.txId, bind, Except.bind]
  by_cases htx : r.txId = s.txId
  · cases s.stagedHolons.get? r.id <;> simp [htx]
  · simp [htx]

theorem getTransient_eq_ok_iff {s : SessionState} {r : TransientReference} {h : Holon} :
    s.getTransient r = .ok h ↔ r.txId = s.txId ∧ s.transientHolons.get? r.id = some h := by
  simp only [getTransient, Reference.checkTx, Reference.txId, bind, Except.bind]
  by_cases htx : r.txId = s.txId
  · cases s.transientHolons.get? r.id <;> simp [htx]
  · simp [htx]

/-- Both indexes are sound and no id is in both pools. -/
structure Sound (s : SessionState) : Prop where
  transient : s.transientHolons.Indexed
  staged : s.stagedHolons.Indexed
  apart : ∀ id, s.transientHolons.contains id = true → s.stagedHolons.contains id = false

theorem sharedId?_eq_none_iff {s : SessionState} :
    s.sharedId? = none ↔ ∀ id, s.transientHolons.contains id = true → s.stagedHolons.contains id = false := by
  rw [sharedId?, List.find?_eq_none]
  constructor
  · intro h id hid
    exact Bool.eq_false_iff.2 (h id (SortedMap.mem_keys_iff.2 (Pool.contains_iff.1 hid)))
  · intro h id hid
    exact Bool.eq_false_iff.1 (h id (Pool.contains_iff.2 (SortedMap.mem_keys_iff.1 hid)))

/-- **The check passes exactly the sound states.** -/
theorem checkInvariants_eq_ok_iff {s : SessionState} : s.checkInvariants = .ok () ↔ s.Sound := by
  have hparts : s.checkInvariants = .ok () ↔
      s.transientHolons.checkIndex = .ok () ∧ s.stagedHolons.checkIndex = .ok () ∧ s.sharedId? = none := by
    simp only [checkInvariants, bind, Except.bind]
    cases s.transientHolons.checkIndex with
    | error e => simp
    | ok u =>
      cases s.stagedHolons.checkIndex with
      | error e => simp
      | ok u' => cases s.sharedId? <;> simp
  rw [hparts, Pool.checkIndex_eq_ok_iff, Pool.checkIndex_eq_ok_iff, sharedId?_eq_none_iff]
  exact ⟨fun ⟨ht, hs, ha⟩ => ⟨ht, hs, ha⟩, fun h => ⟨h.transient, h.staged, h.apart⟩⟩

theorem sound_new (txId : TxId) : (new txId).Sound :=
  ⟨Pool.indexed_empty, Pool.indexed_empty, fun id h => by cases h⟩

end Holarchy.SessionState
