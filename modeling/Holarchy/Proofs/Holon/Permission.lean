import Holarchy.Pool
import Holarchy.Proofs.Holon.Lifecycle
/-!
# What may be done with a holon

A holon says for every kind of access whether it is permitted; an operation looks at the fields of the holon for itself.
The two agree on every holon that comes of a new one, because such a holon is frozen just when its staging has ended.
After that nothing but its list of errors changes.
-/
namespace Holarchy

/-- The edits of a property map, which no content refuses. -/
def Edit.OfProperties : Edit → Prop
  | .setProperty _ _ | .removeProperty _ | .updateProperties _ => True
  | .addRelated _ _ | .removeRelated _ _ => False

theorem Edit.OfProperties.apply {e : Edit} (h : e.OfProperties) (state : CollectionState) (c : Content) :
    (e.apply state c).1 = .ok () := by
  cases e with
  | setProperty | removeProperty | updateProperties => rfl
  | addRelated | removeRelated => cases h

namespace TransientHolon

variable {h : TransientHolon} {e : Edit}

theorem checkAccess_eq_ok_iff {access : Access} : h.checkAccess access = .ok () ↔ h.isAccessible access = true := by
  simp [checkAccess]

/-- **When an edit of a transient holon is done**: if the holon can be written and its content takes the edit. -/
theorem edit_eq_ok_iff :
    (h.edit e).1 = .ok () ↔ h.isAccessible .write = true ∧ (e.apply .pending h.content).1 = .ok () := by
  rw [← checkAccess_eq_ok_iff]
  unfold edit
  cases h.checkAccess .write with
  | error err => simp
  | ok u => rcases e.apply .pending h.content with ⟨err | u, c⟩ <;> simp

theorem exists_stage_iff : (∃ staged, h.stage = .ok staged) ↔ h.isAccessible .write = true := by
  unfold stage isAccessible
  cases h.holonState <;> simp [HolonState.allows]

end TransientHolon

namespace StagedHolon

variable {h : StagedHolon} {e : Edit}

theorem checkAccess_eq_ok_iff {access : Access} : h.checkAccess access = .ok () ↔ h.isAccessible access = true := by
  simp [checkAccess]

/-- A pending holon is mutable, so of a consistent holon all is permitted or what never changes it. -/
theorem Consistent.isAccessible (hc : h.Consistent) (access : Access) :
    h.isAccessible access = (h.isPending || access.isPassive) := by
  unfold StagedHolon.isAccessible
  split
  · rename_i hpending
    have hmutable : h.holonState = .mutable := by
      cases hstate : h.holonState with
      | mutable => rfl
      | immutable =>
        rw [isPending] at hpending
        rcases hc.frozen_iff.1 hstate with hended | ⟨id, hended⟩ <;> rw [hended] at hpending <;> cases hpending
    rw [hmutable, hpending]
    rfl
  · rename_i hended
    simp [hended]

/-- **When an edit of a staged holon is done**: if the holon can be written and its content takes the edit. -/
theorem edit_eq_ok_iff :
    (h.edit e).1 = .ok () ↔ h.isAccessible .write = true ∧ (e.apply .staged h.content).1 = .ok () := by
  rw [← checkAccess_eq_ok_iff]
  unfold edit
  cases haccess : h.checkAccess .write with
  | error err => simp
  | ok u =>
    obtain ⟨hpending, -⟩ := checkAccess_write_eq_ok_iff.1 haccess
    rcases e.apply .staged h.content with ⟨err | u, c⟩
    · simp
    · obtain ⟨marked, hmark, -, -⟩ :=
        markChanged_of_isPending { h.withContent c with version := h.version + 1 } hpending
      simp [hmark]

theorem edit_of_ended (h : StagedHolon) (hended : h.isPending = false) (e : Edit) : (h.edit e).2 = h := by
  simp [edit, checkAccess, isAccessible, hended, Access.isPassive]

theorem markChanged_of_ended (h : StagedHolon) (hended : h.isPending = false) :
    ∃ err, h.markChanged = .error err := by
  rw [isPending] at hended
  unfold markChanged
  cases hstate : h.stagedState with
  | abandoned | committed => exact ⟨_, rfl⟩
  | _ => rw [hstate] at hended; cases hended

theorem exists_abandon_iff : (∃ h', h.abandon = .ok h') ↔ h.isPending = true := by
  unfold abandon
  split <;> simp_all

theorem exists_commit_iff {id : LocalId} : (∃ h', h.commit id = .ok h') ↔ h.isPending = true := by
  unfold commit
  split <;> simp_all

end StagedHolon

namespace Holon

/-- The operation is done, not refused; a holon that has no such operation does not accept it. -/
def Accepts (h : Holon) (op : Operation) : Prop := ∃ h', h.perform? op = some (.ok (), h')

/-- The holon comes of a new one, by whatever can be done with holons. -/
inductive Reached : Holon → Prop where
  | new (properties : PropertyMap) : Reached (.transient (.new properties))
  /-- An operation may be refused, and leave what it then leaves. -/
  | performed {h h' : Holon} {op : Operation} {outcome : Except Refusal Unit} :
    Reached h → h.perform? op = some (outcome, h') → Reached h'
  | pooled {h : Holon} (id : TemporaryId) : Reached h → Reached (Pool.pooled id h)
  | copied {h : Holon} {t : TransientHolon} : Reached h → h.copy = .ok t → Reached (.transient t)
  | persisted {s : StagedHolon} {saved : SavedHolon} :
    Reached (.staged s) → s.toSaved? = some saved → Reached (.saved saved)
  | deleted {saved : SavedHolon} : Reached (.saved saved) → Reached (.saved saved.markDeleted)
  | succeeded {saved : SavedHolon} : Reached (.saved saved) → Reached (.transient saved.newVersion)

variable {h h' : Holon} {op : Operation} {outcome : Except Refusal Unit}

theorem accepts_iff_of_settle {result : Except Refusal StagedHolon}
    (hop : h.perform? op = some (h.settle (result.map .staged))) : h.Accepts op ↔ ∃ staged, result = .ok staged := by
  unfold Accepts
  rw [hop]
  cases result with
  | error e => simp [settle, Except.map]
  | ok staged => simp [settle, Except.map]

/-- A persisted holon has no operation but being staged, which it refuses. -/
theorem saved_perform {saved : SavedHolon} (hop : (Holon.saved saved).perform? op = some (outcome, h')) :
    h' = .saved saved := by
  cases op with
  | stage => exact eq_snd_of_some hop
  | _ => cases hop

theorem allIn_copy {t : TransientHolon} (hcopy : h.copy = .ok t) : t.relationships.AllIn .pending := by
  unfold copy at hcopy
  split at hcopy <;> cases hcopy
  exact RelationshipMap.allIn_withState _ _

theorem Reached.after (hreached : h.Reached) (ops : List Operation) : (h.after ops).Reached := by
  induction ops generalizing h with
  | nil => exact hreached
  | cons op ops ih =>
    unfold Holon.after
    split
    · rename_i hop
      exact ih (hreached.performed hop)
    · exact ih hreached

theorem Reached.consistent (hreached : h.Reached) : h.Consistent ∨ ∃ saved, h = .saved saved := by
  induction hreached with
  | new properties => exact .inl (RelationshipMap.allIn_empty .pending)
  | performed _ hop ih =>
    obtain hc | ⟨saved, rfl⟩ := ih
    · exact .inl (hc.perform hop)
    · exact .inr ⟨saved, saved_perform hop⟩
  | @pooled h id _ ih =>
    cases h with
    | transient t =>
      obtain hc | ⟨saved, hsaved⟩ := ih
      · exact .inl hc
      · cases hsaved
    | staged s => exact ih
    | saved saved => exact .inr ⟨saved, rfl⟩
  | copied _ hcopy => exact .inl (allIn_copy hcopy)
  | persisted | deleted => exact .inr ⟨_, rfl⟩
  | succeeded => exact .inl (RelationshipMap.allIn_empty .pending)

theorem Reached.consistent_staged {s : StagedHolon} (hreached : Reached (.staged s)) : s.Consistent := by
  obtain hc | ⟨saved, hsaved⟩ := hreached.consistent
  · exact hc
  · cases hsaved

/-- **When an edit is done**: if the holon can be written and its content takes the edit. -/
theorem accepts_edit_iff (h : Holon) (e : Edit) : h.Accepts (.edit e) ↔ h.isAccessible .write = true ∧
    match h with
    | .transient t => (e.apply .pending t.content).1 = .ok ()
    | .staged s => (e.apply .staged s.content).1 = .ok ()
    | .saved _ => False := by
  cases h with
  | transient t => simp [Accepts, perform?, isAccessible, TransientHolon.edit_eq_ok_iff]
  | staged s => simp [Accepts, perform?, isAccessible, StagedHolon.edit_eq_ok_iff]
  | saved saved => simp [Accepts, perform?]

theorem accepts_edit_of_properties {e : Edit} (he : e.OfProperties) :
    h.Accepts (.edit e) ↔ h.isAccessible .write = true := by
  rw [accepts_edit_iff]
  cases h with
  | transient t => simp [he.apply]
  | staged s => simp [he.apply]
  | saved saved => simp [isAccessible, SavedHolon.isAccessible, Access.isPassive]

theorem exists_copy_iff : (∃ t, h.copy = .ok t) ↔ h.isAccessible .clone = true := by
  unfold copy checkAccess
  cases h.isAccessible .clone <;> simp

/-- The error that an operation records. -/
def Operation.recorded? : Operation → Option RecordedError
  | .recordError e => some e
  | _ => none

/-- **Nothing but its errors is touched once the staging of a holon has ended.** -/
theorem eq_of_perform_ended {s : StagedHolon} (hended : s.isPending = false)
    (hop : (Holon.staged s).perform? op = some (outcome, h')) :
    h' = .staged { s with errors := s.errors ++ op.recorded?.toList } := by
  have hsame : s = { s with errors := s.errors ++ [] } := by simp
  cases op with
  | edit e =>
    rw [eq_snd_of_some hop]
    exact congrArg Holon.staged ((s.edit_of_ended hended e).trans hsame)
  | stage => rw [eq_snd_of_some hop]; exact congrArg _ hsame
  | markChanged =>
    obtain ⟨err, hmark⟩ := s.markChanged_of_ended hended
    rw [eq_snd_of_some hop, hmark]
    exact congrArg _ hsame
  | abandon =>
    rw [eq_snd_of_some hop, StagedHolon.abandon, hended]
    exact congrArg _ hsame
  | commit id =>
    rw [eq_snd_of_some hop, StagedHolon.commit, hended]
    exact congrArg _ hsame
  | recordError e => exact eq_snd_of_some hop
  | freeze | namePredecessor => cases hop

theorem perform_none {s : StagedHolon} (hop : (Holon.staged s).perform? op = none) : op.recorded? = none := by
  cases op with
  | recordError e => cases hop
  | _ => rfl

/-- Whatever is tried on a holon whose staging has ended, it only takes down errors. -/
theorem after_of_ended {s : StagedHolon} (hended : s.isPending = false) (ops : List Operation) :
    (Holon.staged s).after ops = .staged { s with errors := s.errors ++ ops.filterMap Operation.recorded? } := by
  induction ops generalizing s with
  | nil => simp [after]
  | cons op ops ih =>
    unfold after
    split
    · rename_i hop
      rw [eq_of_perform_ended hended hop, ih (s := { s with errors := s.errors ++ op.recorded?.toList }) hended]
      cases hrecorded : op.recorded? <;> simp [hrecorded]
    · rename_i hop
      rw [ih hended, List.filterMap_cons_none (perform_none hop)]

/-- **What a holon permits is what can be done with it, and the end of its staging is the end.**  Take any holon that
comes of a new one, by operations done or refused, pooling, copying, persisting, deleting and new versions.

- The three edits of its properties are done, whatever they are given, just if it can be written; related holons are
added and removed only if it can be.
- A transient holon can be staged just if it can be written; a staged one can be abandoned, and committed under any id,
just if it permits that; any holon can be copied just if it permits cloning.
- Once it is abandoned or committed, no operations however many change anything about it except its list of errors,
which is longer by the errors recorded. -/
theorem permitted_iff_done (hreached : h.Reached) :
    (∀ e : Edit, e.OfProperties → (h.Accepts (.edit e) ↔ h.isAccessible .write = true)) ∧
    (∀ e : Edit, h.Accepts (.edit e) → h.isAccessible .write = true) ∧
    (∀ t : TransientHolon, h = .transient t → (h.Accepts .stage ↔ h.isAccessible .write = true)) ∧
    (∀ s : StagedHolon, h = .staged s →
      (h.Accepts .abandon ↔ h.isAccessible .abandon = true) ∧
      ∀ id, h.Accepts (.commit id) ↔ h.isAccessible .commit = true) ∧
    ((∃ t, h.copy = .ok t) ↔ h.isAccessible .clone = true) ∧
    ∀ s : StagedHolon, h = .staged s → (s.stagedState = .abandoned ∨ ∃ id, s.stagedState = .committed id) →
      ∀ ops, h.after ops = .staged { s with errors := s.errors ++ ops.filterMap Operation.recorded? } := by
  refine ⟨fun e he => accepts_edit_of_properties he, fun e hdone => ((h.accepts_edit_iff e).1 hdone).1, ?_, ?_,
    exists_copy_iff, ?_⟩
  · rintro t rfl
    rw [accepts_iff_of_settle rfl]
    exact TransientHolon.exists_stage_iff
  · rintro s rfl
    have hc := hreached.consistent_staged
    have hpending : ∀ access : Access, access.isPassive = false →
        ((Holon.staged s).isAccessible access = true ↔ s.isPending = true) := by
      intro access hactive
      rw [isAccessible, hc.isAccessible, hactive, Bool.or_false]
    refine ⟨?_, fun id => ?_⟩
    · rw [accepts_iff_of_settle rfl, hpending .abandon rfl]
      exact StagedHolon.exists_abandon_iff
    · rw [accepts_iff_of_settle rfl, hpending .commit rfl]
      exact StagedHolon.exists_commit_iff
  · rintro s rfl hended
    refine after_of_ended ?_
    rcases hended with hended | ⟨id, hended⟩ <;> rw [StagedHolon.isPending, hended] <;> rfl

/-- A committed holon takes no title any more, nor can it be abandoned; the error of the attempt can be recorded. -/
theorem permitted_iff_done_when_eventful :
    let h := (Holon.transient (.new ∅)).after (.namePredecessor (.numbered 1) :: eventful)
    let tried : RecordedError := ⟨"abandoned too late", none⟩
    ¬ h.Accepts (.edit (.setProperty ⟨"title"⟩ none)) ∧ ¬ h.Accepts .abandon ∧ (∃ t, h.copy = .ok t) ∧
      ∃ s, h = .staged s ∧ s.stagedState = .committed (.numbered 2) ∧
        h.after [.edit (.removeProperty ⟨"title"⟩), .abandon, .recordError tried] =
          .staged { s with errors := s.errors ++ [tried] } := by
  intro h tried
  obtain ⟨hproperties, -, -, hstaged, hcopy, hended⟩ :=
    permitted_iff_done ((Reached.new ∅).after (.namePredecessor (.numbered 1) :: eventful))
  refine ⟨fun hdone => ?_, fun hdone => ?_, hcopy.2 rfl, _, rfl, rfl, hended _ rfl (.inr ⟨_, rfl⟩) _⟩
  · cases (hproperties (.setProperty ⟨"title"⟩ none) trivial).1 hdone
  · cases (hstaged _ rfl).1.1 hdone

end Holon

end Holarchy
