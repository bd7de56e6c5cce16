import Holarchy.Proofs.Holon.Permission
/-!
# What the version and the staged state tell of the past

The version of a holon counts the edits that were done, and those alone; the staged state of a pending holon says
whether it has been changed since it was staged.  Both are read off the list of the operations that were done.
-/
namespace Holarchy

namespace TransientHolon

variable {h : TransientHolon} {e : Edit}

theorem version_edit_done (hdone : (h.edit e).1 = .ok ()) : (h.edit e).2.version = h.version + 1 := by
  unfold edit at hdone ⊢
  cases haccess : h.checkAccess .write with
  | error err => simp [haccess] at hdone
  | ok u => rcases happly : e.apply .pending h.content with ⟨err | u, c⟩ <;> simp [haccess, happly] at hdone ⊢

theorem version_edit_refused {err : Refusal} (hrefused : (h.edit e).1 = .error err) :
    (h.edit e).2.version = h.version := by
  unfold edit at hrefused ⊢
  cases haccess : h.checkAccess .write with
  | error err => rfl
  | ok u =>
    rcases happly : e.apply .pending h.content with ⟨err | u, c⟩
    · rfl
    · simp [haccess, happly] at hrefused

end TransientHolon

namespace StagedState

/-- The state of a holon that has been changed, if it has. -/
def changedIf (changed : Bool) : StagedState → StagedState
  | .forUpdate => if changed then .forUpdateChanged else .forUpdate
  | state => state

/-- The state of a holon that has just been staged, as the successor of a holon or of none. -/
def succeeding : Option LocalId → StagedState
  | some _ => .forUpdate
  | none => .forCreate

@[simp] theorem changedIf_false (state : StagedState) : state.changedIf false = state := by
  cases state <;> rfl

theorem changedIf_changedIf (state : StagedState) (before after : Bool) :
    (state.changedIf before).changedIf after = state.changedIf (before || after) := by
  cases state <;> cases before <;> cases after <;> rfl

/-- What a state tells that is reached by staging, and perhaps a change since. -/
theorem changedIf_succeeding (predecessor : Option LocalId) (changed : Bool) :
    ((succeeding predecessor).changedIf changed = .forUpdateChanged ↔ predecessor ≠ none ∧ changed = true) ∧
    ((succeeding predecessor).changedIf changed = .forUpdate ↔ predecessor ≠ none ∧ changed = false) ∧
    ((succeeding predecessor).changedIf changed = .forCreate ↔ predecessor = none) := by
  cases predecessor <;> cases changed <;> simp [succeeding, changedIf]

end StagedState

namespace StagedHolon

variable {h h' : StagedHolon} {e : Edit}

theorem markChanged_ok (hmark : h.markChanged = .ok h') :
    h' = { h with stagedState := h.stagedState.changedIf true } := by
  rcases h with ⟨_, _, state, _, _, _, _, _⟩
  cases state <;> cases hmark <;> rfl

/-- **What an edit that is done does**: one version up, and the holon counts as changed. -/
theorem edit_done (hdone : (h.edit e).1 = .ok ()) :
    (h.edit e).2.version = h.version + 1 ∧ (h.edit e).2.stagedState = h.stagedState.changedIf true := by
  obtain ⟨haccess, happly⟩ := edit_eq_ok_iff.1 hdone
  rw [← checkAccess_eq_ok_iff] at haccess
  obtain ⟨hpending, -⟩ := checkAccess_write_eq_ok_iff.1 haccess
  unfold edit
  rcases hcase : e.apply .staged h.content with ⟨outcome, c⟩
  rw [hcase] at happly
  obtain rfl : outcome = .ok () := happly
  obtain ⟨marked, hmark, -, -⟩ :=
    markChanged_of_isPending { h.withContent c with version := h.version + 1 } hpending
  have hmarked := markChanged_ok hmark
  simp only [haccess, hmark, hmarked]
  exact ⟨trivial, rfl⟩

/-- The version is up before the last check of an edit is made, but that check never refuses. -/
theorem edit_refused {err : Refusal} (hrefused : (h.edit e).1 = .error err) :
    (h.edit e).2.version = h.version ∧ (h.edit e).2.stagedState = h.stagedState := by
  unfold edit at hrefused ⊢
  cases haccess : h.checkAccess .write with
  | error err => exact ⟨rfl, rfl⟩
  | ok u =>
    obtain ⟨hpending, -⟩ := checkAccess_write_eq_ok_iff.1 haccess
    rcases happly : e.apply .staged h.content with ⟨err | u, c⟩
    · exact ⟨rfl, rfl⟩
    · obtain ⟨marked, hmark, -, -⟩ :=
        markChanged_of_isPending { h.withContent c with version := h.version + 1 } hpending
      simp [haccess, happly, hmark] at hrefused

theorem abandon_ok (habandon : h.abandon = .ok h') : h'.version = h.version ∧ h'.isPending = false := by
  unfold abandon at habandon
  split at habandon <;> cases habandon
  exact ⟨rfl, rfl⟩

theorem commit_ok {id : LocalId} (hcommit : h.commit id = .ok h') :
    h'.version = h.version ∧ h'.isPending = false := by
  unfold commit at hcommit
  split at hcommit <;> cases hcommit
  exact ⟨rfl, rfl⟩

end StagedHolon

theorem TransientHolon.stage_ok {h : TransientHolon} {staged : StagedHolon} (hstage : h.stage = .ok staged) :
    staged.version = h.version ∧ staged.stagedState = .succeeding h.predecessorId := by
  unfold stage at hstage
  split at hstage <;> cases hstage
  cases h.predecessorId <;> exact ⟨rfl, rfl⟩

namespace Holon

def Operation.isEdit : Operation → Bool
  | .edit _ => true
  | _ => false

/-- An edit, or the mere note that the holon has been changed. -/
def Operation.isChange : Operation → Bool
  | .edit _ | .markChanged => true
  | _ => false

/-- Those of the operations that are done, not refused, when they are tried one after another. -/
def done (h : Holon) : List Operation → List Operation
  | [] => []
  | op :: ops =>
    match h.perform? op with
    | some (.ok (), next) => op :: next.done ops
    | some (.error _, next) => next.done ops
    | none => h.done ops

/-- Of the operations that were done, the staging and what came after it. -/
def sinceStaged (done : List Operation) : List Operation := done.dropWhile fun op => op ≠ .stage

variable {h h' : Holon} {op : Operation} {outcome : Except Refusal Unit}

theorem version_settle {result : Except Refusal StagedHolon}
    (hresult : ∀ {staged}, result = .ok staged → staged.version = h.version) :
    (h.settle (result.map .staged)).2.version = h.version := by
  cases result with
  | error e => rfl
  | ok staged => exact hresult rfl

theorem version_edit_perform {e : Edit} (hop : h.perform? (.edit e) = some (outcome, h')) :
    (outcome = .ok () → h'.version = h.version + 1) ∧ ∀ err, outcome = .error err → h'.version = h.version := by
  cases h with
  | transient t =>
    obtain ⟨rfl, rfl⟩ := Prod.mk.inj (Option.some.inj hop)
    exact ⟨TransientHolon.version_edit_done, fun err => TransientHolon.version_edit_refused⟩
  | staged s =>
    obtain ⟨rfl, rfl⟩ := Prod.mk.inj (Option.some.inj hop)
    exact ⟨fun hdone => (StagedHolon.edit_done hdone).1, fun err hrefused => (StagedHolon.edit_refused hrefused).1⟩
  | saved saved => cases hop

theorem version_perform_of_not_edit (hop : h.perform? op = some (outcome, h')) (hnot : op.isEdit = false) :
    h'.version = h.version := by
  cases h with
  | transient t =>
    cases op with
    | edit e => cases hnot
    | freeze | namePredecessor => rw [eq_snd_of_some hop]; rfl
    | stage =>
      rw [eq_snd_of_some hop]
      exact version_settle fun hstage => (TransientHolon.stage_ok hstage).1
    | markChanged | abandon | commit | recordError => cases hop
  | staged s =>
    cases op with
    | edit e => cases hnot
    | stage | recordError => rw [eq_snd_of_some hop]; rfl
    | markChanged =>
      rw [eq_snd_of_some hop]
      exact version_settle fun hmark => (by rw [StagedHolon.markChanged_ok hmark]; rfl)
    | abandon =>
      rw [eq_snd_of_some hop]
      exact version_settle fun habandon => (StagedHolon.abandon_ok habandon).1
    | commit id =>
      rw [eq_snd_of_some hop]
      exact version_settle fun hcommit => (StagedHolon.commit_ok hcommit).1
    | freeze | namePredecessor => cases hop
  | saved saved => rw [saved_perform hop]

/-- **An edit that is done is one version up; nothing else moves the version.** -/
theorem version_perform (hop : h.perform? op = some (outcome, h')) :
    (outcome = .ok () → h'.version = h.version + if op.isEdit then 1 else 0) ∧
      ∀ err, outcome = .error err → h'.version = h.version := by
  cases hedit : op.isEdit with
  | false =>
    have hsame := version_perform_of_not_edit hop hedit
    exact ⟨fun _ => (by simpa using hsame), fun _ _ => hsame⟩
  | true =>
    cases op with
    | edit e => simpa using version_edit_perform hop
    | _ => cases hedit

/-- The version after operations is the version before them and the number of the edits that were done. -/
theorem version_after (h : Holon) (ops : List Operation) :
    (h.after ops).version = h.version + UInt64.ofNat ((h.done ops).countP Operation.isEdit) := by
  induction ops generalizing h with
  | nil => simp [after, done]
  | cons op ops ih =>
    unfold after done
    rcases hop : h.perform? op with _ | ⟨err | u, next⟩
    · exact ih h
    · exact (ih next).trans (by rw [(version_perform hop).2 err rfl])
    · refine (ih next).trans ?_
      rw [(version_perform hop).1 rfl, List.countP_cons, UInt64.ofNat_add, UInt64.add_assoc]
      congr 1
      cases op.isEdit <;> simp [UInt64.add_comm]

theorem isPending_of_perform {s s' : StagedHolon} (hop : (Holon.staged s).perform? op = some (outcome, .staged s'))
    (hpending : s'.isPending = true) : s.isPending = true := by
  cases hbefore : s.isPending with
  | true => rfl
  | false =>
    cases eq_of_perform_ended hbefore hop
    exact hbefore.symm.trans hpending

theorem predecessorId_staged_perform {s s' : StagedHolon}
    (hop : (Holon.staged s).perform? op = some (outcome, .staged s')) : s'.predecessorId = s.predecessorId :=
  predecessorId_perform hop fun id hname => (by rw [hname] at hop; cases hop)

theorem stagedState_settle {s s' : StagedHolon} {result : Except Refusal StagedHolon} {changed : Bool}
    (hop : (Holon.staged s).settle (result.map .staged) = (outcome, .staged s'))
    (hresult : result = .ok s' → s'.stagedState = s.stagedState.changedIf changed) :
    (outcome = .ok () → s'.stagedState = s.stagedState.changedIf changed) ∧
      ∀ err, outcome = .error err → s'.stagedState = s.stagedState := by
  cases result with
  | error e =>
    obtain ⟨rfl, hsame⟩ := Prod.mk.inj hop
    cases hsame
    exact ⟨fun hdone => (by cases hdone), fun _ _ => rfl⟩
  | ok staged =>
    obtain ⟨rfl, hsame⟩ := Prod.mk.inj hop
    cases hsame
    exact ⟨fun _ => hresult rfl, fun err hrefused => (by cases hrefused)⟩

/-- **What an operation does to the state of a staged holon** that is still pending then: the holon counts as changed if
the operation is a change and was done. -/
theorem stagedState_perform {s s' : StagedHolon} (hop : (Holon.staged s).perform? op = some (outcome, .staged s'))
    (hpending : s'.isPending = true) :
    (outcome = .ok () → s'.stagedState = s.stagedState.changedIf op.isChange) ∧
      ∀ err, outcome = .error err → s'.stagedState = s.stagedState := by
  cases op with
  | edit e =>
    obtain ⟨rfl, hsame⟩ := Prod.mk.inj (Option.some.inj hop)
    cases hsame
    exact ⟨fun hdone => (StagedHolon.edit_done hdone).2, fun err hrefused => (StagedHolon.edit_refused hrefused).2⟩
  | stage =>
    obtain ⟨rfl, hsame⟩ := Prod.mk.inj (Option.some.inj hop)
    cases hsame
    exact ⟨fun hdone => (by cases hdone), fun _ _ => rfl⟩
  | markChanged =>
    refine stagedState_settle (Option.some.inj hop) fun hmark => ?_
    rw [StagedHolon.markChanged_ok hmark]
    rfl
  | abandon =>
    refine stagedState_settle (Option.some.inj hop) fun habandon => ?_
    rw [(StagedHolon.abandon_ok habandon).2] at hpending
    cases hpending
  | commit id =>
    refine stagedState_settle (Option.some.inj hop) fun hcommit => ?_
    rw [(StagedHolon.commit_ok hcommit).2] at hpending
    cases hpending
  | recordError e =>
    obtain ⟨rfl, hsame⟩ := Prod.mk.inj (Option.some.inj hop)
    cases hsame
    exact ⟨fun _ => (StagedState.changedIf_false _).symm, fun _ _ => rfl⟩
  | freeze | namePredecessor => cases hop

/-- The state of a staged holon after operations that leave it pending tells whether a change was done. -/
theorem stagedState_after {s s' : StagedHolon} {ops : List Operation} (hafter : (Holon.staged s).after ops = .staged s')
    (hpending : s'.isPending = true) :
    s.isPending = true ∧ s'.predecessorId = s.predecessorId ∧
      s'.stagedState = s.stagedState.changedIf (((Holon.staged s).done ops).any Operation.isChange) := by
  induction ops generalizing s with
  | nil =>
    cases hafter
    exact ⟨hpending, rfl, (StagedState.changedIf_false _).symm⟩
  | cons op ops ih =>
    unfold after at hafter
    unfold done
    rcases hop : (Holon.staged s).perform? op with _ | ⟨outcome, next⟩
    · rw [hop] at hafter
      exact ih hafter
    · rw [hop] at hafter
      obtain ⟨next, rfl⟩ := staged_perform hop
      obtain ⟨hnext, hpredecessor, hstate⟩ := ih hafter
      obtain ⟨hdone, hrefused⟩ := stagedState_perform hop hnext
      refine ⟨isPending_of_perform hop hnext, hpredecessor.trans (predecessorId_staged_perform hop), ?_⟩
      rcases outcome with err | u
      · rw [hstate, hrefused err rfl]
      · rw [hstate, hdone rfl, StagedState.changedIf_changedIf, List.any_cons]

/-- A transient holon stays one until it is staged. -/
theorem transient_perform {t : TransientHolon} (hop : (Holon.transient t).perform? op = some (outcome, h')) :
    (∃ t', h' = .transient t' ∧ (outcome = .ok () → op ≠ .stage)) ∨
      ∃ staged, t.stage = .ok staged ∧ op = .stage ∧ outcome = .ok () ∧ h' = .staged staged := by
  cases op with
  | edit | freeze | namePredecessor => rw [eq_snd_of_some hop]; exact .inl ⟨_, rfl, fun _ hstage => (by cases hstage)⟩
  | stage =>
    cases hstage : t.stage with
    | error e =>
      simp only [perform?, stage, hstage] at hop
      cases hop
      exact .inl ⟨t, rfl, fun hdone => (by cases hdone)⟩
    | ok staged =>
      simp only [perform?, stage, hstage] at hop
      cases hop
      exact .inr ⟨staged, rfl, rfl, rfl, rfl⟩
  | markChanged | abandon | commit | recordError => cases hop

/-- The state of a pending holon that was staged on the way tells whether a change was done since. -/
theorem stagedState_since {t : TransientHolon} {s : StagedHolon} {ops : List Operation}
    (hafter : (Holon.transient t).after ops = .staged s) (hpending : s.isPending = true) :
    s.stagedState = (StagedState.succeeding s.predecessorId).changedIf
      ((sinceStaged ((Holon.transient t).done ops)).any Operation.isChange) := by
  induction ops generalizing t with
  | nil => cases hafter
  | cons op ops ih =>
    unfold after at hafter
    unfold done
    rcases hop : (Holon.transient t).perform? op with _ | ⟨outcome, next⟩
    · rw [hop] at hafter
      exact ih hafter
    · rw [hop] at hafter
      obtain ⟨t', rfl, hnot⟩ | ⟨staged, hstage, rfl, rfl, rfl⟩ := transient_perform hop
      · rcases outcome with err | u
        · exact ih hafter
        · rw [ih hafter]
          simp [sinceStaged, hnot rfl]
      · obtain ⟨-, hpredecessor, hstate⟩ := stagedState_after hafter hpending
        rw [hstate, (TransientHolon.stage_ok hstage).2, hpredecessor, TransientHolon.predecessorId_stage hstage]
        simp [sinceStaged, Operation.isChange]

/-- **The version and the changed state count history exactly.**  Take a transient holon at version one, whatever else
it is like, and try any operations on it, done or refused.  As long as the number fits, its version is one more than the
number of the edits that were done, and so is the version that its store gets once it is committed.  While it is staged
and pending, it is a changed update just if it succeeds a holon and an edit or a note of a change was done since it was
staged, an unchanged one just if it succeeds a holon and none was, and a creation just if it succeeds none. -/
theorem version_counts_edits (t : TransientHolon) (ops : List Operation) (hfirst : t.version = 1)
    (hfits : 1 + ((Holon.transient t).done ops).countP Operation.isEdit < UInt64.size) :
    let h := (Holon.transient t).after ops
    let done := (Holon.transient t).done ops
    h.version.toNat = 1 + done.countP Operation.isEdit ∧
      ∀ s : StagedHolon, h = .staged s →
        (∀ saved, s.toSaved? = some saved → saved.version.toNat = 1 + done.countP Operation.isEdit) ∧
        (s.isPending = true →
          (s.stagedState = .forUpdateChanged ↔
            s.predecessorId ≠ none ∧ ∃ op ∈ sinceStaged done, op.isChange = true) ∧
          (s.stagedState = .forUpdate ↔
            s.predecessorId ≠ none ∧ ∀ op ∈ sinceStaged done, op.isChange = false) ∧
          (s.stagedState = .forCreate ↔ s.predecessorId = none)) := by
  intro h done
  have hversion : h.version.toNat = 1 + done.countP Operation.isEdit := by
    have hafter : h.version = t.version + UInt64.ofNat (done.countP Operation.isEdit) := version_after _ ops
    have hcount : done.countP Operation.isEdit % UInt64.size = done.countP Operation.isEdit :=
      Nat.mod_eq_of_lt (Nat.lt_of_add_left_lt hfits)
    rw [hafter, hfirst, UInt64.toNat_add, UInt64.toNat_ofNat', hcount]
    exact Nat.mod_eq_of_lt hfits
  refine ⟨hversion, fun s hs => ⟨fun saved hsaved => ?_, fun hpending => ?_⟩⟩
  · obtain ⟨id, -, rfl⟩ := StagedHolon.toSaved?_eq_some_iff.1 hsaved
    rw [hs] at hversion
    exact hversion
  · obtain ⟨hchanged, hunchanged, hcreation⟩ :=
      StagedState.changedIf_succeeding s.predecessorId ((sinceStaged done).any Operation.isChange)
    rw [← stagedState_since hs hpending] at hchanged hunchanged hcreation
    refine ⟨hchanged.trans (and_congr_right' List.any_eq_true), hunchanged.trans (and_congr_right' ?_), hcreation⟩
    simp

/-- The refused batch and the abandoning that comes too late count for nothing: the new version of a holon is committed
at version two, after it has been a changed update. -/
theorem version_counts_edits_when_eventful :
    let t := (TransientHolon.new ∅).succeeding (.numbered 1)
    (Holon.transient t).done eventful = [.stage, .edit (.setProperty ⟨"title"⟩ none), .commit (.numbered 2)] ∧
      ((Holon.transient t).after eventful).version.toNat = 2 ∧
      ∃ s, (Holon.transient t).after (eventful.take 3) = .staged s ∧ s.stagedState = .forUpdateChanged := by
  intro t
  obtain ⟨hversion, -⟩ := version_counts_edits t eventful rfl (by decide)
  obtain ⟨-, hpending⟩ := version_counts_edits t (eventful.take 3) rfl (by decide)
  refine ⟨rfl, hversion.trans rfl, _, rfl, ?_⟩
  exact ((hpending _ rfl).2 rfl).1.2 ⟨fun hnone => (by cases hnone), .edit (.setProperty ⟨"title"⟩ none),
    by decide, rfl⟩

end Holon

end Holarchy
