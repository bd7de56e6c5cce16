import Holarchy.Client.Error
import Holarchy.Proofs.Server.Guards
/-!
# One refusal, seen from two sides

A refusal that the client finds in its own pools reaches the caller by its kind, one that the server reports by its
status.  Two kinds of refusal have no status of their own, and these are seen differently from the two sides.
-/
namespace Holarchy

theorem Refusal.eq_of_kind_invalidTransition {e : Refusal} (h : e.kind = .invalidTransition) :
    ∃ what, e = .invalidTransition what := by
  cases e <;> first | exact ⟨_, rfl⟩ | cases h

theorem Refusal.eq_of_kind_notAccessible {e : Refusal} (h : e.kind = .notAccessible) :
    ∃ access state, e = .notAccessible access state := by
  cases e <;> first | exact ⟨_, _, rfl⟩ | cases h

namespace ClientError

/-- The same kind of error, and the same answer to whatever a caller asks of it. -/
structure Alike (a b : ClientError) : Prop where
  code : a.code = b.code
  isNotFound : a.isNotFound = b.isNotFound
  isConflict : a.isConflict = b.isConflict
  isRetryable : a.isRetryable = b.isRetryable
  outcomeUnknown : a.outcomeUnknown = b.outcomeUnknown

theorem Alike.refl (a : ClientError) : a.Alike a := ⟨rfl, rfl, rfl, rfl, rfl⟩

/-- **A status says as much as a kind**, but for two kinds. -/
theorem ofStatus_ofRefusal {e : Refusal} (htransition : e.kind ≠ .invalidTransition)
    (haccess : e.kind ≠ .notAccessible) : ofStatus (.ofRefusal e) e.message = ofRefusal e := by
  cases e with
  | invalidTransition what => exact absurd rfl htransition
  | notAccessible access state => exact absurd rfl haccess
  | _ => rfl

theorem alike_ofStatus_iff {e : Refusal} :
    (ofRefusal e).Alike (ofStatus (.ofRefusal e) e.message) ↔
      e.kind ≠ .invalidTransition ∧ e.kind ≠ .notAccessible := by
  refine ⟨fun h => ⟨fun htransition => ?_, fun haccess => ?_⟩, fun ⟨htransition, haccess⟩ => ?_⟩
  · obtain ⟨what, rfl⟩ := Refusal.eq_of_kind_invalidTransition htransition
    have hcode : "InvalidTransition" = "Server" := h.code
    exact absurd hcode (by decide)
  · obtain ⟨access, state, rfl⟩ := Refusal.eq_of_kind_notAccessible haccess
    have hcode : "NotAccessible" = "Conflict" := h.code
    exact absurd hcode (by decide)
  · rw [ofStatus_ofRefusal htransition haccess]
    exact .refl _

end ClientError

theorem reconcile_ofRefusal (dance : String) (seq : UInt64) (current : SessionState) (space : SpaceId) (e : Refusal) :
    reconcile dance seq current (.ofRefusal space e) = .error (.rejected dance (.ofRefusal e) e.message) := by
  simp [reconcile, DanceResponse.ofRefusal, Status.isSuccess_ofRefusal]

namespace Dance

variable {s : SessionState} {target : StagedReference} {h : StagedHolon} {e : Refusal}

theorem checkTx_of_eq (htx : target.txId = s.txId) : (Reference.staged target).checkTx s.txId = .ok () := if_pos htx

theorem kind_of_checkAccess {access : Access} (haccess : h.checkAccess access = .error e) :
    e.kind = .notAccessible := by
  unfold StagedHolon.checkAccess at haccess
  split at haccess <;> cases haccess
  rfl

theorem kind_of_abandon (habandon : h.abandon = .error e) : e.kind = .conflict := by
  unfold StagedHolon.abandon at habandon
  split at habandon <;> cases habandon
  rfl

/-- **Why a command on a staged holon of the pool is refused**: for its own name, or for the state of the holon and then
the command decides on the kind of the refusal. -/
theorem refused_command {d : Dance} (hd : d.kind = .command target) (htx : target.txId = s.txId)
    (hget : s.stagedHolons.get? target.id = some (.staged h)) (he : d.guard s = .error e) :
    e = .noRelationshipName ∨ d = .abandonStagedChanges target ∧ e.kind = .conflict ∨
      d ≠ .abandonStagedChanges target ∧ (e.kind = .notAccessible ∨ e.kind = .invalidTransition) := by
  have hwrite (hcheck : s.checkStagedAccess target .write = .error e) : e.kind = .notAccessible := by
    rw [SessionState.checkStagedAccess_of_pooled hget, checkTx_of_eq htx] at hcheck
    exact kind_of_checkAccess hcheck
  cases d with
  | withProperties | removeProperties =>
    cases hd
    exact .inr (.inr ⟨fun h => (by cases h), .inl (hwrite he)⟩)
  | addRelatedHolons | removeRelatedHolons =>
    cases hd
    simp only [guard] at he
    split at he
    · cases he
      exact .inl rfl
    · exact .inr (.inr ⟨fun h => (by cases h), .inl (hwrite he)⟩)
  | abandonStagedChanges =>
    cases hd
    rw [guard, SessionState.pooledStaged?_of_pooled hget, checkTx_of_eq htx] at he
    refine .inr (.inl ⟨rfl, ?_⟩)
    cases habandon : h.abandon with
    | ok h' => simp [bind, Except.bind, habandon, Except.map] at he
    | error e' =>
      simp only [bind, Except.bind, habandon, Except.map, Except.error.injEq] at he
      exact he ▸ kind_of_abandon habandon
  | commitOne =>
    cases hd
    rw [guard, SessionState.pooledStaged?_of_pooled hget, checkTx_of_eq htx] at he
    simp only [bind, Except.bind] at he
    split at he <;> cases he
    exact .inr (.inr ⟨fun h => (by cases h), .inr rfl⟩)
  | _ => cases hd

end Dance

/-- **A refusal looks the same from both sides just if it is neither of a transition nor of an access.**  Then the caller
sees the same error whether the client found the refusal or the server answered with it; a forbidden transition is an
error of its own on the near side and a failure of the server on the far one, a forbidden access is a conflict on the far
side.  So a command on a staged holon that its state forbids looks the same just if it is to abandon the holon. -/
theorem refusals_look_alike_iff (e : Refusal) (space : SpaceId) (dance : String) (seq : UInt64)
    (current : SessionState) :
    ∃ err, reconcile dance seq current (.ofRefusal space e) = .error err ∧
      let near := ClientError.ofCall (.refused e)
      let far := ClientError.ofCall err
      (near.Alike far ↔ e.kind ≠ .invalidTransition ∧ e.kind ≠ .notAccessible) ∧
        (near.Alike far → near = far) ∧
        (e.kind = .invalidTransition → near = .invalidTransition e.message ∧ far = .server .serverError e.message) ∧
        (e.kind = .notAccessible → near = .notAccessible e.message ∧ far = .conflict e.message) ∧
        ∀ (d : Dance) (space' : SpaceId) (s : SessionState) (target : StagedReference) (h : StagedHolon),
          d.kind = .command target → target.txId = s.txId → s.stagedHolons.get? target.id = some (.staged h) →
          d.request space' s = .error e → e ≠ .noRelationshipName →
          (near.Alike far ↔ d = .abandonStagedChanges target) := by
  refine ⟨_, reconcile_ofRefusal dance seq current space e, ClientError.alike_ofStatus_iff, fun halike => ?_,
    fun htransition => ?_, fun haccess => ?_, fun d space' s target h hd htx hget hrefused hnamed => ?_⟩
  · obtain ⟨htransition, haccess⟩ := ClientError.alike_ofStatus_iff.1 halike
    exact (ClientError.ofStatus_ofRefusal htransition haccess).symm
  · obtain ⟨what, rfl⟩ := Refusal.eq_of_kind_invalidTransition htransition
    exact ⟨rfl, rfl⟩
  · obtain ⟨access, state, rfl⟩ := Refusal.eq_of_kind_notAccessible haccess
    exact ⟨rfl, rfl⟩
  · refine ClientError.alike_ofStatus_iff.trans ?_
    rcases Dance.refused_command hd htx hget (Dance.request_eq_error_iff.1 hrefused) with
      hname | ⟨habandon, hkind⟩ | ⟨hother, hkind | hkind⟩
    · exact absurd hname hnamed
    · simp [habandon, hkind]
    · simp [hother, hkind]
    · simp [hother, hkind]

/-- A draft that was abandoned cannot be abandoned again: a conflict, whoever finds it. -/
theorem refusals_look_alike_iff_of_abandoning :
    ∃ err, reconcile "abandon_staged_changes" 1 Server.drafts
        (.ofRefusal ⟨"local"⟩ (.deletionNotAllowed "cannot abandon a holon in Staged(Abandoned)")) = .error err ∧
      ClientError.ofCall err =
        .ofCall (.refused (.deletionNotAllowed "cannot abandon a holon in Staged(Abandoned)")) := by
  obtain ⟨err, hreject, -, hsame, -, -, hcommand⟩ := refusals_look_alike_iff
    (.deletionNotAllowed "cannot abandon a holon in Staged(Abandoned)") ⟨"local"⟩ "abandon_staged_changes" 1
    Server.drafts
  have halike := (hcommand (.abandonStagedChanges ⟨⟨1⟩, .numbered 2⟩) ⟨"local"⟩ Server.drafts ⟨⟨1⟩, .numbered 2⟩
    (Server.draft "second" .abandoned) rfl rfl rfl rfl (by decide)).2 rfl
  exact ⟨err, hreject, (hsame halike).symm⟩

/-- A write to a draft that was abandoned: the client that knows of it finds that it is not accessible, and the server
that is asked all the same answers so, which the caller then sees as a conflict. -/
theorem abandoned_draft_looks_different_from_afar :
    let e := Refusal.notAccessible .write "Staged(Abandoned)"
    let write := Dance.withProperties ⟨⟨1⟩, .numbered 2⟩ ∅
    let unguarded := DanceRequest.new write.name write.kind write.body ⟨"local"⟩ Server.drafts
    let answer := (Server.withOne.handle unguarded (.ofPresets [])).1.1
    write.request ⟨"local"⟩ Server.drafts = .error e ∧
      reconcile write.name 1 Server.drafts answer = .error (.rejected write.name .conflict e.message) ∧
      ClientError.ofCall (.refused e) = .notAccessible e.message ∧
      ClientError.ofCall (.rejected write.name .conflict e.message) = .conflict e.message ∧
      ¬ (ClientError.ofCall (.refused e)).Alike (.ofCall (.rejected write.name .conflict e.message)) := by
  refine ⟨rfl, rfl, rfl, rfl, fun halike => ?_⟩
  exact absurd halike.code (by decide)

end Holarchy
