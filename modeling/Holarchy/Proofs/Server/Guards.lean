import Holarchy.Proofs.Holon.Lifecycle
import Holarchy.Proofs.Server.Effects
/-!
# Guards

A guard looks at the pools of a session and lets a request be made or refuses it; the server runs the order of the
request against the same pools.  They are compared by their verdicts: done, or refused and why.
-/
namespace Holarchy

/-- What an outcome says apart from what it gives: done, or refused and why. -/
def verdict {α : Type} (outcome : Except Refusal α) : Except Refusal Unit := outcome.map fun _ => ()

section Verdicts

variable {α β : Type}

@[simp] theorem verdict_map (outcome : Except Refusal α) (f : α → β) : verdict (outcome.map f) = verdict outcome := by
  cases outcome <;> rfl

theorem verdict_eq_error_iff {outcome : Except Refusal α} {e : Refusal} :
    verdict outcome = .error e ↔ outcome = .error e := by
  cases outcome <;> simp [verdict, Except.map]

theorem verdict_eq_ok_iff {outcome : Except Refusal α} : verdict outcome = .ok () ↔ ∃ a, outcome = .ok a := by
  cases outcome <;> simp [verdict, Except.map]

end Verdicts

namespace StagedHolon

variable {h : StagedHolon}

theorem edited_of_refused {err : Refusal} (haccess : h.checkAccess .write = .error err) (e : Edit) :
    h.edited e = .error err := by
  simp only [edited, edit, haccess]

/-- An edit of a holon that can be written is refused just if the content does not take it, and leaves a holon that can
be written again. -/
theorem edited_of_writable (haccess : h.checkAccess .write = .ok ()) (e : Edit) :
    (∃ err, (e.apply .staged h.content).1 = .error err ∧ h.edited e = .error err) ∨
      (e.apply .staged h.content).1 = .ok () ∧ ∃ h', h.edited e = .ok h' ∧ h'.checkAccess .write = .ok () := by
  obtain ⟨hpending, hmutable⟩ := checkAccess_write_eq_ok_iff.1 haccess
  rcases happly : e.apply .staged h.content with ⟨err | u, c⟩
  · exact .inl ⟨err, rfl, by simp only [edited, edit, haccess, happly]⟩
  · let changed := { h.withContent c with version := h.version + 1 }
    obtain ⟨marked, hmark, hstays, hsame⟩ := changed.markChanged_of_isPending hpending
    refine .inr ⟨rfl, marked, ?_, checkAccess_write_eq_ok_iff.2 ⟨hstays, hsame.trans hmutable⟩⟩
    simp only [edited, edit, haccess, happly]
    rw [hmark]

/-- **When an edit is refused**: if the holon cannot be written, or if its content does not take the edit. -/
theorem verdict_edited (h : StagedHolon) (e : Edit) :
    verdict (h.edited e) = h.checkAccess .write >>= fun _ => (e.apply .staged h.content).1 := by
  cases haccess : h.checkAccess .write with
  | error err => rw [edited_of_refused haccess]; rfl
  | ok u =>
    rcases edited_of_writable haccess e with ⟨err, happly, hedit⟩ | ⟨happly, h', hedit, -⟩
    · rw [hedit, happly]; rfl
    · rw [hedit, happly]; rfl

theorem verdict_edited_of_fits {e : Edit} (hfits : (e.apply .staged h.content).1 = .ok ()) :
    verdict (h.edited e) = h.checkAccess .write := by
  rw [verdict_edited, hfits]
  cases h.checkAccess .write <;> rfl

theorem verdict_withoutProperties_of_writable {names : List PropertyName} (haccess : h.checkAccess .write = .ok ()) :
    verdict (h.withoutProperties names) = .ok () := by
  induction names generalizing h with
  | nil => rfl
  | cons name names ih =>
    rcases edited_of_writable haccess (.removeProperty name) with ⟨err, happly, -⟩ | ⟨-, next, hedit, hnext⟩
    · cases happly
    · rw [withoutProperties, hedit]
      exact ih hnext

/-- Taking properties away is refused if the holon cannot be written, unless none is to be taken away. -/
theorem verdict_withoutProperties {names : List PropertyName} (hnames : names ≠ []) :
    verdict (h.withoutProperties names) = h.checkAccess .write := by
  obtain ⟨name, names, rfl⟩ := List.exists_cons_of_ne_nil hnames
  cases haccess : h.checkAccess .write with
  | ok u => exact verdict_withoutProperties_of_writable haccess
  | error e =>
    rw [withoutProperties, edited_of_refused haccess]
    rfl

theorem verdict_commit (h : StagedHolon) (id : LocalId) :
    verdict (h.commit id) = if h.isPending then .ok () else .error h.commitRefusal := by
  unfold commit
  split <;> rfl

end StagedHolon

theorem TransientHolon.verdict_stage (h : TransientHolon) :
    verdict h.stage = if h.isAccessible .write then .ok () else .error stageRefusal := by
  unfold stage isAccessible
  cases h.holonState <;> rfl

namespace SessionState

variable {s : SessionState} {target : StagedReference} {h : StagedHolon}

theorem getStaged_of_pooled {holon : Holon} (hget : s.stagedHolons.get? target.id = some holon) :
    s.getStaged target = (Reference.staged target).checkTx s.txId >>= fun _ => .ok holon := by
  simp only [getStaged, hget]

theorem getTransient_of_pooled {target : TransientReference} {holon : Holon}
    (hget : s.transientHolons.get? target.id = some holon) :
    s.getTransient target = (Reference.transient target).checkTx s.txId >>= fun _ => .ok holon := by
  simp only [getTransient, hget]

/-- A change of a holon that is there is refused with the wrong transaction, or as the change itself is. -/
theorem verdict_updateStaged (hget : s.stagedHolons.get? target.id = some (.staged h))
    (change : StagedHolon → Except Refusal StagedHolon) :
    verdict (s.updateStaged target change) =
      (Reference.staged target).checkTx s.txId >>= fun _ => verdict (change h) := by
  simp only [updateStaged, getStaged_of_pooled hget, Pool.update, hget]
  cases (Reference.staged target).checkTx s.txId with
  | error e => rfl
  | ok u => cases change h <;> rfl

end SessionState

namespace Store

variable {s : Store} {embed : Bool} {session : SessionState} {ids : IdSource}

@[simp] theorem verdict_answering (outcome : Except Refusal (ResponseBody × SessionState)) :
    verdict (s.answering outcome) = verdict outcome := verdict_map outcome _

theorem verdict_run_commitOne {target : StagedReference} {h : StagedHolon}
    (hget : session.stagedHolons.get? target.id = some (.staged h)) :
    verdict (s.run embed session (.commitOne target) ids).1 =
      (Reference.staged target).checkTx session.txId >>= fun _ =>
        if h.isPending then .ok () else .error h.commitRefusal := by
  simp only [run, SessionState.getStaged_of_pooled hget]
  cases (Reference.staged target).checkTx session.txId with
  | error e => rfl
  | ok u =>
    rw [← h.verdict_commit (.numbered (s.lastId + 1))]
    simp only [bind, Except.bind, commit, Pool.commitEach, Pool.update, hget, Pool.commitHolon]
    cases h.commit (.numbered (s.lastId + 1)) <;> rfl

theorem verdict_run_stageTransient {target : TransientReference} {h : TransientHolon}
    (hget : session.transientHolons.get? target.id = some (.transient h)) :
    verdict (s.run embed session (.stageTransient target) ids).1 =
      (Reference.transient target).checkTx session.txId >>= fun _ =>
        if h.isAccessible .write then .ok () else .error TransientHolon.stageRefusal := by
  simp only [run, takeTransient, SessionState.getTransient_of_pooled hget]
  cases (Reference.transient target).checkTx session.txId with
  | error e => rfl
  | ok u =>
    rw [← h.verdict_stage]
    simp only [bind, Except.bind, Holon.stage]
    cases h.stage <;> rfl

end Store

/-- A refusal that the content of a holon gives cause for, not what may be done with the holon. -/
inductive Refusal.OfContent : Refusal → Prop where
  | keyTaken (key : String) : OfContent (.duplicate "key" key)
  | notRelated (name : RelationshipName) : OfContent (.invalidParameter ("no relationship named " ++ name.text))

namespace Edit

variable {name : RelationshipName} {state : CollectionState} {c : Content} {e : Refusal}

theorem ofContent_addRelated {batch : List (Reference × Option String)} (hname : name.text.isEmpty = false)
    (h : ((addRelated name batch).apply state c).1 = .error e) : e.OfContent := by
  simp only [apply, RelationshipMap.addRelated, hname, Bool.false_eq_true, if_false, Collection.addReferences] at h
  cases hclash : Collection.clash? ((c.relationships.get? name).getD (.new state)).keyedIndex [] batch with
  | none => rw [hclash] at h; cases h
  | some key => rw [hclash] at h; cases h; exact .keyTaken key

theorem ofContent_removeRelated {references : List Reference}
    (h : ((removeRelated name references).apply state c).1 = .error e) : e.OfContent := by
  simp only [apply, RelationshipMap.removeRelated] at h
  cases hget : c.relationships.get? name with
  | some collection => rw [hget] at h; cases h
  | none => rw [hget] at h; cases h; exact .notRelated name

end Edit

namespace SessionState

/-- Each pool holds holons of its own kind only. -/
structure Typed (s : SessionState) : Prop where
  transient : ∀ e ∈ s.transientHolons.entries, e.2.asTransient?.isSome = true
  staged : ∀ e ∈ s.stagedHolons.entries, e.2.asStaged?.isSome = true

variable {s : SessionState}

theorem Typed.exists_staged (h : s.Typed) {id : TemporaryId} (hid : s.stagedHolons.contains id = true) :
    ∃ staged, s.stagedHolons.get? id = some (.staged staged) := by
  obtain ⟨holon, hget⟩ := Pool.contains_iff.1 hid
  have hkind := h.staged _ (SortedMap.get?_eq_some_iff.1 hget)
  cases holon with
  | staged staged => exact ⟨staged, hget⟩
  | _ => cases hkind

theorem Typed.exists_transient (h : s.Typed) {id : TemporaryId} (hid : s.transientHolons.contains id = true) :
    ∃ transient, s.transientHolons.get? id = some (.transient transient) := by
  obtain ⟨holon, hget⟩ := Pool.contains_iff.1 hid
  have hkind := h.transient _ (SortedMap.get?_eq_some_iff.1 hget)
  cases holon with
  | transient transient => exact ⟨transient, hget⟩
  | _ => cases hkind

/-- The pools hold the holon that the dance is about, and it alone decides whether the dance is refused. -/
inductive Shows (s : SessionState) : Dance → Prop where
  | withProperties {target : StagedReference} (properties : PropertyMap) :
    s.stagedHolons.contains target.id = true → s.Shows (.withProperties target properties)
  | removeProperties {target : StagedReference} {names : List PropertyName} :
    s.stagedHolons.contains target.id = true → names ≠ [] → s.Shows (.removeProperties target names)
  | abandonStagedChanges {target : StagedReference} :
    s.stagedHolons.contains target.id = true → s.Shows (.abandonStagedChanges target)
  | commitOne {target : StagedReference} :
    s.stagedHolons.contains target.id = true → s.Shows (.commitOne target)
  | stageTransient {target : TransientReference} :
    s.transientHolons.contains target.id = true → s.Shows (.stageTransient target)

/-- The pools hold the holon whose relationship the dance is about, but others decide as well. -/
inductive ShowsSource (s : SessionState) : Dance → Prop where
  | addRelatedHolons {target : StagedReference} {relationship : RelationshipName} (holons : List Reference) :
    s.stagedHolons.contains target.id = true → relationship.text.isEmpty = false →
    s.ShowsSource (.addRelatedHolons target relationship holons)
  | removeRelatedHolons {target : StagedReference} {relationship : RelationshipName} (holons : List Reference) :
    s.stagedHolons.contains target.id = true → relationship.text.isEmpty = false →
    s.ShowsSource (.removeRelatedHolons target relationship holons)

variable {target : StagedReference} {h : StagedHolon}

theorem checkStagedAccess_of_pooled (hget : s.stagedHolons.get? target.id = some (.staged h)) (access : Access) :
    s.checkStagedAccess target access =
      (Reference.staged target).checkTx s.txId >>= fun _ => h.checkAccess access := by
  simp only [checkStagedAccess, hget]
  rfl

theorem pooledStaged?_of_pooled (hget : s.stagedHolons.get? target.id = some (.staged h)) :
    s.pooledStaged? target = (Reference.staged target).checkTx s.txId >>= fun _ => .ok (some h) := by
  simp only [pooledStaged?, hget]
  rfl

end SessionState

namespace Server

/-- What a server that is not made to fail finds about a request. -/
def finds (s : Server) (r : DanceRequest) (ids : IdSource) : Except Refusal Unit :=
  verdict (r.order s.space >>= fun order => (s.runs r ids order).1)

variable {s : Server} {r : DanceRequest} {ids : IdSource}

theorem answer_of_finds_error (hready : s.failNext = none) {e : Refusal} (h : s.finds r ids = .error e) :
    (s.handle r ids).1.1 = .ofRefusal s.space e := by
  rw [finds, verdict_eq_error_iff] at h
  cases horder : r.order s.space with
  | error e' =>
    rw [horder] at h
    cases h
    simp only [handle, hready, horder]
  | ok order =>
    rw [horder] at h
    rcases hrun : s.runs r ids order with ⟨e' | served, ids'⟩
    · cases (congrArg Prod.fst hrun).symm.trans h
      rw [runs] at hrun
      simp only [handle, hready, horder, hrun]
    · cases (congrArg Prod.fst hrun).symm.trans h

theorem isSuccess_of_finds_ok (hready : s.failNext = none) (h : s.finds r ids = .ok ()) :
    (s.handle r ids).1.1.status.isSuccess = true := by
  obtain ⟨served, h⟩ := verdict_eq_ok_iff.1 h
  obtain ⟨order, horder, hrun⟩ := exists_of_bind_eq_ok h
  exact isSuccess_handle_iff.2 ⟨order, served, hready, horder, hrun⟩

end Server

namespace Dance

variable {s : SessionState} {space : SpaceId}

theorem request_eq_error_iff {d : Dance} {e : Refusal} : d.request space s = .error e ↔ d.guard s = .error e := by
  rw [request]
  cases d.guard s <;> simp [bind, Except.bind]

theorem finds_new (server : Server) (d : Dance) (space : SpaceId) (s : SessionState) (ids : IdSource) :
    server.finds (.new d.name d.kind d.body space s) ids =
      verdict (server.store.run server.embedProperties s d.order ids).1 := by
  rw [Server.finds, order_new]
  rfl

theorem removedNames_ne_nil {names : List PropertyName} (hnames : names ≠ []) :
    (SortedMap.ofList (names.map fun name => (name, (none : Option Value)))).keys ≠ [] := by
  obtain ⟨name, names, rfl⟩ := List.exists_cons_of_ne_nil hnames
  exact List.ne_nil_of_mem (SortedMap.mem_keys_insertMany_iff.2 (.inr List.mem_cons_self))

/-- **A guard that looks at all that decides comes to the server's verdict.** -/
theorem guard_eq_verdict {d : Dance} (hs : s.Typed) (hd : s.Shows d) (store : Store) (embed : Bool) (ids : IdSource) :
    d.guard s = verdict (store.run embed s d.order ids).1 := by
  cases hd with
  | @withProperties target properties hin =>
    obtain ⟨h, hget⟩ := hs.exists_staged hin
    have hedit : verdict (h.edited (.updateProperties properties)) = h.checkAccess .write :=
      StagedHolon.verdict_edited_of_fits rfl
    simp only [guard, order, Store.run, Store.verdict_answering, SessionState.checkStagedAccess_of_pooled hget,
      SessionState.verdict_updateStaged hget, hedit]
  | @removeProperties target names hin hnames =>
    obtain ⟨h, hget⟩ := hs.exists_staged hin
    simp only [guard, order, Store.run, Store.verdict_answering, SessionState.checkStagedAccess_of_pooled hget,
      SessionState.verdict_updateStaged hget, StagedHolon.verdict_withoutProperties (removedNames_ne_nil hnames)]
  | @abandonStagedChanges target hin =>
    obtain ⟨h, hget⟩ := hs.exists_staged hin
    simp only [guard, order, Store.run, Store.verdict_answering, SessionState.pooledStaged?_of_pooled hget,
      SessionState.verdict_updateStaged hget]
    cases (Reference.staged target).checkTx s.txId <;> rfl
  | @commitOne target hin =>
    obtain ⟨h, hget⟩ := hs.exists_staged hin
    simp only [guard, order, SessionState.pooledStaged?_of_pooled hget, Store.verdict_run_commitOne hget]
    cases (Reference.staged target).checkTx s.txId <;> rfl
  | @stageTransient target hin =>
    obtain ⟨h, hget⟩ := hs.exists_transient hin
    simp only [guard, order, hget, Store.verdict_run_stageTransient hget]
    rfl

/-- **A guard that does not look at all that decides is never stricter than the server**, and what it lets through is
refused for its content at most. -/
theorem verdict_eq_guard_bind {d : Dance} (hs : s.Typed) (hd : s.ShowsSource d) (store : Store) (embed : Bool)
    (ids : IdSource) :
    ∃ rest : Except Refusal Unit, verdict (store.run embed s d.order ids).1 = (d.guard s >>= fun _ => rest) ∧
      ∀ e, rest = .error e → e.OfContent := by
  cases hd with
  | @addRelatedHolons target relationship holons hin hname =>
    obtain ⟨h, hget⟩ := hs.exists_staged hin
    let edit := Edit.addRelated relationship (holons.map fun r => (r, store.referenceKey? s r))
    refine ⟨(edit.apply .staged h.content).1, ?_, fun e he => Edit.ofContent_addRelated hname he⟩
    simp only [guard, order, Store.run, hname, Store.verdict_answering, SessionState.verdict_updateStaged hget,
      SessionState.checkStagedAccess_of_pooled hget, StagedHolon.verdict_edited]
    cases (Reference.staged target).checkTx s.txId <;> rfl
  | @removeRelatedHolons target relationship holons hin hname =>
    obtain ⟨h, hget⟩ := hs.exists_staged hin
    let edit := Edit.removeRelated relationship holons
    refine ⟨(edit.apply .staged h.content).1, ?_, fun e he => Edit.ofContent_removeRelated he⟩
    simp only [guard, order, Store.run, hname, Store.verdict_answering, SessionState.verdict_updateStaged hget,
      SessionState.checkStagedAccess_of_pooled hget, StagedHolon.verdict_edited]
    cases (Reference.staged target).checkTx s.txId <;> rfl

section Foresight

variable {server : Server} {ids : IdSource} {d : Dance}

/-- A refusal that the server would find is what it answers with. -/
theorem answer_of_foreseen (hready : server.failNext = none)
    (hguard : d.guard s = server.finds (.new d.name d.kind d.body space s) ids) {e : Refusal}
    (he : d.request space s = .error e) :
    (server.handle (.new d.name d.kind d.body space s) ids).1.1 = .ofRefusal server.space e :=
  Server.answer_of_finds_error hready (hguard ▸ request_eq_error_iff.1 he)

theorem isSuccess_of_foreseen (hready : server.failNext = none)
    (hguard : d.guard s = server.finds (.new d.name d.kind d.body space s) ids) {q : DanceRequest}
    (hq : d.request space s = .ok q) :
    (server.handle (.new d.name d.kind d.body space s) ids).1.1.status.isSuccess = true :=
  Server.isSuccess_of_finds_ok hready (hguard ▸ guard_of_request hq)

/-- What an answer says of a refusal is what the guard has said, as far as an answer can say it. -/
theorem answer_tells_iff (hready : server.failNext = none)
    (hguard : d.guard s = server.finds (.new d.name d.kind d.body space s) ids) (e : Refusal) :
    let answer := (server.handle (.new d.name d.kind d.body space s) ids).1.1
    answer.status = .ofRefusal e ∧ answer.description = e.message ↔
      ∃ e', d.request space s = .error e' ∧ Status.ofRefusal e' = .ofRefusal e ∧ e'.message = e.message := by
  intro answer
  constructor
  · rintro ⟨hstatus, hmessage⟩
    cases hq : d.request space s with
    | ok q =>
      have hsuccess : answer.status.isSuccess = true := isSuccess_of_foreseen hready hguard hq
      rw [hstatus, Status.isSuccess_ofRefusal] at hsuccess
      cases hsuccess
    | error e' =>
      have hanswer : answer = .ofRefusal server.space e' := answer_of_foreseen hready hguard hq
      rw [hanswer] at hstatus hmessage
      exact ⟨e', rfl, hstatus, hmessage⟩
  · rintro ⟨e', he', hstatus, hmessage⟩
    have hanswer : answer = .ofRefusal server.space e' := answer_of_foreseen hready hguard he'
    rw [hanswer]
    exact ⟨hstatus, hmessage⟩

end Foresight

/-- **A guard is the server's own check, made earlier.**  Where the pools show all that decides, the guard refuses with
just the refusal that a server which is ready would find about the unguarded request, and says what that server would
answer; what the guard lets through the server runs.  A guard before a change of relationships is never stricter than
the server, and the server refuses what it lets through for its content at most. -/
theorem guards_foresee_the_server (server : Server) (hready : server.failNext = none) (space : SpaceId)
    (s : SessionState) (hs : s.Typed) (ids : IdSource) (d : Dance) :
    let unguarded := DanceRequest.new d.name d.kind d.body space s
    let answer := (server.handle unguarded ids).1.1
    (s.Shows d →
      (∀ e, d.request space s = .error e ↔ server.finds unguarded ids = .error e) ∧
      (∀ e, d.request space s = .error e → answer = .ofRefusal server.space e) ∧
      (∀ e, answer.status = .ofRefusal e ∧ answer.description = e.message ↔
        ∃ e', d.request space s = .error e' ∧ Status.ofRefusal e' = .ofRefusal e ∧ e'.message = e.message) ∧
      (∀ q, d.request space s = .ok q → q = unguarded ∧ answer.status.isSuccess = true)) ∧
    (s.ShowsSource d →
      (∀ e, d.request space s = .error e →
        server.finds unguarded ids = .error e ∧ answer = .ofRefusal server.space e) ∧
      (∀ q, d.request space s = .ok q → q = unguarded ∧
        ∀ e, server.finds unguarded ids = .error e → e.OfContent)) := by
  intro unguarded answer
  have hfinds : server.finds unguarded ids = verdict (server.store.run server.embedProperties s d.order ids).1 :=
    finds_new server d space s ids
  constructor
  · intro hd
    have hguard : d.guard s = server.finds unguarded ids := by rw [hfinds, guard_eq_verdict hs hd]
    exact ⟨fun e => by rw [request_eq_error_iff, hguard], fun e he => answer_of_foreseen hready hguard he,
      answer_tells_iff hready hguard, fun q hq => ⟨eq_of_request hq, isSuccess_of_foreseen hready hguard hq⟩⟩
  · intro hd
    obtain ⟨rest, hverdict, hrest⟩ := verdict_eq_guard_bind hs hd server.store server.embedProperties ids
    rw [← hfinds] at hverdict
    refine ⟨fun e he => ?_, fun q hq => ⟨eq_of_request hq, fun e he => hrest e ?_⟩⟩
    · have hfound : server.finds unguarded ids = .error e := by rw [hverdict, request_eq_error_iff.1 he]; rfl
      exact ⟨hfound, Server.answer_of_finds_error hready hfound⟩
    · rw [guard_of_request hq] at hverdict
      exact hverdict.symm.trans he

/-- An abandoned draft is refused before the request is made, and a server asked all the same answers so; a draft that
is still pending is committed. -/
theorem guards_foresee_the_server_of_drafts :
    let answer (id : TemporaryId) :=
      (Server.withOne.handle (Server.commitDrafts (.command ⟨⟨1⟩, id⟩)) (.ofPresets [])).1.1
    (answer (.numbered 2)).status = .serverError ∧
      (answer (.numbered 2)).description = "invalid transition: cannot commit a holon in Staged(Abandoned)" ∧
      (answer (.numbered 1)).status.isSuccess = true := by
  have htyped : Server.drafts.Typed := ⟨by decide +kernel, by decide +kernel⟩
  have hshows (id : TemporaryId) (hid : Server.drafts.stagedHolons.contains id = true) :
      Server.drafts.Shows (.commitOne ⟨⟨1⟩, id⟩) := .commitOne hid
  have hat (id : TemporaryId) := guards_foresee_the_server Server.withOne rfl ⟨"local"⟩ Server.drafts htyped
    (.ofPresets []) (.commitOne ⟨⟨1⟩, id⟩)
  obtain ⟨-, hrefused, -⟩ := (hat (.numbered 2)).1 (hshows _ (by decide +kernel))
  have hanswer := hrefused (.invalidTransition "cannot commit a holon in Staged(Abandoned)") rfl
  obtain ⟨-, -, -, hrun⟩ := (hat (.numbered 1)).1 (hshows _ (by decide +kernel))
  exact ⟨congrArg DanceResponse.status hanswer, congrArg DanceResponse.description hanswer,
    (hrun (Server.commitDrafts (.command ⟨⟨1⟩, .numbered 1⟩)) rfl).2⟩

end Dance

end Holarchy
