import Holarchy.Proofs.Server
import Holarchy.Proofs.Server.Numbering
import Holarchy.Proofs.SessionState
/-!
# Commits

A commit ends the staging of some pending holons one after the other, then takes out of the pool what is finished, now
or from before, and then persists what it committed.  `Store.commit_pending` says what comes of the three passes; a
commit of all that is pending and a commit of one holon are two cases of it.
-/
namespace Holarchy

namespace Pool

/-- An entry that can be committed, as one of a staged holon. -/
def asPending? (e : TemporaryId × Holon) : Option (TemporaryId × StagedHolon) :=
  match e.2 with
  | .staged h => if h.isPending then some (e.1, h) else none
  | _ => none

/-- The pending holons, in the order of their ids. -/
def pending (p : Pool) : List (TemporaryId × StagedHolon) := p.entries.filterMap asPending?

theorem asPending?_eq_some_iff {e : TemporaryId × Holon} {id : TemporaryId} {h : StagedHolon} :
    asPending? e = some (id, h) ↔ e = (id, .staged h) ∧ h.isPending = true := by
  obtain ⟨id', holon⟩ := e
  cases holon with
  | staged h' =>
    simp only [asPending?, Option.ite_none_right_eq_some, Option.some.injEq, Prod.mk.injEq, Holon.staged.injEq]
    constructor
    · rintro ⟨hpending, rfl, rfl⟩
      exact ⟨⟨rfl, rfl⟩, hpending⟩
    · rintro ⟨⟨rfl, rfl⟩, hpending⟩
      exact ⟨hpending, rfl, rfl⟩
  | _ => simp [asPending?]

theorem isSome_asPending? (e : TemporaryId × Holon) : (asPending? e).isSome = e.2.isPending := by
  obtain ⟨id, holon⟩ := e
  cases holon with
  | staged h => cases hp : h.isPending <;> simp [asPending?, Holon.isPending, hp]
  | _ => rfl

theorem mem_pending_iff {p : Pool} {id : TemporaryId} {h : StagedHolon} :
    (id, h) ∈ p.pending ↔ p.get? id = some (.staged h) ∧ h.isPending = true := by
  rw [pending, List.mem_filterMap, get?, SortedMap.get?_eq_some_iff]
  simp only [asPending?_eq_some_iff]
  constructor
  · rintro ⟨e, hmem, rfl, hpending⟩
    exact ⟨hmem, hpending⟩
  · rintro ⟨hmem, hpending⟩
    exact ⟨_, hmem, rfl, hpending⟩

theorem map_fst_pending (p : Pool) :
    p.pending.map Prod.fst = (p.entries.filter fun e => e.2.isPending).map Prod.fst := by
  rw [pending]
  induction p.entries with
  | nil => rfl
  | cons e es ih =>
    have hsome := isSome_asPending? e
    cases he : asPending? e with
    | none =>
      rw [he] at hsome
      rw [List.filterMap_cons_none he, List.filter_cons_of_neg (by simp [← hsome]), ih]
    | some e' =>
      rw [he] at hsome
      obtain ⟨rfl, -⟩ := asPending?_eq_some_iff.1 he
      rw [List.filterMap_cons_some he, List.filter_cons_of_pos (by simp [← hsome]), List.map_cons, List.map_cons, ih]

theorem nodup_pending (p : Pool) : (p.pending.map Prod.fst).Nodup := by
  rw [map_fst_pending, List.Nodup, List.pairwise_map]
  exact (List.Pairwise.filter _ p.holons.rising).imp KeyOrder.ne_of_before

/-- The second pool is the first with the staging of the holons under some ids ended. -/
structure Ends (p p' : Pool) (ids : List TemporaryId) : Prop where
  others : ∀ id, id ∉ ids → p'.get? id = p.get? id
  finished : ∀ id ∈ ids, ∃ h, p'.get? id = some h ∧ h.isFinished = true
  indexed : p.Indexed → p'.Indexed

theorem Ends.nil (p : Pool) : p.Ends p [] := ⟨fun _ _ => rfl, fun _ h => (by cases h), fun h => h⟩

theorem Ends.cons {p p' : Pool} {id : TemporaryId} {ids : List TemporaryId} {h : StagedHolon}
    (hends : (p.insert id (.staged h)).Ends p' ids) (hid : id ∉ ids) (hfinished : h.isPending = false) :
    p.Ends p' (id :: ids) where
  others j hj := by
    rw [List.mem_cons, not_or] at hj
    rw [hends.others j hj.2, get?_insert, if_neg hj.1]
  finished j hj := by
    rcases List.mem_cons.1 hj with rfl | hj
    · refine ⟨.staged h, ?_, by simp [Holon.isFinished, hfinished]⟩
      rw [hends.others j hid, get?_insert, if_pos rfl]
      rfl
    · exact hends.finished j hj
  indexed hp := hends.indexed (hp.insert id _)

theorem commitEach_cons {p : Pool} {last : UInt64} {id : TemporaryId} {ids : List TemporaryId} {h : StagedHolon}
    (hget : p.get? id = some (.staged h)) (hpending : h.isPending = true) :
    p.commitEach last (id :: ids) =
      ((p.insert id (.staged (h.committedAs (.numbered (last + 1))))).commitEach (last + 1) ids).map fun r =>
        (r.1, r.2.1, .staged (h.committedAs (.numbered (last + 1))) :: r.2.2) := by
  have hcommit : commitHolon (.numbered (last + 1)) (.staged h) =
      .ok (.staged (h.committedAs (.numbered (last + 1))), .staged (h.committedAs (.numbered (last + 1)))) := by
    simp only [commitHolon, StagedHolon.commit, hpending, if_true]
    rfl
  simp only [commitEach, update, hget, hcommit, bind, Except.bind, Except.map]

/-- **Pending holons are committed in order**, each under the id that follows the one before. -/
theorem commitEach_pending (last : UInt64) {p : Pool} {es : List (TemporaryId × StagedHolon)}
    (hnodup : (es.map Prod.fst).Nodup)
    (hes : ∀ e ∈ es, p.get? e.1 = some (.staged e.2) ∧ e.2.isPending = true) :
    ∃ p', p.commitEach last (es.map Prod.fst) = .ok (p', last + .ofNat es.length,
        (numbered last (es.map Prod.snd)).map fun e => .staged (e.2.committedAs e.1)) ∧
      p.Ends p' (es.map Prod.fst) := by
  induction es generalizing p last with
  | nil => exact ⟨p, by simp [commitEach], .nil p⟩
  | cons e es ih =>
    obtain ⟨id, h⟩ := e
    rw [List.map_cons, List.nodup_cons] at hnodup
    obtain ⟨hget, hpending⟩ := hes _ List.mem_cons_self
    -- The holons behind this one stand in the pool as they did before it was committed.
    have hrest : ∀ e ∈ es, (p.insert id (.staged (h.committedAs (.numbered (last + 1))))).get? e.1 =
        some (.staged e.2) ∧ e.2.isPending = true := fun e he => by
      have hne : e.1 ≠ id := by
        rintro rfl
        exact hnodup.1 (List.mem_map.2 ⟨e, he, rfl⟩)
      rw [get?_insert, if_neg hne]
      exact hes e (List.mem_cons_of_mem _ he)
    obtain ⟨p', hcommit, hends⟩ := ih (last + 1) hnodup.2 hrest
    refine ⟨p', ?_, hends.cons hnodup.1 rfl⟩
    have hlast : last + 1 + UInt64.ofNat es.length = last + UInt64.ofNat (es.length + 1) := by
      rw [UInt64.ofNat_add, UInt64.add_assoc, UInt64.add_comm (.ofNat es.length)]
      rfl
    simp only [List.map_cons, commitEach_cons hget hpending, hcommit, Except.map, numbered_cons, List.length_cons,
      hlast]

theorem commitEach_cons_ok {p : Pool} {last : UInt64} {id : TemporaryId} {ids : List TemporaryId}
    {r : Pool × UInt64 × List Holon} (h : p.commitEach last (id :: ids) = .ok r) :
    ∃ h : StagedHolon, p.get? id = some (.staged h) ∧ h.isPending = true := by
  simp only [commitEach, update, bind, Except.bind] at h
  cases hget : p.get? id with
  | none => rw [hget] at h; cases h
  | some holon =>
    rw [hget] at h
    cases holon with
    | staged staged =>
      cases hpending : staged.isPending with
      | true => exact ⟨staged, rfl, hpending⟩
      | false => simp [commitHolon, StagedHolon.commit, hpending, Except.map] at h
    | _ => cases h

theorem get?_foldl_remove (ids : List TemporaryId) (p : Pool) (j : TemporaryId) :
    (ids.foldl remove p).get? j = if j ∈ ids then none else p.get? j := by
  induction ids generalizing p with
  | nil => rfl
  | cons id ids ih =>
    rw [List.foldl_cons, ih, get?_remove]
    by_cases hj : j = id <;> simp [hj]

theorem indexed_foldl_remove (ids : List TemporaryId) {p : Pool} (h : p.Indexed) : (ids.foldl remove p).Indexed := by
  induction ids generalizing p with
  | nil => exact h
  | cons id ids ih => exact ih (h.remove id)

theorem get?_withoutFinished_eq_some_iff {p : Pool} {id : TemporaryId} {h : Holon} :
    p.withoutFinished.get? id = some h ↔ p.get? id = some h ∧ h.isFinished = false := by
  have hmem : id ∈ (p.entries.filter fun e => e.2.isFinished).map Prod.fst ↔
      ∃ h, p.get? id = some h ∧ h.isFinished = true := by
    simp only [List.mem_map, List.mem_filter, get?, SortedMap.get?_eq_some_iff]
    constructor
    · rintro ⟨⟨_, h⟩, he, rfl⟩
      exact ⟨h, he⟩
    · rintro ⟨h, he⟩
      exact ⟨(id, h), he, rfl⟩
  rw [withoutFinished, get?_foldl_remove]
  split
  · rename_i hin
    obtain ⟨h', hget, hfinished⟩ := hmem.1 hin
    simp only [hget, Option.some.injEq, reduceCtorEq, false_iff, not_and]
    rintro rfl
    simp [hfinished]
  · rename_i hout
    refine ⟨fun hget => ⟨hget, ?_⟩, And.left⟩
    exact Bool.eq_false_iff.2 fun hfinished => hout (hmem.2 ⟨h, hget, hfinished⟩)

theorem Ends.holons_withoutFinished {p p' : Pool} {ids : List TemporaryId} (h : p.Ends p' ids) :
    p'.withoutFinished.holons = p.holons.filter fun id holon => !ids.contains id && !holon.isFinished := by
  refine SortedMap.ext_get? fun id => Option.ext fun holon => ?_
  rw [SortedMap.get?_filter_eq_some_iff]
  refine get?_withoutFinished_eq_some_iff.trans ?_
  by_cases hid : id ∈ ids
  · obtain ⟨ended, hget, hfinished⟩ := h.finished id hid
    simp only [hget, Option.some.injEq, List.contains_iff_mem.2 hid, Bool.not_true, Bool.false_and, Bool.false_eq_true,
      and_false, iff_false, not_and]
    rintro rfl
    simp [hfinished]
  · have hget : p'.get? id = p.holons.get? id := h.others id hid
    simp [hget, hid]

end Pool

namespace SessionState

/-- The holons that a commit of a kind is about: one that is named, or all that are pending. -/
def chosen (s : SessionState) : DanceType → List (TemporaryId × StagedHolon)
  | .command target =>
    match s.stagedHolons.get? target.id with
    | some (.staged h) => [(target.id, h)]
    | _ => []
  | _ => s.stagedHolons.pending

end SessionState

namespace Store

theorem foldl_persist (new : List (LocalId × StagedHolon)) (s : Store) :
    (new.map fun e => Holon.staged (e.2.committedAs e.1)).foldl persist s =
      { s with saved := s.saved.insertMany (new.map fun e => (e.1, e.2.savedAs e.1)) } := by
  induction new generalizing s with
  | nil => rfl
  | cons e new ih => exact ih { s with saved := s.saved.insert e.1 (e.2.savedAs e.1) }

structure Commits (s : Store) (session : SessionState) (es : List (TemporaryId × StagedHolon)) (served : Served) :
    Prop where
  body : served.body = .holons ((numbered s.lastId (es.map Prod.snd)).map fun e => .staged (e.2.committedAs e.1))
  store : served.store = s.gaining (es.map Prod.snd)
  staged : served.session.stagedHolons.holons =
    session.stagedHolons.holons.filter fun id h => !(es.map Prod.fst).contains id && !h.isFinished
  others : served.session = session.withStaged served.session.stagedHolons
  indexed : session.stagedHolons.Indexed → served.session.stagedHolons.Indexed

/-- **A commit of pending holons is never refused.** -/
theorem commit_pending (s : Store) {session : SessionState} {es : List (TemporaryId × StagedHolon)}
    (hnodup : (es.map Prod.fst).Nodup)
    (hes : ∀ e ∈ es, session.stagedHolons.get? e.1 = some (.staged e.2) ∧ e.2.isPending = true) :
    ∃ served, s.commit session (es.map Prod.fst) = .ok served ∧ s.Commits session es served := by
  obtain ⟨pool, hcommit, hends⟩ := Pool.commitEach_pending s.lastId hnodup hes
  have hserved : s.commit session (es.map Prod.fst) =
      .ok ⟨.holons ((numbered s.lastId (es.map Prod.snd)).map fun e => .staged (e.2.committedAs e.1)),
        session.withStaged pool.withoutFinished, s.gaining (es.map Prod.snd)⟩ := by
    simp only [commit, hcommit, bind, Except.bind, foldl_persist, gaining, additions, List.map_map, List.length_map]
    rfl
  exact ⟨_, hserved, {
    body := rfl
    store := rfl
    staged := hends.holons_withoutFinished
    others := rfl
    indexed := fun h => Pool.indexed_foldl_remove _ (hends.indexed h) }⟩

theorem run_commitAll (s : Store) (embed : Bool) (session : SessionState) (ids : IdSource) :
    ∃ served, (s.run embed session .commitAll ids).1 = .ok served ∧
      s.Commits session (session.chosen .standalone) served := by
  rw [run, SessionState.pendingIds, ← Pool.map_fst_pending]
  exact s.commit_pending (Pool.nodup_pending _) fun e he => Pool.mem_pending_iff.1 he

/-- One pending holon, as a list of those to commit. -/
theorem pending_singleton {session : SessionState} {id : TemporaryId} {h : StagedHolon}
    (hget : session.stagedHolons.get? id = some (.staged h)) (hpending : h.isPending = true) :
    ([(id, h)].map Prod.fst).Nodup ∧
      ∀ e ∈ [(id, h)], session.stagedHolons.get? e.1 = some (.staged e.2) ∧ e.2.isPending = true := by
  refine ⟨List.nodup_cons.2 ⟨List.not_mem_nil, .nil⟩, fun e he => ?_⟩
  cases List.mem_singleton.1 he
  exact ⟨hget, hpending⟩

theorem run_commitOne (s : Store) (embed : Bool) {session : SessionState} {target : StagedReference} {h : StagedHolon}
    (htx : target.txId = session.txId) (hget : session.stagedHolons.get? target.id = some (.staged h))
    (hpending : h.isPending = true) (ids : IdSource) :
    ∃ served, (s.run embed session (.commitOne target) ids).1 = .ok served ∧
      s.Commits session (session.chosen (.command target)) served := by
  have hstaged := SessionState.getStaged_eq_ok_iff.2 ⟨htx, hget⟩
  have hchosen : session.chosen (.command target) = [(target.id, h)] := by simp only [SessionState.chosen, hget]
  simp only [run, hstaged, hchosen]
  obtain ⟨hnodup, hes⟩ := pending_singleton hget hpending
  exact s.commit_pending hnodup hes

theorem run_commitOne_ok {s : Store} {embed : Bool} {session : SessionState} {target : StagedReference} {ids : IdSource}
    {served : Served} (h : (s.run embed session (.commitOne target) ids).1 = .ok served) :
    target.txId = session.txId ∧
      ∃ h : StagedHolon, session.stagedHolons.get? target.id = some (.staged h) ∧ h.isPending = true := by
  simp only [run] at h
  cases hstaged : session.getStaged target with
  | error e => rw [hstaged] at h; cases h
  | ok holon =>
    refine ⟨(SessionState.getStaged_eq_ok_iff.1 hstaged).1, ?_⟩
    simp only [hstaged, commit, bind, Except.bind] at h
    cases hcommit : session.stagedHolons.commitEach s.lastId [target.id] with
    | error e => rw [hcommit] at h; cases h
    | ok r => exact Pool.commitEach_cons_ok hcommit

end Store

namespace Server

variable {server : Server} {r : DanceRequest} {ids : IdSource}

theorem order_commitAll (space : SpaceId) (hname : r.name = "commit") (hbody : r.body = .none)
    (hkind : r.kind = .standalone) : r.order space = .ok .commitAll := by
  simp only [DanceRequest.order, hname, hbody, hkind]
  rfl

theorem order_commitOne (space : SpaceId) (hname : r.name = "commit") (hbody : r.body = .none)
    {target : StagedReference} (hkind : r.kind = .command target) : r.order space = .ok (.commitOne target) := by
  simp only [DanceRequest.order, hname, hbody, hkind]
  rfl

/-- **What a commit that succeeds gives**, whatever kind it is of. -/
theorem commits_of_isSuccess (hname : r.name = "commit") (hbody : r.body = .none)
    (hok : (server.handle r ids).1.1.status.isSuccess = true) :
    ∃ served, server.store.Commits r.context.state (r.context.state.chosen r.kind) served ∧
      (server.handle r ids).1 =
        (.ok server.space served.body served.session, { server with store := served.store }) := by
  obtain ⟨order, served, hready, horder, hrun⟩ := isSuccess_handle_iff.1 hok
  refine ⟨served, ?_, handle_of_runs hready horder hrun⟩
  cases hkind : r.kind with
  | standalone =>
    rw [order_commitAll server.space hname hbody hkind] at horder
    cases horder
    obtain ⟨served', hrun', hcommits⟩ :=
      server.store.run_commitAll server.embedProperties r.context.state ids
    rw [runs, hrun'] at hrun
    cases hrun
    exact hcommits
  | command target =>
    rw [order_commitOne server.space hname hbody hkind] at horder
    cases horder
    obtain ⟨htx, h, hget, hpending⟩ := Store.run_commitOne_ok hrun
    obtain ⟨served', hrun', hcommits⟩ := server.store.run_commitOne server.embedProperties htx hget hpending ids
    rw [runs, hrun'] at hrun
    cases hrun
    exact hcommits
  | _ =>
    simp only [DanceRequest.order, hname, hbody, hkind] at horder
    cases horder

/-- **A commit conserves holons.**  All that is pending can always be committed, one holon just if it is pending in the
pool and named under the transaction of the session.  What is committed goes into the store behind what is there, under
the numbers that follow the counter, and out of the pool; of what else was in the pool all is left but what was finished
before.  A commit that is refused changes nothing. -/
theorem commit_conserves_holons (server : Server) (r : DanceRequest) (ids : IdSource) (hname : r.name = "commit")
    (hbody : r.body = .none) (hready : server.failNext = none) (hcounted : server.store.Counted) :
    let s := r.context.state
    let answer := (server.handle r ids).1.1
    let store' := (server.handle r ids).1.2.store
    (r.kind = .standalone → answer.status.isSuccess = true) ∧
      (∀ target, r.kind = .command target → (answer.status.isSuccess = true ↔
        target.txId = s.txId ∧
          ∃ h : StagedHolon, s.stagedHolons.get? target.id = some (.staged h) ∧ h.isPending = true)) ∧
      (answer.status.isSuccess = true →
        let hs := (s.chosen r.kind).map Prod.snd
        let new := numbered server.store.lastId hs
        answer.body = .holons (new.map fun e => .staged (e.2.committedAs e.1)) ∧
          (server.store.HasRoom hs.length →
            store'.saved.entries = server.store.saved.entries ++ new.map (fun e => (e.1, e.2.savedAs e.1)) ∧
              store'.lastId.toNat = server.store.lastId.toNat + hs.length) ∧
          ∃ s', answer.snapshot = some s' ∧
            (s'.stagedHolons.holons = s.stagedHolons.holons.filter fun id h =>
              !((s.chosen r.kind).map Prod.fst).contains id && !h.isFinished) ∧
            s'.transientHolons = s.transientHolons ∧ s'.txId = s.txId ∧ s'.localHolonSpace = s.localHolonSpace) ∧
      (answer.status.isSuccess = false → store' = server.store ∧ answer.snapshot = none) := by
  intro s answer store'
  refine ⟨fun hkind => ?_, fun target hkind => ⟨fun hok => ?_, fun ⟨htx, h, hget, hpending⟩ => ?_⟩, fun hok => ?_,
    handle_refused⟩
  · obtain ⟨served, hrun, -⟩ := server.store.run_commitAll server.embedProperties s ids
    exact isSuccess_handle_iff.2 ⟨_, served, hready, order_commitAll server.space hname hbody hkind, hrun⟩
  · obtain ⟨order, served, -, horder, hrun⟩ := isSuccess_handle_iff.1 hok
    rw [order_commitOne server.space hname hbody hkind] at horder
    cases horder
    exact Store.run_commitOne_ok hrun
  · obtain ⟨served, hrun, -⟩ := server.store.run_commitOne server.embedProperties htx hget hpending ids
    exact isSuccess_handle_iff.2 ⟨_, served, hready, order_commitOne server.space hname hbody hkind, hrun⟩
  · obtain ⟨served, hcommits, hhandle⟩ := commits_of_isSuccess hname hbody hok
    intro hs new
    have hbody' : answer.body = served.body := congrArg (fun a => a.1.body) hhandle
    have hsnapshot : answer.snapshot = some served.session := congrArg (fun a => a.1.snapshot) hhandle
    have hstore : store' = server.store.gaining hs := (congrArg (fun a => a.2.store) hhandle).trans hcommits.store
    refine ⟨hbody'.trans hcommits.body, fun hroom => ⟨?_, ?_⟩, served.session, hsnapshot, hcommits.staged, ?_⟩
    · rw [hstore, hcounted.entries_gaining hroom, Store.additions, List.map_map]
      rfl
    · rw [hstore, hroom.toNat_gaining]
    · rw [hcommits.others]
      exact ⟨rfl, rfl, rfl⟩

def withOne : Server := ((new ⟨"local"⟩).seed ∅).1

def draft (key : String) (state : StagedState) : StagedHolon :=
  ⟨1, .mutable, state, .required, .ofValues [(keyProperty, .string key)], ∅, none, []⟩

/-- Two drafts, and between them one that was abandoned. -/
def drafts : SessionState :=
  let pool := (∅ : Pool).insert (.numbered 1) (draft "first" .forCreate)
  let pool := pool.insert (.numbered 2) (draft "second" .abandoned)
  { SessionState.new ⟨1⟩ with stagedHolons := pool.insert (.numbered 3) (draft "third" .forCreate) }

def commitDrafts (kind : DanceType) : DanceRequest := .new "commit" kind .none ⟨"local"⟩ drafts

/-- The two drafts go into the store and the pool is empty then; the abandoned one cannot be committed. -/
theorem commit_conserves_holons_of_drafts :
    (∃ s', (withOne.handle (commitDrafts .standalone) (.ofPresets [])).1.1.snapshot = some s' ∧
      s'.stagedHolons.holons = ∅ ∧
      (withOne.handle (commitDrafts .standalone) (.ofPresets [])).1.2.store.saved.entries.map
        (fun e => (e.1, e.2.properties.key?)) =
          [(.numbered 1, none), (.numbered 2, some "first"), (.numbered 3, some "third")]) ∧
      (withOne.handle (commitDrafts (.command ⟨⟨1⟩, .numbered 2⟩)) (.ofPresets [])).1.1.status.isSuccess = false := by
  have hroom : Store.empty.HasRoom 1 := by decide
  have hcounted : withOne.store.Counted := Store.counted_empty.adding hroom _
  obtain ⟨hall, -, hgives, -⟩ :=
    commit_conserves_holons withOne (commitDrafts .standalone) (.ofPresets []) rfl rfl rfl hcounted
  obtain ⟨-, hone, -, -⟩ := commit_conserves_holons withOne (commitDrafts (.command ⟨⟨1⟩, .numbered 2⟩)) (.ofPresets [])
    rfl rfl rfl hcounted
  obtain ⟨-, hstore, s', hsnapshot, hpool, -⟩ := hgives (hall rfl)
  refine ⟨⟨s', hsnapshot, ?_, ?_⟩, Bool.eq_false_iff.2 fun hok => ?_⟩
  · rw [hpool]
    decide +kernel
  · rw [(hstore (by decide +kernel)).1]
    decide +kernel
  · obtain ⟨-, h, hget, hpending⟩ := (hone _ rfl).1 hok
    cases hget
    cases hpending

end Server

end Holarchy
