import Holarchy.Client
import Holarchy.Proofs.Dance
import Holarchy.Proofs.Server.Commit
import Holarchy.Proofs.Server.Effects
/-!
# Keys across a commit

A commit writes the holon that it ends back into the pool, and a write takes the key of its holon; then it takes the
holon out, and its key goes with it.  A key that led to another holon, which stays, leads nowhere then if the committed
holon has it too.  In no other way does a commit hide what it leaves.
-/
namespace Holarchy

namespace Pool

variable {p : Pool} {key : String} {id : TemporaryId}

/-- A commit of the target leaves the entry where it is. -/
def Outlives (p : Pool) (target id : TemporaryId) : Prop := id ≠ target ∧ ∃ h, p.get? id = some h ∧ h.isFinished = false

theorem idOfKey?_foldl_remove_eq_some_iff (ids : List TemporaryId) :
    (ids.foldl remove p).idOfKey? key = some id ↔ p.idOfKey? key = some id ∧ id ∉ ids := by
  induction ids generalizing p with
  | nil => simp
  | cons j ids ih =>
    rw [List.foldl_cons, ih, idOfKey?_remove_eq_some_iff, List.mem_cons, not_or, and_assoc]

/-- An index entry goes with a holon that is finished, and with no other. -/
theorem idOfKey?_withoutFinished_eq_some_iff :
    p.withoutFinished.idOfKey? key = some id ↔
      p.idOfKey? key = some id ∧ ∀ h, p.get? id = some h → h.isFinished = false := by
  rw [withoutFinished, idOfKey?_foldl_remove_eq_some_iff]
  refine and_congr_right fun _ => ?_
  constructor
  · intro hkept h hget
    have hmem := SortedMap.get?_eq_some_iff.1 hget
    refine Bool.eq_false_iff.2 fun hfinished => hkept (List.mem_map.2 ⟨(id, h), ?_, rfl⟩)
    exact List.mem_filter.2 ⟨hmem, hfinished⟩
  · intro hopen hmem
    obtain ⟨⟨j, h⟩, he, rfl⟩ := List.mem_map.1 hmem
    obtain ⟨hentry, hfinished⟩ := List.mem_filter.1 he
    rw [hopen h (SortedMap.get?_eq_some_iff.2 hentry)] at hfinished
    cases hfinished

/-- **Holons that are committed take their keys** from whatever these led to. -/
theorem idOfKey?_commitEach_eq_some_iff {ids : List TemporaryId} {last : UInt64} {r : Pool × UInt64 × List Holon}
    (hnodup : ids.Nodup) (h : p.commitEach last ids = .ok r) (hid : id ∉ ids) :
    r.1.idOfKey? key = some id ↔ p.idOfKey? key = some id ∧ ∀ j ∈ ids, ¬ p.Carries key j := by
  induction ids generalizing p last r with
  | nil =>
    cases h
    simp
  | cons j ids ih =>
    obtain ⟨staged, hget, hpending⟩ := commitEach_cons_ok h
    rw [commitEach_cons hget hpending] at h
    obtain ⟨r', hrest, rfl⟩ := exists_of_map_eq_ok h
    rw [List.nodup_cons] at hnodup
    rw [List.mem_cons, not_or] at hid
    have hkey : p.Carries key j ↔ staged.properties.key? = some key := by
      rw [Carries, hget]
      simp only [Option.some.injEq, exists_eq_left']
      rfl
    have hwritten : (Holon.staged (staged.committedAs (.numbered (last + 1)))).key? = staged.properties.key? := rfl
    -- The write changes nothing under the ids behind it.
    have hbehind : (∀ i ∈ ids, ¬ (p.insert j (.staged (staged.committedAs (.numbered (last + 1))))).Carries key i) ↔
        ∀ i ∈ ids, ¬ p.Carries key i := by
      refine forall₂_congr fun i hi => ?_
      have hne : i ≠ j := by
        rintro rfl
        exact hnodup.1 hi
      rw [carries_insert_iff, if_neg hne]
    rw [ih hnodup.2 hrest hid.2, idOfKey?_insert_eq_some_iff, hwritten, hbehind, List.forall_mem_cons, hkey]
    by_cases hsame : staged.properties.key? = some key <;> simp [hsame, hid.1]

end Pool

namespace Store

/-- **The index after a commit**: an entry is left just if it leads to a holon that stays and no committed holon has its
key. -/
theorem idOfKey?_commit_eq_some_iff {s : Store} {session : SessionState} {es : List (TemporaryId × StagedHolon)}
    {served : Served} {key : String} {id : TemporaryId} (hnodup : (es.map Prod.fst).Nodup)
    (hes : ∀ e ∈ es, session.stagedHolons.get? e.1 = some (.staged e.2) ∧ e.2.isPending = true)
    (h : s.commit session (es.map Prod.fst) = .ok served) :
    served.session.stagedHolons.idOfKey? key = some id ↔
      session.stagedHolons.idOfKey? key = some id ∧
        (id ∉ es.map Prod.fst ∧ ∀ h, session.stagedHolons.get? id = some h → h.isFinished = false) ∧
        ∀ j ∈ es.map Prod.fst, ¬ session.stagedHolons.Carries key j := by
  obtain ⟨p', hcommit, hends⟩ := Pool.commitEach_pending s.lastId hnodup hes
  simp only [commit, hcommit, bind, Except.bind, Except.ok.injEq] at h
  subst h
  refine Pool.idOfKey?_withoutFinished_eq_some_iff.trans ?_
  by_cases hid : id ∈ es.map Prod.fst
  · obtain ⟨ended, hget, hfinished⟩ := hends.finished id hid
    simp [hget, hfinished, hid]
  · have hindex : p'.idOfKey? key = some id ↔ _ := Pool.idOfKey?_commitEach_eq_some_iff hnodup hcommit hid
    rw [hends.others id hid, hindex, and_iff_right hid, and_right_comm, and_assoc]

/-- **What a commit of one holon leaves** stands where it stood, and its key leads to it unless the committed holon has
the same: then the key leads nowhere. -/
theorem commitOne_leaves {s : Store} {embed : Bool} {session : SessionState} {target : StagedReference} {ids : IdSource}
    {served : Served} (h : (s.run embed session (.commitOne target) ids).1 = .ok served) :
    ∃ t, session.stagedHolons.get? target.id = some (.staged t) ∧ served.session.txId = session.txId ∧
      ∀ key id, session.stagedHolons.idOfKey? key = some id → session.stagedHolons.Outlives target.id id →
        served.session.stagedHolons.get? id = session.stagedHolons.get? id ∧
          served.session.stagedHolons.idOfKey? key = if t.properties.key? = some key then none else some id := by
  obtain ⟨htx, t, hget, hpending⟩ := run_commitOne_ok h
  have hcommit : s.commit session [target.id] = .ok served := by
    simpa only [run, SessionState.getStaged_eq_ok_iff.2 ⟨htx, hget⟩] using h
  obtain ⟨hnodup, hes⟩ := pending_singleton hget hpending
  obtain ⟨served', hcommit', hcommits⟩ := s.commit_pending hnodup hes
  cases hcommit.symm.trans hcommit'
  refine ⟨t, hget, by rw [hcommits.others]; rfl, ?_⟩
  rintro key id hindex ⟨hother, holon, hstays, hopen⟩
  have hcarries : session.stagedHolons.Carries key target.id ↔ t.properties.key? = some key := by
    rw [Pool.Carries, hget]
    simp only [Option.some.injEq, exists_eq_left']
    rfl
  have hlaw {j : TemporaryId} : served.session.stagedHolons.idOfKey? key = some j ↔ _ :=
    idOfKey?_commit_eq_some_iff hnodup hes hcommit
  simp only [List.map_cons, List.map_nil, List.mem_singleton, forall_eq, hcarries] at hlaw
  constructor
  · rw [hstays, Pool.get?, hcommits.staged, SortedMap.get?_filter_eq_some_iff]
    exact ⟨hstays, by simp [hother, hopen]⟩
  · split
    · rename_i hshared
      refine Option.eq_none_iff_forall_ne_some.2 fun j hj => ?_
      exact (hlaw.1 hj).2.2 hshared
    · rename_i hapart
      refine hlaw.2 ⟨hindex, ⟨hother, fun h' hget' => ?_⟩, hapart⟩
      cases hstays.symm.trans hget'
      exact hopen

end Store

namespace Server

/-- The answer to the question under which id a session has staged the holon of a key. -/
def answerKey (server : Server) (key : String) (s : SessionState) (ids : IdSource) : DanceResponse :=
  let d := Dance.getStagedHolonByKey key
  (server.handle (.new d.name d.kind d.body server.space s) ids).1.1

theorem answerKey_eq {server : Server} (hready : server.failNext = none) (key : String) (s : SessionState)
    (ids : IdSource) :
    server.answerKey key s ids =
      match s.stagedHolons.idOfKey? key with
      | some id => .ok server.space (.reference (.staged (s.stagedReference id))) s
      | none => .ofRefusal server.space (.notFound ("staged holon with key " ++ key)) := by
  have hkey : PropertyMap.key? (SortedMap.ofList [(keyProperty, some (.string key))]) = some key := by
    rw [PropertyMap.key?_eq_some_iff]
    exact (SortedMap.get?_insert _ _ _ _).trans (if_pos rfl)
  have horder := (Dance.getStagedHolonByKey key).order_new server.space server.space s
  simp only [answerKey, handle, hready, horder, Dance.order, Store.run, Store.findStaged, hkey]
  unfold DanceRequest.new
  cases s.stagedHolons.idOfKey? key <;> rfl

/-- **A commit of one holon hides what it leaves exactly if the two have a key in common.**  A holon that stays is
unchanged.  A key that led to it leads to it afterwards, and is answered as before by the client and by every server,
unless the committed holon has that key: then it leads nowhere. -/
theorem commit_leaves_findable_iff (server : Server) (r : DanceRequest) (ids : IdSource) (target : StagedReference)
    (hname : r.name = "commit") (hkind : r.kind = .command target) (hbody : r.body = .none)
    (hok : (server.handle r ids).1.1.status.isSuccess = true) :
    let s := r.context.state
    ∃ t s', s.stagedHolons.get? target.id = some (.staged t) ∧ (server.handle r ids).1.1.snapshot = some s' ∧
      ∀ key id, s.stagedHolons.idOfKey? key = some id → s.stagedHolons.Outlives target.id id →
        s'.stagedHolons.get? id = s.stagedHolons.get? id ∧
          s'.stagedHolons.idOfKey? key = (if t.properties.key? = some key then none else some id) ∧
          (∀ c c' : Client, c.state = s → c'.state = s' →
            c.findStagedByKey key = some ⟨s.txId, id⟩ ∧
              c'.findStagedByKey key = if t.properties.key? = some key then none else some ⟨s.txId, id⟩) ∧
          ∀ (asked : Server) (drawn : IdSource), asked.failNext = none →
            asked.answerKey key s drawn = .ok asked.space (.reference (.staged ⟨s.txId, id⟩)) s ∧
              asked.answerKey key s' drawn =
                if t.properties.key? = some key then
                  .ofRefusal asked.space (.notFound ("staged holon with key " ++ key))
                else .ok asked.space (.reference (.staged ⟨s.txId, id⟩)) s' := by
  intro s
  obtain ⟨order, served, hready, horder, hrun⟩ := isSuccess_handle_iff.1 hok
  have hsnapshot : (server.handle r ids).1.1.snapshot = some served.session :=
    congrArg (fun a => a.1.snapshot) (handle_of_runs hready horder hrun)
  rw [order_commitOne server.space hname hbody hkind] at horder
  cases horder
  obtain ⟨t, hget, htx, hleaves⟩ := Store.commitOne_leaves hrun
  refine ⟨t, served.session, hget, hsnapshot, fun key id hindex hlives => ?_⟩
  obtain ⟨hsame, hafter⟩ := hleaves key id hindex hlives
  have hreference : served.session.stagedReference id = ⟨s.txId, id⟩ := by rw [SessionState.stagedReference, htx]
  refine ⟨hsame, hafter, fun c c' hc hc' => ?_, fun asked drawn hasked => ?_⟩
  · rw [Client.findStagedByKey, Client.findStagedByKey, hc, hc', hindex, hafter]
    refine ⟨rfl, ?_⟩
    by_cases hshared : t.properties.key? = some key
    · simp only [if_pos hshared, Option.map_none]
    · simp only [if_neg hshared, Option.map_some, hreference]
  · rw [answerKey_eq hasked, answerKey_eq hasked, hindex, hafter]
    refine ⟨rfl, ?_⟩
    by_cases hshared : t.properties.key? = some key
    · simp only [if_pos hshared]
    · simp only [if_neg hshared, hreference]

/-- The third of the drafts stays where it is found when the first is committed. -/
theorem commit_leaves_findable_iff_of_drafts :
    ∃ s', (withOne.handle (commitDrafts (.command ⟨⟨1⟩, .numbered 1⟩)) (.ofPresets [])).1.1.snapshot = some s' ∧
      s'.stagedHolons.idOfKey? "third" = some (.numbered 3) := by
  obtain ⟨t, s', hget, hsnapshot, hleaves⟩ := commit_leaves_findable_iff withOne
    (commitDrafts (.command ⟨⟨1⟩, .numbered 1⟩)) (.ofPresets []) ⟨⟨1⟩, .numbered 1⟩ rfl rfl rfl (by decide +kernel)
  have hlives : drafts.stagedHolons.Outlives (.numbered 1) (.numbered 3) :=
    ⟨by decide +kernel, .staged (draft "third" .forCreate), by decide +kernel, rfl⟩
  obtain ⟨-, hindex, -⟩ := hleaves "third" (.numbered 3) (by decide +kernel) hlives
  have hfirst : drafts.stagedHolons.get? (.numbered 1) = some (.staged (draft "first" .forCreate)) := by decide +kernel
  cases hfirst.symm.trans hget
  exact ⟨s', hsnapshot, hindex⟩

/-- Two drafts with one key, which leads to the second. -/
def namesakes : SessionState :=
  let pool := (∅ : Pool).insert (.numbered 1) (draft "book" .forCreate)
  { SessionState.new ⟨1⟩ with stagedHolons := pool.insert (.numbered 2) (draft "book" .forCreate) }

/-- The namesakes without the first, once it has been written again. -/
def secondAlone : SessionState :=
  namesakes.withStaged ((namesakes.stagedHolons.insert (.numbered 1) (draft "book" .forCreate)).remove (.numbered 1))

def commitFirst : DanceRequest := .new "commit" (.command ⟨⟨1⟩, .numbered 1⟩) .none ⟨"local"⟩ namesakes

/-- A commit of the first draft leaves the second, but under its key nothing is found any more. -/
theorem commit_hides_the_namesake :
    namesakes.checkInvariants.isOk = true ∧
      (withOne.handle commitFirst (.ofPresets [])).1.1.status.isSuccess = true ∧
      namesakes.stagedHolons.idOfKey? "book" = some (.numbered 2) ∧
      (withOne.answerKey "book" namesakes (.ofPresets [])).status.isSuccess = true ∧
      ∃ s', (withOne.handle commitFirst (.ofPresets [])).1.1.snapshot = some s' ∧
        s'.stagedHolons.holons.keys = [.numbered 2] ∧ s'.stagedHolons.idOfKey? "book" = none ∧
        (withOne.answerKey "book" s' (.ofPresets [])).status.isSuccess = false := by
  have hsnapshot : (withOne.handle commitFirst (.ofPresets [])).1.1.snapshot = some secondAlone := by decide +kernel
  exact ⟨by decide +kernel, by decide +kernel, by decide +kernel, by decide +kernel, secondAlone, hsnapshot,
    by decide +kernel, by decide +kernel, by decide +kernel⟩

end Server

end Holarchy
