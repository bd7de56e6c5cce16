import Holarchy.Proofs.Call
import Holarchy.Proofs.Dance
import Holarchy.Proofs.Server.Commit
import Holarchy.Proofs.Server.Files
import Holarchy.Proofs.Server.Staging
/-!
# What a dance does to the store

A commit adds to the store and a deletion takes from it; no other dance touches it, and no answer but that to a commit
lists a committed holon.  `Server.effect_handle` says so of every request that a dance of the catalog makes.
-/
namespace Holarchy

theorem exists_of_map_eq_ok {α β : Type} {outcome : Except Refusal α} {f : α → β} {b : β}
    (h : outcome.map f = .ok b) : ∃ a, outcome = .ok a ∧ f a = b := by
  cases outcome with
  | error e => cases h
  | ok a => exact ⟨a, rfl, Except.ok.inj h⟩

/-- A computation in two parts that is not refused has run both. -/
theorem exists_of_bind_eq_ok {α β : Type} {first : Except Refusal α} {next : α → Except Refusal β} {b : β}
    (h : (first >>= next) = .ok b) : ∃ a, first = .ok a ∧ next a = .ok b := by
  cases first with
  | error e => cases h
  | ok a => exact ⟨a, rfl, h⟩

theorem TransientHolon.toSaved?_of_stage {h : TransientHolon} {staged : StagedHolon} (hstage : h.stage = .ok staged) :
    staged.toSaved? = none := by
  unfold stage at hstage
  cases hm : h.holonState with
  | immutable => rw [hm] at hstage; cases hstage
  | mutable =>
    rw [hm] at hstage
    cases hstage
    cases hp : h.predecessorId <;> simp [StagedHolon.toSaved?, StagedHolon.committedId?, StagedState.committedId?]

def Holon.Uncommitted (h : Holon) : Prop := h.asStaged?.bind StagedHolon.toSaved? = none

theorem ResponseBody.committedViews_holons {hs : List Holon} (h : ∀ holon ∈ hs, holon.Uncommitted) :
    (holons hs).committedViews = [] := List.filterMap_eq_nil_iff.2 h

namespace Store

theorem uncommitted_loadFiles {session session' : SessionState} {files : List FileData} {ids : IdSource}
    {hs : List Holon} (h : (loadFiles session files ids).1 = .ok (hs, session')) : ∀ holon ∈ hs, holon.Uncommitted := by
  obtain ⟨described, -, hload⟩ | ⟨e, n, -, hload⟩ := loadFiles_cases session files ids
  · rw [hload] at h
    cases h
    intro holon hmem
    obtain ⟨staged, hstaged, rfl⟩ := List.mem_map.1 hmem
    obtain ⟨properties, -, rfl⟩ := List.mem_map.1 hstaged
    exact TransientHolon.toSaved?_of_stage (TransientHolon.stage_new properties)
  · rw [hload] at h
    cases h

variable {s : Store} {embed : Bool} {session : SessionState} {ids : IdSource} {served : Served}

/-- The store is as it was, and nothing is listed as committed. -/
structure Spares (s : Store) (served : Served) : Prop where
  store : served.store = s
  views : served.body.committedViews = []

theorem spares_staging (g : Staging) (h : (s.run embed session g.order ids).1 = .ok served) : s.Spares served := by
  rw [run_staging] at h
  cases hp : s.promoted session g with
  | error e => rw [hp] at h; cases h
  | ok p => rw [hp] at h; cases h; exact ⟨rfl, rfl⟩

theorem spares_updateStaged {target : StagedReference} {change : StagedHolon → Except Refusal StagedHolon}
    (h : s.answering (session.updateStaged target change) = .ok served) : s.Spares served := by
  obtain ⟨⟨body, session'⟩, hupdate, rfl⟩ := exists_of_map_eq_ok h
  refine ⟨rfl, ?_⟩
  simp only [SessionState.updateStaged, bind, Except.bind] at hupdate
  split at hupdate
  · cases hupdate
  · split at hupdate
    · cases hupdate
    · cases hupdate
      rfl

/-- **Only a commit and a deletion touch the store**, and only a commit lists committed holons. -/
theorem run_cases {order : Order} (h : (s.run embed session order ids).1 = .ok served) :
    (order = .commitAll ∨ ∃ target, order = .commitOne target) ∨ s.Spares served ∨
      ∃ id, order = .delete id ∧ served = ⟨.none, session, { s with saved := s.saved.erase id }⟩ := by
  cases order with
  | newHolon properties => cases h; exact .inr (.inl ⟨rfl, rfl⟩)
  | stage holon => exact .inr (.inl (spares_staging (.holon holon) h))
  | stageTransient target => exact .inr (.inl (spares_staging (.pooled target) h))
  | clone source => exact .inr (.inl (spares_staging (.clone source) h))
  | newVersion id => exact .inr (.inl (spares_staging (.version id) h))
  | withProperties | removeProperties | addRelated | removeRelated | abandon =>
    exact .inr (.inl (spares_updateStaged h))
  | commitAll => exact .inl (.inl rfl)
  | commitOne target => exact .inl (.inr ⟨target, rfl⟩)
  | getAll => cases h; exact .inr (.inl ⟨rfl, rfl⟩)
  | getById id =>
    obtain ⟨holon, -, rfl⟩ := exists_of_map_eq_ok h
    exact .inr (.inl ⟨rfl, rfl⟩)
  | getStagedByKey properties =>
    obtain ⟨reference, -, rfl⟩ := exists_of_map_eq_ok h
    exact .inr (.inl ⟨rfl, rfl⟩)
  | delete id =>
    obtain ⟨holon, -, rfl⟩ := exists_of_map_eq_ok h
    exact .inr (.inr ⟨id, rfl, rfl⟩)
  | query sources query =>
    obtain ⟨members, -, rfl⟩ := exists_of_map_eq_ok h
    exact .inr (.inl ⟨rfl, rfl⟩)
  | load content =>
    obtain ⟨loaded, hload, rfl⟩ := exists_of_map_eq_ok h
    exact .inr (.inl ⟨rfl, ResponseBody.committedViews_holons (uncommitted_loadFiles hload)⟩)

variable {es : List (TemporaryId × StagedHolon)}

theorem Commits.views (h : s.Commits session es served) :
    served.body.committedViews = s.additions (es.map Prod.snd) := by
  rw [h.body, additions]
  simp only [ResponseBody.committedViews, ResponseBody.listed, List.filterMap_map]
  exact congrFun List.filterMap_eq_map _

theorem Commits.sound (h : s.Commits session es served) (hsound : session.Sound) : served.session.Sound where
  transient := by rw [h.others]; exact hsound.transient
  staged := h.indexed hsound.staged
  apart id hid := by
    rw [h.others] at hid
    refine Bool.eq_false_iff.2 fun hstaged => ?_
    obtain ⟨holon, hget⟩ := Pool.contains_iff.1 hstaged
    rw [Pool.get?, h.staged, SortedMap.get?_filter_eq_some_iff] at hget
    exact Bool.eq_false_iff.1 (hsound.apart id hid) (Pool.contains_iff.2 ⟨holon, hget.1⟩)

end Store

theorem SessionState.length_chosen_le (s : SessionState) (kind : DanceType) :
    (s.chosen kind).length ≤ s.stagedHolons.size := by
  cases kind with
  | command target =>
    simp only [chosen]
    split
    · rename_i h hget
      exact List.length_pos_of_mem (SortedMap.get?_eq_some_iff.1 hget)
    · exact Nat.zero_le _
  | _ => exact List.length_filterMap_le _ _

namespace Server

/-- What a server persists by a commit when it handles a request. -/
def persisted (s : Server) (r : DanceRequest) (ids : IdSource) : List SavedHolon :=
  if r.name = "commit" ∧ (s.handle r ids).1.1.status.isSuccess = true then
    s.store.additions ((r.context.state.chosen r.kind).map Prod.snd)
  else []

/-- What a dance can come to at a server: what it persists by a commit, the answer, and the store after it. -/
inductive Effect (server : Server) (d : Dance) (s : SessionState) :
    List SavedHolon → DanceResponse → Store → Prop where
  | refused {response : DanceResponse} : response.status.isSuccess = false →
    Effect server d s [] response server.store
  | spared {body : ResponseBody} {s' : SessionState} : body.committedViews = [] →
    Effect server d s [] (.ok server.space body s') server.store
  | committed {hs : List StagedHolon} {body : ResponseBody} {s' : SessionState} :
    (d = .commit ∨ (∃ target, d = .commitOne target) ∧ hs ≠ []) → hs.length ≤ s.stagedHolons.size →
    body.committedViews = server.store.additions hs → s'.txId = s.txId → (s.Sound → s'.Sound) →
    Effect server d s (server.store.additions hs) (.ok server.space body s') (server.store.gaining hs)
  | deleted {id : LocalId} : d = .deleteHolon id →
    Effect server d s [] (.ok server.space .none s) { server.store with saved := server.store.saved.erase id }

variable {d : Dance} {space : SpaceId} {s : SessionState} {q : DanceRequest}

theorem effect_commit (hq : d.request space s = .ok q) (hname : d.name = "commit") (server : Server) (ids : IdSource)
    (hok : (server.handle q ids).1.1.status.isSuccess = true) :
    server.Effect d s (server.persisted q ids) (server.handle q ids).1.1 (server.handle q ids).1.2.store := by
  have hqname : q.name = "commit" := by rw [Dance.eq_of_request hq]; exact hname
  have hqbody : q.body = .none := by
    rw [Dance.eq_of_request hq]
    rcases Dance.name_eq_commit_iff.1 hname with rfl | ⟨target, rfl⟩ <;> rfl
  obtain ⟨served, hcommits, hhandle⟩ := commits_of_isSuccess hqname hqbody hok
  rw [Dance.state_of_request hq] at hcommits
  rw [persisted, if_pos ⟨hqname, hok⟩, hhandle, Dance.state_of_request hq]
  rw [hcommits.store]
  refine .committed ?_ ?_ hcommits.views ?_ hcommits.sound
  · refine (Dance.name_eq_commit_iff.1 hname).imp_right ?_
    rintro ⟨target, rfl⟩
    -- A commit of one holon is refused unless the holon is there, so it lists at least that one.
    obtain ⟨order, served', -, horder, hrun⟩ := isSuccess_handle_iff.1 hok
    rw [Dance.order_of_request hq] at horder
    cases horder
    rw [runs, Dance.state_of_request hq] at hrun
    obtain ⟨-, h, hget, -⟩ := Store.run_commitOne_ok hrun
    have hkind : q.kind = .command target := by rw [Dance.eq_of_request hq]; rfl
    exact ⟨⟨target, rfl⟩, by simp [hkind, SessionState.chosen, hget]⟩
  · rw [List.length_map]
    exact s.length_chosen_le q.kind
  · rw [hcommits.others]
    rfl

/-- **What a dance of the catalog comes to.** -/
theorem effect_handle (hq : d.request space s = .ok q) (server : Server) (ids : IdSource) :
    server.Effect d s (server.persisted q ids) (server.handle q ids).1.1 (server.handle q ids).1.2.store := by
  cases hok : (server.handle q ids).1.1.status.isSuccess with
  | false =>
    rw [persisted, if_neg (by simp [hok]), (handle_refused hok).1]
    exact .refused hok
  | true =>
    by_cases hname : d.name = "commit"
    · exact effect_commit hq hname server ids hok
    · have hqname : q.name ≠ "commit" := by rw [Dance.eq_of_request hq]; exact hname
      obtain ⟨order, served, hready, horder, hrun⟩ := isSuccess_handle_iff.1 hok
      rw [persisted, if_neg (fun h => hqname h.1), handle_of_runs hready horder hrun]
      rw [Dance.order_of_request hq] at horder
      cases horder
      rw [runs, Dance.state_of_request hq] at hrun
      rcases Store.run_cases hrun with hcommit | hspares | ⟨id, hdelete, rfl⟩
      · exact absurd (Dance.name_of_order hcommit) hname
      · rw [hspares.store]
        exact .spared hspares.views
      · exact .deleted (Dance.eq_deleteHolon_of_order hdelete)

variable {server : Server} {log : List SavedHolon} {response : DanceResponse} {store : Store}

theorem Effect.views (h : server.Effect d s log response store) (hok : response.status.isSuccess = true) :
    response.body.committedViews = log := by
  cases h with
  | refused hrefused => rw [hrefused] at hok; cases hok
  | spared hviews => exact hviews
  | committed _ _ hviews => exact hviews
  | deleted => rfl

/-- **What changes the store is answered in order**: with a success, a sound session and what the caller expects. -/
theorem Effect.answered (h : server.Effect d s log response store) (hs : s.Sound)
    (hchange : log ≠ [] ∨ store ≠ server.store) :
    response.status.isSuccess = true ∧ ∃ s', response.snapshot = some s' ∧ s'.txId = s.txId ∧ s'.Sound ∧
      ∀ r : Reconciliation, r.findings.committed = response.body.committedViews →
        ∃ answer, Answer.ofDance? d r = some answer := by
  cases h with
  | refused | spared => simp at hchange
  | @committed hs' body s' hd _ hviews htx hsound =>
    refine ⟨rfl, s', rfl, htx, hsound hs, fun r hr => ?_⟩
    have hcommitted : r.findings.committed = server.store.additions hs' := hr.trans hviews
    rcases hd with rfl | ⟨⟨target, rfl⟩, hne⟩
    · exact ⟨_, rfl⟩
    · obtain ⟨holon, rest, rfl⟩ := List.exists_cons_of_ne_nil hne
      rw [Store.additions_cons] at hcommitted
      refine ⟨.savedHolon (holon.savedAs server.store.nextId), ?_⟩
      simp only [Answer.ofDance?, hcommitted, List.head?_cons, Option.map_some]
  | deleted hd =>
    subst hd
    exact ⟨rfl, s, rfl, rfl, hs, fun r _ => ⟨_, rfl⟩⟩

theorem Effect.follows (h : server.Effect d s log response store) {earlier : List SavedHolon}
    (hfollows : server.store.Follows earlier) (hroom : server.store.HasRoom s.stagedHolons.size) :
    store.Follows (earlier ++ log) ∧
      (store.saved.values = server.store.saved.values ++ log ∨
        log = [] ∧ ∃ id, store.saved = server.store.saved.erase id) := by
  cases h with
  | refused | spared =>
    rw [List.append_nil, List.append_nil]
    exact ⟨hfollows, .inl rfl⟩
  | committed _ hle =>
    have hroom' := hroom.of_le hle
    refine ⟨hfollows.gaining hroom', .inl ?_⟩
    rw [SortedMap.values, hfollows.counted.entries_gaining hroom', List.map_append, List.map_map]
    exact congrArg _ (List.map_id _)
  | deleted =>
    rw [List.append_nil]
    exact ⟨hfollows.erasing _, .inr ⟨rfl, _, rfl⟩⟩

end Server

end Holarchy
