import Holarchy.Proofs.Client.Orders
import Holarchy.Proofs.Holon.Lifecycle
/-!
# The edit history of a staged holon

A staged holon is the holon that was first staged, with the operations of the commands that named it and came to a
result, one after the other.  The history of an id is recorded beside the run: a call adds to it only as its result is
taken over, and only if its command names the id.
-/
namespace Holarchy

namespace StagedHolon

/-- The second holon is a later form of the first, and succeeds what the first one does. -/
def Becomes (h : StagedHolon) (h' : Holon) : Prop :=
  ∃ staged : StagedHolon, h' = .staged staged ∧ staged.predecessorId = h.predecessorId

/-- No operation changes what a staged holon succeeds. -/
theorem becomes_of_perform? {h : StagedHolon} {h' : Holon} {op : Holon.Operation} {outcome : Except Refusal Unit}
    (hop : (Holon.staged h).perform? op = some (outcome, h')) : h.Becomes h' := by
  obtain ⟨staged, rfl⟩ := Holon.staged_perform hop
  exact ⟨staged, rfl, Holon.predecessorId_perform hop fun id hname => by rw [hname] at hop; cases hop⟩

end StagedHolon

namespace Holon

theorem Performs.becomes : ∀ {ops : List Operation} {h : StagedHolon} {h' : Holon},
    (Holon.staged h).Performs ops h' → h.Becomes h'
  | [], h, _, hperforms => ⟨h, hperforms, rfl⟩
  | op :: ops, h, h', ⟨next, hop, hrest⟩ => by
    obtain ⟨staged, rfl, hsame⟩ := StagedHolon.becomes_of_perform? hop
    obtain ⟨last, rfl, hlast⟩ := Performs.becomes hrest
    exact ⟨last, rfl, hlast.trans hsame⟩

end Holon

/-- An order that stages holons under ids that it draws, as it does whenever it is not refused. -/
def Order.stagesNew : Order → Bool
  | .stage _ | .stageTransient _ | .clone _ | .load _ => true
  | _ => false

namespace Store

theorem Gives.draws_of_reference {s : Store} {embed : Bool} {session : SessionState} {ids ids' : IdSource}
    {served : Served} {order : Order} (h : s.Gives embed session ids order served ids') (hnew : order.stagesNew = true)
    {reference : StagedReference} (hbody : served.body = .reference (.staged reference)) :
    ids.Draws ids' reference.id := by
  cases h with
  | drafted => cases hnew
  | @staged g =>
    rcases s.stagingId_cases g ids with ⟨id, key, rfl, -⟩ | hid
    · cases hnew
    · cases hbody
      rw [hid]
      exact IdSource.draws_advance_iff.2 rfl
  | loaded => cases hbody
  | commanded hcommand =>
    have hnone : s.command? session order = none := by cases order <;> first | rfl | cases hnew
    rw [hnone] at hcommand
    cases hcommand
  | committed hcommitting =>
    have hnone : committing? session order = none := by cases order <;> first | rfl | cases hnew
    rw [hnone] at hcommitting
    cases hcommitting
  | answered hreading =>
    have hnone : s.reading? embed session order = none := by cases order <;> first | rfl | cases hnew
    rw [hnone] at hreading
    cases hreading
  | deleted => cases hnew

end Store

namespace Exchange

/-- What a call that comes to its result has done to the holon under an id. -/
def edits (x : Exchange) (id : TemporaryId) (e : Event) : List Holon.Operation :=
  match x.order? e with
  | some order => x.server.store.operationsOn x.state id order
  | none => []

/-- What was done to the holon under an id in a run, in that order. -/
def history (x : Exchange) (id : TemporaryId) : List Event → List Holon.Operation
  | [] => []
  | e :: es => x.edits id e ++ (x.step e).history id es

/-- A call that stages new holons comes to its result, and a holon stands under an id where none did before. -/
def Stages (x : Exchange) (e : Event) (id : TemporaryId) (h : StagedHolon) : Prop :=
  (∃ order, x.order? e = some order ∧ order.stagesNew = true) ∧
    x.state.stagedHolons.get? id = none ∧ (x.step e).state.stagedHolons.get? id = some (.staged h)

/-- The server accepts a commit, of all that is pending or of the one holon that stands under an id. -/
def Commits (x : Exchange) (caller : Nat) (id : TemporaryId) (h : StagedHolon) : Prop :=
  ∃ f d, x.lane.flight? caller = some f ∧ f.call = .typed d ∧
    (x.server.handle f.request x.ids).1.1.status.isSuccess = true ∧
    x.state.stagedHolons.get? id = some (.staged h) ∧
    (d = .commit ∧ h.isPending = true ∨ ∃ target, d = .commitOne target ∧ target.id = id)

variable {x : Exchange} {log : List SavedHolon} {e : Event} {id : TemporaryId}

/-- **What stands under an id after a step** stood there before, and has come through what the step did to it; unless
the id was drawn in this step. -/
theorem Agrees.performs_step (h : x.Agrees log) (hdrawn : ¬ x.ids.Draws (x.step e).ids id)
    (hkey : ∀ key, id ≠ .ofKey key) {holon : Holon} (hget : (x.step e).state.stagedHolons.get? id = some holon) :
    ∃ before, x.state.stagedHolons.get? id = some before ∧ before.Performs (x.edits id e) holon := by
  cases horder : x.order? e with
  | none =>
    rw [h.state_of_order?_eq_none horder] at hget
    simp only [edits, horder]
    exact ⟨holon, hget, rfl⟩
  | some order =>
    obtain ⟨served, hgives, hstate⟩ := h.gives_of_order? horder
    rw [hstate] at hget
    simp only [edits, horder]
    exact hgives.performs hdrawn (fun _ _ => hkey) hget

theorem Agrees.performs_run (hkey : ∀ key, id ≠ .ofKey key) :
    ∀ {es : List Event} {x : Exchange} {log : List SavedHolon}, x.Agrees log →
    (∀ caller call, .ask caller call ∈ es → ∃ d, call = .typed d) →
    (∀ before e after, es = before ++ e :: after → ¬ (x.run before).ids.Draws ((x.run before).step e).ids id) →
    ∀ {holon : Holon}, (x.run es).state.stagedHolons.get? id = some holon →
      ∃ before, x.state.stagedHolons.get? id = some before ∧ before.Performs (x.history id es) holon
  | [], _, _, _, _, _, holon, hget => ⟨holon, hget, rfl⟩
  | e :: es, x, log, h, hask, hdrawn, holon, hget => by
    have hnext := h.step fun caller call he => hask caller call (he ▸ List.mem_cons_self)
    obtain ⟨next, hthere, hrest⟩ := hnext.performs_run hkey
      (fun caller call he => hask caller call (List.mem_cons_of_mem _ he))
      (fun before e' after hsplit => hdrawn (e :: before) e' after (by rw [hsplit]; rfl)) hget
    obtain ⟨first, hfirst, hperforms⟩ := h.performs_step (hdrawn [] e es rfl) hkey hthere
    exact ⟨first, hfirst, hperforms.append hrest⟩

/-- Where a new holon is staged, its id was drawn. -/
theorem Agrees.draws_of_stages (h : x.Agrees log) {holon : StagedHolon} (hstages : x.Stages e id holon) :
    x.ids.Draws (x.step e).ids id := by
  obtain ⟨⟨order, horder, hnew⟩, hbefore, hafter⟩ := hstages
  obtain ⟨served, hgives, hstate⟩ := h.gives_of_order? horder
  rw [hstate] at hafter
  refine Classical.byContradiction fun hdrawn => ?_
  have hversion (source : HolonId) (hversion : order = .newVersion source) : ∀ key, id ≠ .ofKey key := by
    rw [hversion] at hnew
    cases hnew
  obtain ⟨before, hthere, -⟩ := hgives.performs hdrawn hversion hafter
  rw [hbefore] at hthere
  cases hthere

/-- Every id that is drawn to stage new holons has one afterwards. -/
theorem Agrees.stages_of_draws (h : x.Agrees log) {order : Order} (horder : x.order? e = some order)
    (hnew : order.stagesNew = true) (hfresh : x.Fresh e) (hid : x.ids.Draws (x.step e).ids id) :
    ∃ holon, x.Stages e id holon := by
  obtain ⟨served, hgives, hstate⟩ := h.gives_of_order? horder
  have hdraft (properties : PropertyMap) : order ≠ .newHolon properties := by
    rintro rfl
    cases hnew
  obtain ⟨holon, hget⟩ := hgives.staged_of_draws hdraft hid
  have hfree := (SessionState.uses_eq_false_iff.1 (hfresh id hid).1).2
  refine ⟨holon, ⟨order, horder, hnew⟩, ?_, hstate ▸ hget⟩
  exact Option.eq_none_iff_forall_ne_some.2 fun holon hget =>
    Bool.eq_false_iff.1 hfree (Pool.contains_iff.2 ⟨holon, hget⟩)

/-- **What stands under an id since a new holon was staged there** is that holon after what was done to it: an id that
has been in use is not drawn again, so nothing else is staged in its place. -/
theorem Agrees.performs_of_stages (h : x.Agrees log) {es before middle rest : List Event}
    (hask : ∀ caller call, .ask caller call ∈ es → ∃ d, call = .typed d) (hunused : x.Unused es)
    (hsplit : es = before ++ e :: (middle ++ rest)) {first : StagedHolon} (hstages : (x.run before).Stages e id first)
    {last : Holon} (hget : (((x.run before).step e).run middle).state.stagedHolons.get? id = some last) :
    (Holon.staged first).Performs (((x.run before).step e).history id middle) last := by
  have hstep : x.run (before ++ [e]) = (x.run before).step e := x.run_append before [e]
  have hsplit' : es = (before ++ [e]) ++ (middle ++ rest) := by rw [hsplit, List.append_cons]
  have hbefore := h.run fun caller call hmem => hask caller call (hsplit ▸ List.mem_append_left _ hmem)
  have hnext := h.run fun caller call hmem => hask caller call (hsplit' ▸ List.mem_append_left _ hmem)
  have hmiddle : ∀ caller call, .ask caller call ∈ middle → ∃ d, call = .typed d := fun caller call hmem =>
    hask caller call (hsplit' ▸ List.mem_append_right _ (List.mem_append_left _ hmem))
  have hkey := (hunused.fresh hsplit id (hbefore.draws_of_stages hstages)).2
  have hthere : ((x.run before).step e).state.stagedHolons.get? id = some (.staged first) := hstages.2.2
  have hused : (x.run (before ++ [e])).state.uses id = true := by
    rw [hstep, SessionState.uses, Pool.contains_iff.2 ⟨_, hthere⟩, Bool.or_true]
  have hdrawn : ∀ earlier e' later, middle = earlier ++ e' :: later →
      ¬ (((x.run before).step e).run earlier).ids.Draws ((((x.run before).step e).run earlier).step e').ids id := by
    intro earlier e' later hearlier
    have hafter : middle ++ rest = earlier ++ e' :: (later ++ rest) := by rw [hearlier, List.append_assoc]; rfl
    rw [← hstep]
    exact hunused.not_draws hsplit' hused hafter
  rw [hstep] at hnext
  obtain ⟨staged, hstaged, hperforms⟩ := hnext.performs_run hkey hmiddle hdrawn hget
  rw [hthere] at hstaged
  cases hstaged
  exact hperforms

/-- The id that a call is answered with was drawn for it, if the call stages a new holon. -/
theorem Agrees.draws_of_answer (h : x.Agrees log) {order : Order} (horder : x.order? e = some order)
    (hnew : order.stagesNew = true) {caller : Nat} {r : Reconciliation} {reference : StagedReference}
    (hended : (x.step e).lane.ended = x.lane.ended ++ [(caller, .ok (r, .staged reference))]) :
    x.ids.Draws (x.step e).ids reference.id := by
  obtain ⟨caller', f, rfl, hf⟩ := exists_flight_of_order? horder
  rcases h.serve_cases hf with ⟨hnone, -⟩ | ⟨d, result, served, -, hsome, hended', hanswer, hbody, hgives, -⟩
  · rw [hnone] at horder
    cases horder
  · rw [hsome] at horder
    cases horder
    rw [hended, List.append_cancel_left_eq] at hended'
    cases hended'
    refine hgives.draws_of_reference hnew (hbody ▸ ?_)
    cases d with
    | stageNewHolon | stageTransient | stageNewFromClone =>
      simp only [Answer.ofDance?, Answer.staged?] at hanswer
      split at hanswer
      · rename_i hfound
        cases hanswer
        exact hfound
      · cases hanswer
    | loadHolons =>
      simp only [Answer.ofDance?] at hanswer
      split at hanswer <;> cases hanswer
    | _ => cases hnew

/-- **What a commit persists of a holon** is a form of it, which the store has afterwards. -/
theorem Agrees.persists_of_commits (h : x.Agrees log) {caller : Nat} {holon : StagedHolon}
    (hcommits : x.Commits caller id holon) :
    ∃ saved ∈ x.persists (.serve caller), saved = holon.savedAs saved.savedId ∧
      (x.state.stagedHolons.size < UInt64.size →
        (x.step (.serve caller)).server.store.saved.get? saved.savedId = some saved) := by
  obtain ⟨f, d, hf, hd, hok, hget, hchosen⟩ := hcommits
  obtain ⟨-, hbuild⟩ := h.guarded.made (Lane.mem_inside_of_flight? hf)
  rw [hd] at hbuild
  have hrequest : f.request = .new d.name d.kind d.body x.lane.client.space x.state := Dance.eq_of_request hbuild
  have hstate : f.request.context.state = x.state := Dance.state_of_request hbuild
  have hname : f.request.name = "commit" := by
    rw [hrequest]
    rcases hchosen with ⟨rfl, -⟩ | ⟨target, rfl, -⟩ <;> rfl
  have hbody : f.request.body = .none := by
    rw [hrequest]
    rcases hchosen with ⟨rfl, -⟩ | ⟨target, rfl, -⟩ <;> rfl
  have hmem : (id, holon) ∈ x.state.chosen f.request.kind := by
    rw [hrequest]
    rcases hchosen with ⟨rfl, hpending⟩ | ⟨target, rfl, rfl⟩
    · exact Pool.mem_pending_iff.2 ⟨hget, hpending⟩
    · show _ ∈ x.state.chosen (.command target)
      simp only [SessionState.chosen, hget]
      exact List.mem_singleton_self _
  obtain ⟨served, hserved, hhandle⟩ := Server.commits_of_isSuccess hname hbody hok
  rw [hstate] at hserved
  have hpersists : x.persists (.serve caller) =
      x.server.store.additions ((x.state.chosen f.request.kind).map Prod.snd) := by
    simp only [persists, hf, Server.persisted, hstate]
    exact if_pos ⟨hname, hok⟩
  have hstore : (x.step (.serve caller)).server.store =
      x.server.store.gaining ((x.state.chosen f.request.kind).map Prod.snd) := by
    simp only [Exchange.step, hf, hhandle]
    exact hserved.store
  obtain ⟨savedId, hadded⟩ := x.server.store.exists_addition (List.mem_map.2 ⟨_, hmem, rfl⟩)
  rw [hpersists, hstore]
  refine ⟨_, hadded, rfl, fun hsmall => Store.get?_gaining _ ?_ hadded⟩
  rw [List.length_map]
  exact Nat.lt_of_le_of_lt (x.state.length_chosen_le _) hsmall

/-- **A staged holon is its edit history.**  Whatever is called, in whatever order and with whatever arguments, and
however the server is changed and calls are refused, delayed, cancelled or given up: if what is drawn was never used
before, a call that stages new holons and comes to its result stages one under each id that was drawn for it.  From then
on, what stands under such an id is the holon that was first staged there after the operations of just those calls that
command it and have come to a result, in that order.  When the server accepts a commit of the holon, it persists the
properties and the version that the holon has then, and the predecessor that it was staged with. -/
theorem staged_holon_is_its_edit_history (setup : ClientSetup) (c : Client) (h : setup.build = .ok c) (server : Server)
    (ids : IdSource) (es : List Event) (hask : ∀ caller call, .ask caller call ∈ es → ∃ d, call = .typed d)
    (hunused : Unused ⟨.idle c, server, ids⟩ es) :
    let start : Exchange := ⟨.idle c, server, ids⟩
    ∀ before e after, es = before ++ e :: after →
      let x := start.run before
      (∀ order, x.order? e = some order ↔ ∃ caller f d result, e = .serve caller ∧ x.lane.flight? caller = some f ∧
        f.call = .typed d ∧ d.order = order ∧ (x.step e).lane.ended = x.lane.ended ++ [(caller, .ok result)]) ∧
      (∀ order, x.order? e = some order → order.stagesNew = true →
        (∀ id, x.ids.Draws (x.step e).ids id → ∃ holon, x.Stages e id holon) ∧
          ∀ caller r reference, (x.step e).lane.ended = x.lane.ended ++ [(caller, .ok (r, .staged reference))] →
            ∃ holon, x.Stages e reference.id holon) ∧
      ∀ id holon, x.Stages e id holon → ∀ middle rest, after = middle ++ rest →
        let y := (x.step e).run middle
        (∀ holon', y.state.stagedHolons.get? id = some holon' →
          (Holon.staged holon).Performs ((x.step e).history id middle) holon') ∧
        ∀ caller holon', y.Commits caller id holon' → ∃ saved ∈ y.persists (.serve caller),
          saved.properties = holon'.properties ∧ saved.version = holon'.version ∧
            saved.predecessorId = holon.predecessorId ∧
            (y.state.stagedHolons.size < UInt64.size →
              (y.step (.serve caller)).server.store.saved.get? saved.savedId = some saved) := by
  intro start before e after hsplit x
  have hstart : start.Agrees [] := agrees_start h server ids
  have hx : x.Agrees _ := hstart.run fun caller call hmem => hask caller call (hsplit ▸ List.mem_append_left _ hmem)
  have hfresh : x.Fresh e := hunused.fresh hsplit
  refine ⟨fun order => hx.order?_eq_some_iff, fun order horder hnew => ?_, fun id holon hstages middle rest hafter => ?_⟩
  · refine ⟨fun id hid => hx.stages_of_draws horder hnew hfresh hid, fun caller r reference hended => ?_⟩
    exact hx.stages_of_draws horder hnew hfresh (hx.draws_of_answer horder hnew hended)
  · intro y
    have hsplit' : es = before ++ e :: (middle ++ rest) := by rw [hsplit, hafter]
    have hperforms (holon' : Holon) (hget : y.state.stagedHolons.get? id = some holon') :
        (Holon.staged holon).Performs ((x.step e).history id middle) holon' :=
      hstart.performs_of_stages hask hunused hsplit' hstages hget
    refine ⟨hperforms, fun caller holon' hcommits => ?_⟩
    have hy : y.Agrees _ := (hx.step fun caller call he => hask caller call (by rw [hsplit, he]; simp)).run
      fun caller call hmem => hask caller call (by rw [hsplit']; simp [hmem])
    obtain ⟨saved, hpersisted, hsaved, hstored⟩ := hy.persists_of_commits hcommits
    obtain ⟨-, -, -, -, -, hget, -⟩ := hcommits
    obtain ⟨last, hlast, hsame⟩ := (hperforms _ hget).becomes
    cases hlast
    refine ⟨saved, hpersisted, ?_, ?_, ?_, hstored⟩
    · rw [hsaved]
      rfl
    · rw [hsaved]
      rfl
    · rw [hsaved]
      exact hsame

def page : StagedReference := ⟨⟨1⟩, .numbered 1⟩

def book : Reference := .smart ⟨⟨1⟩, .local (.numbered 1), none⟩

/-- A page is staged and given a title.  To cite the book twice at once is refused, to cite it once is not; then the
page loses its title again and is committed. -/
def writing : List Event :=
  dancing 0 (.stageNewHolon (.new (.ofValues [(keyProperty, .string "page")]))) ++ [.serve 0] ++
    dancing 1 (.withProperties page (.ofValues [(⟨"title"⟩, .string "Holons")])) ++ [.serve 1] ++
    dancing 2 (.addRelatedHolons page ⟨"Cites"⟩ [book, book]) ++ [.serve 2] ++
    dancing 3 (.addRelatedHolons page ⟨"Cites"⟩ [book]) ++ [.serve 3] ++
    dancing 4 (.removeProperties page [⟨"title"⟩, ⟨"title"⟩]) ++ [.serve 4] ++ dancing 5 (.commitOne page) ++
    [.serve 5]

/-- As the page is about to be staged. -/
def beforeStaging : Exchange := inLibrary.run (writing.take 3)

/-- As the page is about to be committed. -/
def beforeCommit : Exchange := (beforeStaging.step (.serve 0)).run ((writing.drop 4).take 19)

def revisions : List Holon.Operation :=
  [.edit (.updateProperties (.ofValues [(⟨"title"⟩, .string "Holons")])),
    .edit (.addRelated ⟨"Cites"⟩ [(book, some "book")]), .edit (.removeProperty ⟨"title"⟩)]

/-- The page is committed as its history has made it: without the title, and in its fourth version. -/
theorem staged_holon_is_its_edit_history_in_library :
    ∃ holon last, beforeStaging.Stages (.serve 0) page.id holon ∧
      (Holon.staged holon).Performs revisions (.staged last) ∧
      ∃ saved ∈ beforeCommit.persists (.serve 5), saved.properties = .ofValues [(keyProperty, .string "page")] ∧
        saved.version = 4 ∧ saved.predecessorId = holon.predecessorId := by
  have hask : ∀ caller call, .ask caller call ∈ writing → ∃ d, call = .typed d := by
    intro caller call hmem
    simp [writing, dancing] at hmem
    rcases hmem with ⟨-, rfl⟩ | ⟨-, rfl⟩ | ⟨-, rfl⟩ | ⟨-, rfl⟩ | ⟨-, rfl⟩ | ⟨-, rfl⟩ <;> exact ⟨_, rfl⟩
  have hunused : inLibrary.Unused writing := unused_of_presets rfl (by decide +kernel)
  have hruns := staged_holon_is_its_edit_history ⟨.default, none⟩ .fresh rfl Server.withBook (.ofPresets []) writing
    hask hunused
  obtain ⟨-, hstaging, hhistory⟩ := hruns (writing.take 3) (.serve 0) (writing.drop 4) rfl
  obtain ⟨hcommitting, -, -⟩ := hruns (writing.take 23) (.serve 5) [] rfl
  have hstages : (beforeStaging.order? (.serve 0)).any Order.stagesNew = true := by decide +kernel
  obtain ⟨order, horder, hnew⟩ := (Option.any_eq_true _ _).1 hstages
  have hdrawn : beforeStaging.ids.Draws (beforeStaging.step (.serve 0)).ids page.id := ⟨0, by decide +kernel⟩
  obtain ⟨holon, hstaged⟩ := (hstaging order horder hnew).1 page.id hdrawn
  obtain ⟨hperforms, hpersists⟩ := hhistory page.id holon hstaged ((writing.drop 4).take 19) [.serve 5] rfl
  have hrevisions : (beforeStaging.step (.serve 0)).history page.id ((writing.drop 4).take 19) = revisions := by
    decide +kernel
  have hform : (beforeCommit.state.stagedHolons.get? page.id).any (fun h =>
      h.properties = .ofValues [(keyProperty, .string "page")] && h.version = 4) = true := by decide +kernel
  obtain ⟨holon', hget, hsame⟩ := (Option.any_eq_true _ _).1 hform
  obtain ⟨last, rfl, -⟩ := (hperforms holon' hget).becomes
  simp only [Bool.and_eq_true, decide_eq_true_eq] at hsame
  have hcommit : (inLibrary.run (writing.take 23)).order? (.serve 5) = some (.commitOne page) := by decide +kernel
  obtain ⟨caller, f, d, -, he, hf, hd, hone, -⟩ := (hcommitting _).1 hcommit
  obtain rfl : 5 = caller := Event.serve.inj he
  have hone' : d = .commitOne page := by cases d <;> cases hone; rfl
  have hok : (beforeCommit.lane.flight? 5).all (fun f =>
      (beforeCommit.server.handle f.request beforeCommit.ids).1.1.status.isSuccess) = true := by decide +kernel
  have hf' : beforeCommit.lane.flight? 5 = some f := by
    have hsplit : writing.take 23 = writing.take 3 ++ .serve 0 :: (writing.drop 4).take 19 := rfl
    rw [hsplit, run_append, run_cons] at hf
    exact hf
  rw [hf'] at hok
  obtain ⟨saved, hmem, hproperties, hversion, hpredecessor, -⟩ :=
    hpersists 5 last ⟨f, d, hf', hd, hok, hget, .inr ⟨page, hone', rfl⟩⟩
  have hperformed : (Holon.staged holon).Performs revisions (.staged last) := hrevisions ▸ hperforms _ hget
  exact ⟨holon, last, hstaged, hperformed, saved, hmem, hproperties.trans hsame.1, hversion.trans hsame.2, hpredecessor⟩

end Exchange

end Holarchy
