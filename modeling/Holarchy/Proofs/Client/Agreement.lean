import Holarchy.Client.Error
import Holarchy.Proofs.Client.Exchange
import Holarchy.Proofs.Client.Soundness
import Holarchy.Proofs.Server.Effects
/-!
# A client and its server agree on what was committed

What the server persists by commits is recorded beside the run.  The list of the client is what the record is, short of
the commits whose answers came too late: those are answered in order, so only a cancellation can keep them from landing,
and the error that the call then ends with says that its outcome is open.
-/
namespace Holarchy

/-- No call has ended with an error that leaves open what the server did. -/
def Lane.Conclusive (l : Lane) : Prop :=
  ∀ o ∈ l.ended, ∀ e, o.2 = .error e → (ClientError.ofCall e).outcomeUnknown = false

theorem Lane.Conclusive.of_append {l l' : Lane} (h : l'.Conclusive) {ended : List (Nat × Outcome)}
    (hended : l'.ended = l.ended ++ ended) : l.Conclusive :=
  fun o ho => h o (hended ▸ List.mem_append_left _ ho)

namespace Exchange

/-- What the server persists by a commit as something happens. -/
def persists (x : Exchange) : Event → List SavedHolon
  | .serve caller =>
    match x.lane.flight? caller with
    | some f => x.server.persisted f.request x.ids
    | none => []
  | _ => []

/-- What the server persists by commits in a run, in that order. -/
def log (x : Exchange) : List Event → List SavedHolon
  | [] => []
  | e :: es => x.persists e ++ (x.step e).log es

/-- Calls of the catalog and nothing else: how the list of the client and the record of the server stand. -/
structure Agrees (x : Exchange) (log : List SavedHolon) : Prop where
  guarded : x.lane.Guarded
  sound : x.state.Sound
  calls : ∀ q ∈ x.lane.calls, ∃ d, q.2 = .typed d
  listed : x.lane.client.committed.Sublist log
  complete : x.lane.Conclusive → x.lane.client.committed = log

variable {x : Exchange} {log : List SavedHolon} {caller : Nat} {f : Flight}

theorem Agrees.advance (h : x.Agrees log) {m : Move} (hm : ∀ caller call, m = .ask caller call → ∃ d, call = .typed d)
    {log' : List SavedHolon} (hlisted : (x.lane.step m).client.committed.Sublist log')
    (hcomplete : (x.lane.step m).Conclusive → (x.lane.step m).client.committed = log') (server : Server)
    (ids : IdSource) : Agrees ⟨x.lane.step m, server, ids⟩ log' where
  guarded := h.guarded.step m
  sound := h.guarded.sound_step h.sound m
  calls := Lane.forall_calls_step h.calls hm
  listed := hlisted
  complete := hcomplete

/-- A move that is no reply changes nothing that matters here. -/
theorem Agrees.move (h : x.Agrees log) {m : Move} (hreply : ∀ caller response, m ≠ .reply caller (.ok response))
    (hm : ∀ caller call, m = .ask caller call → ∃ d, call = .typed d) (server : Server) (ids : IdSource) :
    Agrees ⟨x.lane.step m, server, ids⟩ log := by
  rcases x.lane.step_cases m with ⟨hkeeps, ended, hended, -⟩ | ⟨caller, f, response, r, answer, hreplied, -⟩
  · refine h.advance hm ?_ (fun hc => ?_) server ids
    · rw [hkeeps.committed]
      exact h.listed
    · rw [hkeeps.committed]
      exact h.complete (hc.of_append hended)
  · exact absurd hreplied (hreply caller response)

theorem Agrees.flight (h : x.Agrees log) (hf : x.lane.flight? caller = some f) :
    ∃ d, f.call = .typed d ∧ f.before = x.state ∧ d.request x.lane.client.space x.state = .ok f.request := by
  have hmem := Lane.mem_inside_of_flight? hf
  obtain ⟨hbefore, hbuild⟩ := h.guarded.made hmem
  obtain ⟨d, hd⟩ := h.calls (caller, f.call) (Lane.mem_calls.2 (.inr ⟨_, hmem, rfl⟩))
  simp only at hd
  rw [hd] at hbuild
  exact ⟨d, hd, hbefore, hbuild⟩

theorem Agrees.effect (h : x.Agrees log) (hf : x.lane.flight? caller = some f) :
    ∃ d, f.call = .typed d ∧ x.server.Effect d x.state (x.persists (.serve caller))
      (x.server.handle f.request x.ids).1.1 (x.step (.serve caller)).server.store := by
  obtain ⟨d, hd, -, hrequest⟩ := h.flight hf
  have heffect := Server.effect_handle hrequest x.server x.ids
  refine ⟨d, hd, ?_⟩
  simp only [persists, step, hf]
  exact heffect

theorem step_serve_of_none (hf : x.lane.flight? caller = none) :
    x.step (.serve caller) = x ∧ x.persists (.serve caller) = [] :=
  ⟨by simp only [step, hf], by simp only [persists, hf]⟩

theorem step_serve (hf : x.lane.flight? caller = some f) :
    ∃ server ids, x.step (.serve caller) =
      ⟨x.lane.step (.reply caller (.ok (x.server.handle f.request x.ids).1.1)), server, ids⟩ := by
  simp only [step, hf]
  exact ⟨_, _, rfl⟩

/-- **A call that changed the store does not fail with a known outcome**: it was cancelled, or it comes to a result. -/
theorem Agrees.ended_serve (h : x.Agrees log) (hf : x.lane.flight? caller = some f)
    (hchange : x.persists (.serve caller) ≠ [] ∨ (x.step (.serve caller)).server.store ≠ x.server.store) :
    ∃ outcome, (x.step (.serve caller)).lane.ended = x.lane.ended ++ [(caller, outcome)] ∧
      (outcome = .error (.cancelled f.seq) ∨ ∃ result, outcome = .ok result) := by
  obtain ⟨d, hd, heffect⟩ := h.effect hf
  obtain ⟨-, -, hbefore, -⟩ := h.flight hf
  obtain ⟨hok, s', hsnapshot, htx, hsound, hexpects⟩ := heffect.answered h.sound hchange
  obtain ⟨r, hreconcile, hcommitted⟩ := reconcile_of_sound f.name f.seq hok hsnapshot (hbefore ▸ htx)
    (SessionState.checkInvariants_eq_ok_iff.2 hsound)
  obtain ⟨answer, hanswer⟩ := hexpects r hcommitted
  have hextract : f.call.extract r = some answer := by rw [hd]; exact hanswer
  obtain ⟨server, ids, hstep⟩ := step_serve hf
  refine ⟨_, by rw [hstep, Lane.ended_reply hf], ?_⟩
  exact (x.lane.client.land_of_reconcile hreconcile hextract).imp_right fun hr => ⟨_, hr⟩

/-- Nothing was persisted for a call that ends with an error, unless that leaves the outcome open. -/
theorem Agrees.persists_eq_nil (h : x.Agrees log) (hf : x.lane.flight? caller = some f)
    (ended : List (Nat × Outcome)) (hended : (x.step (.serve caller)).lane.ended = x.lane.ended ++ ended)
    (herror : ∀ o ∈ ended, ∃ e, o.2 = .error e) (hc : (x.step (.serve caller)).lane.Conclusive) :
    x.persists (.serve caller) = [] := by
  refine Classical.byContradiction fun hne => ?_
  -- The answer was in order, so the call was cancelled, and that error is not conclusive.
  obtain ⟨outcome, hended', houtcome⟩ := h.ended_serve hf (.inl hne)
  have hmem : (caller, outcome) ∈ ended := by
    rw [hended', List.append_cancel_left_eq] at hended
    exact hended ▸ List.mem_singleton_self _
  obtain ⟨e, he⟩ := herror _ hmem
  simp only at he
  have hknown := hc _ (hended ▸ List.mem_append_right _ hmem) e he
  rcases houtcome with rfl | ⟨result, rfl⟩ <;> cases he
  cases hknown

/-- An answer adds to the list of the client what the server persisted, or it does not land. -/
theorem Agrees.serve (h : x.Agrees log) (caller : Nat) :
    (x.step (.serve caller)).Agrees (log ++ x.persists (.serve caller)) := by
  cases hf : x.lane.flight? caller with
  | none =>
    obtain ⟨hstep, hnone⟩ := step_serve_of_none hf
    rw [hstep, hnone, List.append_nil]
    exact h
  | some f =>
    obtain ⟨d, hd, heffect⟩ := h.effect hf
    have hnil := h.persists_eq_nil hf
    obtain ⟨server, ids, hstep⟩ := step_serve hf
    rw [hstep] at hnil ⊢
    rcases x.lane.step_cases (.reply caller (.ok (x.server.handle f.request x.ids).1.1)) with
      ⟨hkeeps, ended, hended, herror⟩ | ⟨_, f', response, r, answer, hreply, hf', hr, -, hended, htakes⟩
    -- The answer does not land.
    · refine h.advance (by simp) ?_ (fun hc => ?_) server ids
      · rw [hkeeps.committed]
        exact h.listed.trans (List.sublist_append_left _ _)
      · rw [hkeeps.committed, hnil ended hended herror hc, List.append_nil]
        exact h.complete (hc.of_append hended)
    -- It lands, and tells all that was persisted.
    · cases hreply
      rw [hf] at hf'
      cases hf'
      have haccumulates : f.call.accumulates = true := by rw [hd]; rfl
      have hcommitted := htakes.committed
      rw [haccumulates, if_pos rfl, heffect.views (reconcile_ok hr).1] at hcommitted
      refine h.advance (by simp) ?_ (fun hc => ?_) server ids
      · rw [hcommitted]
        exact h.listed.append (.refl _)
      · rw [hcommitted, h.complete (hc.of_append hended)]

/-- **Client and record stay in agreement**, whatever happens. -/
theorem Agrees.step (h : x.Agrees log) {e : Event} (hask : ∀ caller call, e = .ask caller call → ∃ d, call = .typed d) :
    (x.step e).Agrees (log ++ x.persists e) := by
  have hsame (m : Move) (hreply : ∀ caller response, m ≠ .reply caller (.ok response))
      (hm : ∀ caller call, m = .ask caller call → ∃ d, call = .typed d) (server : Server) :
      Agrees ⟨x.lane.step m, server, x.ids⟩ (log ++ []) := by
    rw [List.append_nil]
    exact h.move hreply hm server x.ids
  cases e with
  | ask caller call =>
    exact hsame (.ask caller call) (by simp) (fun c q hm => by cases hm; exact hask caller call rfl) _
  | enter caller => exact hsame (.enter caller) (by simp) (by simp) _
  | launch caller => exact hsame (.launch caller) (by simp) (by simp) _
  | serve caller => exact h.serve caller
  | expire caller => exact hsame (.expire caller) (by simp) (by simp) _
  | drop caller => exact hsame (.drop caller) (by simp) (by simp) _
  | cancel => exact hsame .cancel (by simp) (by simp) _
  | tend change =>
    show Agrees _ (log ++ [])
    rw [List.append_nil]
    exact { h with }

theorem Agrees.run : ∀ {es : List Event} {x : Exchange} {log : List SavedHolon}, x.Agrees log →
    (∀ caller call, .ask caller call ∈ es → ∃ d, call = .typed d) → (x.run es).Agrees (log ++ x.log es)
  | [], _, log, h, _ => (List.append_nil log).symm ▸ h
  | e :: es, x, log, h, hask => by
    have hstep := h.step fun caller call he => hask caller call (he ▸ List.mem_cons_self)
    have hrest := hstep.run fun caller call he => hask caller call (List.mem_cons_of_mem _ he)
    rw [List.append_assoc] at hrest
    exact hrest

theorem agrees_start {c : Client} {setup : ClientSetup} (h : setup.build = .ok c) (server : Server) (ids : IdSource) :
    Agrees ⟨.idle c, server, ids⟩ [] := by
  obtain ⟨hfree, hcommitted, -, hsound⟩ := ClientSetup.build_ok h
  exact {
    guarded := Lane.guarded_idle hfree
    sound := hsound
    calls := fun q hq => by simp [Lane.calls, Lane.idle] at hq
    listed := by simp [Lane.idle, hcommitted]
    complete := fun _ => hcommitted }

theorem store_note (x : Exchange) (earlier : Lane) : (x.note earlier).server.store = x.server.store := by
  simp only [note]
  generalize x.lane.sent.drop earlier.sent.length = requests
  generalize x.server = server
  induction requests generalizing server with
  | nil => rfl
  | cons r requests ih => exact ih (server.receive r)

/-- **Who changes the store**: somebody else, or a call that ends then and there. -/
theorem Agrees.store_step (h : x.Agrees log) (e : Event) :
    (x.step e).server.store = x.server.store ∨ (∃ change, e = .tend change) ∨
      ∃ caller outcome, e = .serve caller ∧ (x.step e).lane.ended = x.lane.ended ++ [(caller, outcome)] ∧
        ∀ err, outcome = .error err → (ClientError.ofCall err).outcomeUnknown = true := by
  cases e with
  | serve caller =>
    by_cases hstore : (x.step (.serve caller)).server.store = x.server.store
    · exact .inl hstore
    · cases hf : x.lane.flight? caller with
      | none => exact absurd (congrArg (fun x => x.server.store) (step_serve_of_none hf).1) hstore
      | some f =>
        obtain ⟨outcome, hended, houtcome⟩ := h.ended_serve hf (.inr hstore)
        refine .inr (.inr ⟨caller, outcome, rfl, hended, fun err herr => ?_⟩)
        rcases houtcome with rfl | ⟨result, rfl⟩ <;> cases herr
        rfl
  | tend change => exact .inr (.inl ⟨change, rfl⟩)
  | launch caller => exact .inl (store_note _ _)
  | _ => exact .inl rfl

/-- Somebody else who changes the server leaves the store alone or seeds it. -/
def Event.Seeds : Event → Prop
  | .tend change => ∀ s, (change s).store = s.store ∨ ∃ properties, (change s).store = (s.store.seed properties).1
  | _ => True

/-- The counter of the store can number all that is staged, and a seed. -/
def HasRoom (x : Exchange) : Prop := x.server.store.HasRoom (x.state.stagedHolons.size + 1)

instance (x : Exchange) : Decidable x.HasRoom := inferInstanceAs (Decidable (x.server.store.HasRoom _))

/-- What a request that is run leaves in the store: what was there and behind it what is recorded, or all but one. -/
theorem Agrees.follows_serve (h : x.Agrees log) (hfollows : x.server.store.Follows log) (hroom : x.HasRoom)
    (caller : Nat) :
    (x.step (.serve caller)).server.store.Follows (log ++ x.persists (.serve caller)) ∧
      ((x.step (.serve caller)).server.saved = x.server.saved ++ x.persists (.serve caller) ∨
        x.persists (.serve caller) = [] ∧
          ∃ id, (x.step (.serve caller)).server.store.saved = x.server.store.saved.erase id) := by
  cases hf : x.lane.flight? caller with
  | none =>
    obtain ⟨hstep, hnone⟩ := step_serve_of_none hf
    rw [hstep, hnone, List.append_nil, List.append_nil]
    exact ⟨hfollows, .inl rfl⟩
  | some f =>
    obtain ⟨d, -, heffect⟩ := h.effect hf
    exact heffect.follows hfollows (hroom.of_le (Nat.le_succ _))

theorem Agrees.follows_step (h : x.Agrees log) (hfollows : x.server.store.Follows log) (hroom : x.HasRoom) {e : Event}
    (hseeds : e.Seeds) : (x.step e).server.store.Follows (log ++ x.persists e) := by
  have hsame {store : Store} (hstore : store = x.server.store) : store.Follows (log ++ []) := by
    rw [List.append_nil, hstore]
    exact hfollows
  cases e with
  | serve caller => exact (h.follows_serve hfollows hroom caller).1
  | launch caller => exact hsame (store_note _ _)
  | tend change =>
    rcases hseeds x.server with hstore | ⟨properties, hstore⟩
    · exact hsame hstore
    · show (change x.server).store.Follows (log ++ [])
      rw [List.append_nil, hstore, Store.seed_eq_adding]
      exact hfollows.adding hroom _
  | _ => exact hsame rfl

theorem Agrees.follows_run : ∀ {es : List Event} {x : Exchange} {log : List SavedHolon}, x.Agrees log →
    x.server.store.Follows log → (∀ caller call, .ask caller call ∈ es → ∃ d, call = .typed d) →
    (∀ e ∈ es, e.Seeds) → (∀ before after, es = before ++ after → (x.run before).HasRoom) →
    (x.run es).server.store.Follows (log ++ x.log es)
  | [], _, log, _, hfollows, _, _, _ => (List.append_nil log).symm ▸ hfollows
  | e :: es, x, log, h, hfollows, hask, hseeds, hroom => by
    have hstep := h.step fun caller call he => hask caller call (he ▸ List.mem_cons_self)
    have hnext := h.follows_step hfollows (hroom [] _ rfl) (hseeds e List.mem_cons_self)
    have hrest := hstep.follows_run hnext (fun caller call he => hask caller call (List.mem_cons_of_mem _ he))
      (fun e he => hseeds e (List.mem_cons_of_mem _ he))
      fun before after hsplit => hroom (e :: before) after (by rw [hsplit]; rfl)
    rw [List.append_assoc] at hrest
    exact hrest

/-- **Client and store agree on what was committed.**  Whatever is called, in whatever order, and however it is failed,
delayed, cancelled or given up: what the client lists is a part, in order, of what the server persisted by commits, and
all of it unless a call has ended with an error that leaves its outcome open.  Only somebody else changes the store, or
a call that ends at once, with a result or with such an error; so a call that ends with any other error has left the
store as it was.  If the ids in the store are at most its counter, and the counter has room, what is persisted goes
behind what is there and the ids rise, so that nothing is listed twice. -/
theorem client_and_store_agree (setup : ClientSetup) (c : Client) (h : setup.build = .ok c) (server : Server)
    (ids : IdSource) (es : List Event) (hask : ∀ caller call, .ask caller call ∈ es → ∃ d, call = .typed d) :
    let start : Exchange := ⟨.idle c, server, ids⟩
    let committed := (start.run es).lane.client.committed
    committed.Sublist (start.log es) ∧
      ((start.run es).lane.Conclusive → committed = start.log es) ∧
      (∀ before e after, es = before ++ e :: after →
        let x := start.run before
        (x.step e).server.store = x.server.store ∨ (∃ change, e = .tend change) ∨
          ∃ caller outcome, e = .serve caller ∧ (x.step e).lane.ended = x.lane.ended ++ [(caller, outcome)] ∧
            ∀ err, outcome = .error err → (ClientError.ofCall err).outcomeUnknown = true) ∧
      (server.store.Counted → (∀ e ∈ es, e.Seeds) →
        (∀ before after, es = before ++ after → (start.run before).HasRoom) →
        (start.log es).Pairwise (fun a b => KeyOrder.before a.savedId b.savedId = true) ∧
          (committed.map SavedHolon.savedId).Nodup ∧
          ∀ before caller after, es = before ++ .serve caller :: after →
            let x := start.run before
            let x' := x.step (.serve caller)
            x'.server.saved = x.server.saved ++ x.persists (.serve caller) ∨
              x.persists (.serve caller) = [] ∧ ∃ id, x'.server.store.saved = x.server.store.saved.erase id) := by
  intro start committed
  have hstart : start.Agrees [] := agrees_start h server ids
  have hend := hstart.run hask
  rw [List.nil_append] at hend
  have hbefore (before after : List Event) (hsplit : es = before ++ after) :
      ∀ caller call, .ask caller call ∈ before → ∃ d, call = .typed d := fun caller call hmem =>
    hask caller call (hsplit ▸ List.mem_append_left _ hmem)
  -- What holds of a whole run holds of the part of it before any event.
  refine ⟨hend.listed, hend.complete, fun before e after hsplit => ?_, fun hcounted hseeds hroom => ?_⟩
  · exact (hstart.run (hbefore before _ hsplit)).store_step e
  · have hfollows : start.server.store.Follows [] := ⟨hcounted, fun h hmem => (by cases hmem), .nil⟩
    have hrising := (hstart.follows_run hfollows hask hseeds hroom).rising
    rw [List.nil_append] at hrising
    have hnodup : (committed.map SavedHolon.savedId).Nodup :=
      List.pairwise_map.2 ((hrising.sublist hend.listed).imp KeyOrder.ne_of_before)
    refine ⟨hrising, hnodup, fun before caller after hsplit => ?_⟩
    have hthen := hstart.run (hbefore before _ hsplit)
    have hfollows' := hstart.follows_run hfollows (hbefore before _ hsplit)
      (fun e he => hseeds e (hsplit ▸ List.mem_append_left _ he)) fun first rest hfirst =>
        hroom first (rest ++ .serve caller :: after) (by rw [hsplit, hfirst, List.append_assoc])
    exact (hthen.follows_serve hfollows' (hroom before _ hsplit) caller).2

def dancing (caller : Nat) (d : Dance) : List Event := [.ask caller (.typed d), .enter caller, .launch caller]

/-- Two holons are staged and committed one after the other; the second commit is cancelled before it is run. -/
def overtaken : List Event :=
  dancing 0 (.stageNewHolon (.new ∅)) ++ [.serve 0] ++ dancing 1 .commit ++ [.serve 1] ++
    (dancing 2 (.stageNewHolon (.new ∅)) ++ [.serve 2] ++ dancing 3 .commit ++ [.cancel, .serve 3])

def atRest : Exchange := ⟨.idle .fresh, .new ⟨"local"⟩, .ofPresets []⟩

/-- The first commit is on both lists, the second on that of the server alone. -/
theorem client_and_store_agree_when_overtaken :
    (atRest.run (overtaken.take 8)).lane.client.committed = atRest.log (overtaken.take 8) ∧
      (atRest.run overtaken).lane.client.committed.length = 1 ∧ (atRest.log overtaken).length = 2 ∧
      (atRest.run overtaken).lane.client.committed.Sublist (atRest.log overtaken) ∧
      (atRest.log overtaken).Pairwise fun a b => KeyOrder.before a.savedId b.savedId = true := by
  have hask : ∀ caller call, .ask caller call ∈ overtaken → ∃ d, call = .typed d := by
    intro caller call hmem
    simp [overtaken, dancing] at hmem
    rcases hmem with ⟨-, rfl⟩ | ⟨-, rfl⟩ | ⟨-, rfl⟩ | ⟨-, rfl⟩ <;> exact ⟨_, rfl⟩
  have hseeds : ∀ e ∈ overtaken, e.Seeds := by simp [overtaken, dancing, Event.Seeds]
  have hroom : ∀ before after, overtaken = before ++ after → (atRest.run before).HasRoom := by
    have hprefixes : ∀ n ≤ overtaken.length, (atRest.run (overtaken.take n)).HasRoom := by decide +kernel
    intro before after hsplit
    have hbefore : before = overtaken.take before.length := by rw [hsplit, List.take_left]
    rw [hbefore]
    exact hprefixes _ (by rw [hsplit, List.length_append]; exact Nat.le_add_right _ _)
  have hended : (atRest.run (overtaken.take 8)).lane.ended.all fun o => o.2.toOption.isSome := by decide +kernel
  have hconclusive : (atRest.run (overtaken.take 8)).lane.Conclusive := fun o ho e he => by
    have hresult := List.all_eq_true.1 hended o ho
    rw [he] at hresult
    cases hresult
  have hbuild : ClientSetup.build ⟨.default, none⟩ = .ok .fresh := rfl
  obtain ⟨-, hcomplete, -, -⟩ := client_and_store_agree _ _ hbuild (.new ⟨"local"⟩) (.ofPresets []) (overtaken.take 8)
    fun caller call hmem => hask caller call (List.mem_of_mem_take hmem)
  obtain ⟨hlisted, -, -, hrises⟩ := client_and_store_agree _ _ hbuild (.new ⟨"local"⟩) (.ofPresets []) overtaken hask
  exact ⟨hcomplete hconclusive, by decide +kernel, by decide +kernel, hlisted,
    (hrises Store.counted_empty hseeds hroom).1⟩

end Exchange

end Holarchy
