import Holarchy.Proofs.Client.Cancellation
import Holarchy.Proofs.Client.Orders
/-!
# Answers that are in order are accepted

A server that runs a dance of the catalog answers with a sound session of the same transaction and with a body of the
shape that the dance expects.  So the client takes the answer over, unless the call was cancelled while it was on its
way.
-/
namespace Holarchy

/-- The error finds fault with the form of an answer: its session, or the shape of its body. -/
def CallError.isMalformed : CallError → Bool
  | .refused (.invalidWireFormat _) | .missingSnapshot _ | .internal _ => true
  | _ => false

/-- A computation that is not refused for the form of a session. -/
def WellFormed {α : Type} (x : Except Refusal α) : Prop := ∀ e, x = .error e → (CallError.refused e).isMalformed = false

namespace WellFormed

theorem ok {α : Type} (a : α) : WellFormed (.ok a) := nofun

theorem error {α : Type} {e : Refusal} (h : (CallError.refused e).isMalformed = false) :
    WellFormed (.error e : Except Refusal α) := fun _ he => Except.error.inj he ▸ h

theorem bind {α β : Type} {first : Except Refusal α} {next : α → Except Refusal β} (h : WellFormed first)
    (h' : ∀ a, WellFormed (next a)) : WellFormed (first >>= next) := by
  cases first with
  | error e => exact error (h e rfl)
  | ok a => exact h' a

theorem map {α β : Type} {first : Except Refusal α} {f : α → β} (h : WellFormed first) : WellFormed (first.map f) := by
  cases first with
  | error e => exact error (h e rfl)
  | ok a => exact ok (f a)

theorem checkTx (r : Reference) (expected : TxId) : WellFormed (r.checkTx expected) := by
  unfold Reference.checkTx
  split
  · exact ok ()
  · exact error rfl

theorem checkAccess (h : Holon) (access : Access) : WellFormed (h.checkAccess access) := by
  unfold Holon.checkAccess
  split
  · exact ok ()
  · exact error rfl

theorem checkStagedAccess (s : SessionState) (target : StagedReference) (access : Access) :
    WellFormed (s.checkStagedAccess target access) := by
  refine bind (checkTx _ _) fun _ => ?_
  split
  · exact checkAccess _ _
  · exact ok ()

theorem pooledStaged? (s : SessionState) (target : StagedReference) : WellFormed (s.pooledStaged? target) :=
  bind (checkTx _ _) fun _ => ok _

theorem abandon (h : StagedHolon) : WellFormed h.abandon := by
  unfold StagedHolon.abandon
  split
  · exact ok _
  · exact error rfl

/-- What a dance is refused for before it is sent is never the form of a session. -/
theorem guard (d : Dance) (s : SessionState) : WellFormed (d.guard s) := by
  cases d with
  | newHolon | commit | getAllHolons | getHolonById | stageNewVersion | deleteHolon => exact ok ()
  | stageNewHolon holon | getStagedHolonByKey key | queryRelationships sources relationship | loadHolons content =>
    simp only [Dance.guard]
    split
    · first | exact ok () | exact error rfl
    · first | exact ok () | exact error rfl
  | stageTransient target =>
    refine bind (checkTx _ _) fun _ => ?_
    split
    · split
      · exact ok ()
      · exact error rfl
    · exact ok ()
  | withProperties target | removeProperties target => exact checkStagedAccess s target .write
  | addRelatedHolons target relationship | removeRelatedHolons target relationship =>
    simp only [Dance.guard]
    split
    · exact error rfl
    · exact checkStagedAccess s target .write
  | abandonStagedChanges target =>
    refine bind (pooledStaged? s target) fun h => ?_
    cases h with
    | none => exact ok ()
    | some h => exact map (abandon h)
  | commitOne target =>
    refine bind (pooledStaged? s target) fun h => ?_
    cases h with
    | none => exact ok ()
    | some h =>
      simp only
      split
      · exact ok ()
      · exact error rfl
  | stageNewFromClone source =>
    refine bind (checkTx _ _) fun _ => ?_
    split
    · exact checkAccess _ _
    · exact ok ()

theorem request (d : Dance) (space : SpaceId) (s : SessionState) : WellFormed (d.request space s) :=
  bind (guard d s) fun _ => ok _

end WellFormed

/-- **Every dance is answered in the shape that it expects.** -/
theorem Store.Gives.expected {s : Store} {embed : Bool} {session : SessionState} {ids ids' : IdSource} {served : Served}
    {d : Dance} (h : s.Gives embed session ids d.order served ids') {r : Reconciliation} (hbody : r.body = served.body)
    (hfindings : r.findings = .ofBody served.session served.body) : ∃ answer, Answer.ofDance? d r = some answer := by
  obtain ⟨seq, status, state, findings, body⟩ := r
  simp only at hbody hfindings
  subst hbody hfindings
  generalize horder : d.order = order at h
  cases h with
  | drafted properties =>
    cases d <;> cases horder
    exact ⟨_, rfl⟩
  | @staged g =>
    cases g <;> cases d <;> cases horder
    all_goals exact ⟨_, rfl⟩
  | loaded content hs =>
    cases d <;> cases horder
    exact ⟨_, rfl⟩
  | commanded hcommand =>
    cases d <;> cases horder
    all_goals first | cases hcommand; done | exact ⟨_, rfl⟩
  | @committed _ es _ hcommitting hsome hcommits =>
    have hcommitted : (Findings.ofBody served.session served.body).committed = s.additions (es.map Prod.snd) := by
      rw [Findings.committed_ofBody, hcommits.views]
    cases d <;> cases horder <;> try cases hcommitting; done
    · exact ⟨_, rfl⟩
    · -- A commit of one holon lists at least that one.
      obtain ⟨e, es, rfl⟩ := List.exists_cons_of_ne_nil (hsome _ rfl)
      rw [List.map_cons, Store.additions_cons] at hcommitted
      simp only [Answer.ofDance?, hcommitted, List.head?_cons, Option.map_some]
      exact ⟨_, rfl⟩
  | answered hreading =>
    cases d <;> cases horder <;> try cases hreading; done
    · cases hreading
      exact ⟨_, rfl⟩
    · obtain ⟨holon, -, rfl⟩ := exists_of_map_eq_ok (Option.some.inj hreading)
      exact ⟨_, rfl⟩
    · obtain ⟨reference, -, rfl⟩ := exists_of_map_eq_ok (Option.some.inj hreading)
      exact ⟨_, rfl⟩
    · obtain ⟨members, -, rfl⟩ := exists_of_map_eq_ok (Option.some.inj hreading)
      exact ⟨_, rfl⟩
  | deleted =>
    cases d <;> cases horder
    exact ⟨_, rfl⟩

/-- A setup without a state starts an empty session. -/
theorem ClientSetup.state_of_build {setup : ClientSetup} {c : Client} (h : setup.build = .ok c)
    (hempty : setup.state = none) : c.state = .new setup.config.tx := by
  simp only [build, startState, hempty, bind, Except.bind] at h
  split at h
  · cases h
  · cases h
    rfl

namespace Client

/-- An answer in which nothing is wrong is taken over if its call is still the latest. -/
theorem land_of_current (c : Client) {f : Flight} {response : DanceResponse} {r : Reconciliation} {answer : Answer}
    (hcurrent : c.session.isCurrent f.seq = true) (hcancels : f.call.cancels = false)
    (hr : reconcile f.name f.seq f.before response = .ok r) (hx : f.call.extract r = some answer) :
    (c.land f (.ok response)).1 = .ok (r, answer) ∧ (c.land f (.ok response)).2.state = r.state := by
  rw [outcome_land, Client.state, session_land]
  simp only [Session.land, Session.examine, hcurrent, if_true, hr, Session.settle, hx, hcancels, Bool.false_eq_true,
    if_false, Session.install]
  exact ⟨trivial, rfl⟩

theorem land_of_overtaken (c : Client) {f : Flight} (hcurrent : c.session.isCurrent f.seq = false)
    (response : DanceResponse) : (c.land f (.ok response)).1 = .error (.cancelled f.seq) := by
  simp only [land, Session.land, Session.examine, hcurrent, Bool.false_eq_true, if_false]

/-- A refusal by the server is passed on, unless the call was cancelled. -/
theorem land_of_rejected (c : Client) {f : Flight} {response : DanceResponse}
    (hstatus : response.status.isSuccess = false) :
    (c.land f (.ok response)).1 = .error (.cancelled f.seq) ∨
      (c.land f (.ok response)).1 = .error (.rejected f.name response.status response.description) := by
  rw [outcome_land]
  simp only [Session.land, Session.examine]
  cases c.session.isCurrent f.seq with
  | false => exact .inl rfl
  | true =>
    simp only [if_true, reconcile_of_failure f.name f.seq f.before hstatus]
    exact .inr trivial

end Client

namespace Lane

/-- **A call on its way has been there before, or is the latest.** -/
theorem Guarded.flying_step {l : Lane} (h : l.Guarded) (m : Move) {caller : Nat} {f : Flight}
    (hin : (caller, .flying f) ∈ (l.step m).inside) :
    (l.step m).client.session.isCurrent f.seq = true ∨
      (caller, .flying f) ∈ l.inside ∧ (m = .cancel ∨ (l.step m).client.session.issued = l.client.session.issued) := by
  have hgone {other : Nat} {p : Progress} (hlookup : l.inside.lookup other = some p) :
      (caller, .flying f) ∉ l.others other := by
    rw [h.others_eq_nil hlookup]
    exact List.not_mem_nil
  have hstep := l.happens_step m
  generalize hl' : l.step m = l' at hstep hin ⊢
  cases hstep with
  | nothing | asked | withdrawn => exact .inr ⟨hin, .inr rfl⟩
  | entered =>
    rcases List.mem_append.1 hin with hin | hin
    · exact .inr ⟨hin, .inr rfl⟩
    · cases List.mem_singleton.1 hin
  | @launched other call g c hlookup hcall =>
    -- Nothing was on its way before, so the account of cancellations starts at nothing.
    have hready : l.Counts 0 := by
      intro caller' f' hf'
      rw [h.eq_singleton hlookup, List.mem_singleton] at hf'
      cases hf'
    have hcounts := hready.launch h other
    rw [Nat.le_zero.1 (l.recount_le 0 (.launch other)), hl'] at hcounts
    exact .inl (decide_eq_true ((hcounts caller f hin).trans (UInt64.add_zero _)))
  | refused hlookup => exact absurd hin (hgone hlookup)
  | failed hf => exact absurd hin (hgone (lookup_of_flight? hf))
  | landed hf => exact absurd hin (hgone (lookup_of_flight? hf))
  | left hlookup => exact absurd hin (hgone hlookup)
  | cancelled => exact .inr ⟨hin, .inl rfl⟩

/-- A call that ends without a reply was refused before it was sent, or had its time. -/
theorem ended_step (l : Lane) {m : Move} (hreply : ∀ caller reply, m ≠ .reply caller reply) :
    (l.step m).ended = l.ended ∨ ∃ caller e, (l.step m).ended = l.ended ++ [(caller, .error e)] ∧
      ((∃ call why, (caller, call) ∈ l.calls ∧ call.build l.client.space l.client.state = .error why ∧
        e = .refused why) ∨ ∃ name elapsed, e = .timeout name elapsed) := by
  by_cases hexpire : ∃ caller, m = .expire caller
  · obtain ⟨caller, rfl⟩ := hexpire
    simp only [step]
    split
    · exact .inr ⟨caller, _, rfl, .inr ⟨_, _, rfl⟩⟩
    · exact .inl rfl
  · have hstep := l.happens_step m
    generalize l.step m = l' at hstep ⊢
    cases hstep with
    | @refused caller call e hlookup hbuild =>
      exact .inr ⟨caller, _, rfl, .inl ⟨call, e, mem_calls.2 (.inr ⟨_, mem_of_lookup hlookup, rfl⟩), hbuild, rfl⟩⟩
    | failed _ hm =>
      rcases hm with rfl | ⟨reply, rfl⟩
      · exact absurd ⟨_, rfl⟩ hexpire
      · exact absurd rfl (hreply _ reply)
    | landed => exact absurd rfl (hreply _ _)
    | _ => exact .inl rfl

end Lane

/-- No key comes to name a transient holon if none names what is drawn. -/
theorem Store.Gives.unkeyed {s : Store} {embed : Bool} {session : SessionState} {ids ids' : IdSource} {order : Order}
    {served : Served} (h : s.Gives embed session ids order served ids')
    (hdrawn : ∀ id, ids.Draws ids' id → ∀ key, id ≠ .ofKey key)
    (hunkeyed : ∀ key, session.transientHolons.contains (.ofKey key) = false) (key : String) :
    served.session.transientHolons.contains (.ofKey key) = false := by
  refine Bool.eq_false_iff.2 fun hkey => ?_
  rcases h.transient with hsame | ⟨properties, -, hadvance, hinsert⟩ | ⟨target, -, hremove⟩
  · rw [hsame, hunkeyed] at hkey
    cases hkey
  · rw [hinsert, Pool.contains_insert, hunkeyed] at hkey
    rcases hkey with hkey | hkey
    · exact hdrawn _ (hadvance ▸ IdSource.draws_advance_iff.2 rfl) key hkey.symm
    · cases hkey
  · rw [hremove] at hkey
    have hbefore := Pool.contains_of_remove hkey
    rw [hunkeyed] at hbefore
    cases hbefore

namespace Exchange

theorem lane_step (x : Exchange) (e : Event) :
    (x.step e).lane = x.lane ∨ ∃ m, (x.step e).lane = x.lane.step m ∧ (m = .cancel → e = .cancel) := by
  cases e with
  | serve caller =>
    simp only [step]
    split
    · exact .inl rfl
    · exact .inr ⟨.reply caller (.ok _), rfl, fun h => by cases h⟩
  | tend change => exact .inl rfl
  | cancel => exact .inr ⟨.cancel, rfl, fun _ => rfl⟩
  | ask caller call => exact .inr ⟨.ask caller call, rfl, fun h => by cases h⟩
  | enter caller => exact .inr ⟨.enter caller, rfl, fun h => by cases h⟩
  | launch caller => exact .inr ⟨.launch caller, rfl, fun h => by cases h⟩
  | expire caller => exact .inr ⟨.expire caller, rfl, fun h => by cases h⟩
  | drop caller => exact .inr ⟨.drop caller, rfl, fun h => by cases h⟩

theorem guarded_step {x : Exchange} (h : x.lane.Guarded) (e : Event) : (x.step e).lane.Guarded := by
  rcases x.lane_step e with hsame | ⟨m, hm, -⟩
  · rw [hsame]
    exact h
  · rw [hm]
    exact h.step m

/-- **A call on its way is the latest unless it was cancelled while it was on its way.** -/
theorem current_or_cancelled {caller : Nat} {f : Flight} : ∀ {es : List Event} {x : Exchange}, x.lane.Guarded →
    ((caller, .flying f) ∈ x.lane.inside → x.lane.client.session.isCurrent f.seq = true) →
    (caller, .flying f) ∈ (x.run es).lane.inside → (x.run es).lane.client.session.isCurrent f.seq = true ∨
      ∃ first rest, es = first ++ .cancel :: rest ∧ (caller, .flying f) ∈ (x.run first).lane.inside
  | [], _, _, hcurrent, hin => .inl (hcurrent hin)
  | e :: es, x, h, hcurrent, hin => by
    by_cases hcancel : e = .cancel ∧ (caller, .flying f) ∈ x.lane.inside
    · obtain ⟨rfl, hbefore⟩ := hcancel
      exact .inr ⟨[], es, rfl, hbefore⟩
    · have hnext : (caller, .flying f) ∈ (x.step e).lane.inside →
          (x.step e).lane.client.session.isCurrent f.seq = true := by
        rcases x.lane_step e with hsame | ⟨m, hm, hmcancel⟩
        · rw [hsame]
          exact hcurrent
        · rw [hm]
          intro hstep
          rcases h.flying_step m hstep with hcurrent' | ⟨hbefore, rfl | hissued⟩
          · exact hcurrent'
          · exact absurd ⟨hmcancel rfl, hbefore⟩ hcancel
          · unfold Session.isCurrent at hcurrent ⊢
            rw [hissued]
            exact hcurrent hbefore
      refine (current_or_cancelled (guarded_step h e) hnext hin).imp_right ?_
      rintro ⟨first, rest, rfl, hfirst⟩
      exact ⟨e :: first, rest, rfl, hfirst⟩

/-- No transient holon stands under an id that a key names, and no call has failed for the form of an answer. -/
structure Accepts (x : Exchange) : Prop where
  unkeyed : ∀ key, x.state.transientHolons.contains (.ofKey key) = false
  ended : ∀ o ∈ x.lane.ended, ∀ e, o.2 = .error e → e.isMalformed = false

variable {x : Exchange} {log : List SavedHolon} {caller : Nat} {f : Flight}

/-- **An answer of success is in order**: a sound session of the same transaction, and the body that the dance
expects. -/
theorem Agrees.answered (h : x.Agrees log) (hunkeyed : ∀ key, x.state.transientHolons.contains (.ofKey key) = false)
    (hf : x.lane.flight? caller = some f) (hfresh : x.Fresh (.serve caller))
    (hok : (x.server.handle f.request x.ids).1.1.status.isSuccess = true) :
    ∃ d s' r answer, f.call = .typed d ∧ (x.server.handle f.request x.ids).1.1.snapshot = some s' ∧
      s'.txId = x.state.txId ∧ s'.checkInvariants = .ok () ∧
      (∀ key, s'.transientHolons.contains (.ofKey key) = false) ∧
      reconcile f.name f.seq x.state (x.server.handle f.request x.ids).1.1 = .ok r ∧ r.state = s' ∧
      Answer.ofDance? d r = some answer := by
  obtain ⟨d, served, hd, hgives, hhandle⟩ := h.gives_of_isSuccess hf hok
  have hsound : served.session.checkInvariants = .ok () :=
    SessionState.checkInvariants_eq_ok_iff.2 (hgives.sound h.sound (fun id hid => (hfresh id hid).1) hunkeyed)
  have hunkeyed' := hgives.unkeyed (fun id hid => (hfresh id hid).2) hunkeyed
  rw [hhandle]
  have hsuccess : (DanceResponse.ok x.server.space served.body served.session).status.isSuccess = true := rfl
  obtain ⟨r, hr, -⟩ := reconcile_of_sound f.name f.seq hsuccess rfl hgives.scope.1 hsound
  obtain ⟨-, hsnapshot, -, -, hfields⟩ := reconcile_ok hr
  have hstate : r.state = served.session := (Option.some.inj hsnapshot).symm
  rw [hstate] at hfields
  obtain ⟨answer, hanswer⟩ := hgives.expected (r := r) (by rw [hfields]; rfl) (by rw [hfields]; rfl)
  exact ⟨d, served.session, r, answer, hd, rfl, hgives.scope.1, hsound, hunkeyed', hr, hstate, hanswer⟩

/-- **What an answer comes to**: a refusal is passed on, and what is in order is taken over, unless the call was
cancelled. -/
theorem Agrees.outcome (h : x.Agrees log) (hunkeyed : ∀ key, x.state.transientHolons.contains (.ofKey key) = false)
    (hf : x.lane.flight? caller = some f) (hfresh : x.Fresh (.serve caller)) :
    ∃ outcome, (x.step (.serve caller)).lane.ended = x.lane.ended ++ [(caller, outcome)] ∧
      (outcome = .error (.cancelled f.seq) ∨
        (∃ status why, outcome = .error (.rejected f.name status why) ∧
          (x.server.handle f.request x.ids).1.1.status.isSuccess = false) ∨
        ∃ result, outcome = .ok result) := by
  obtain ⟨server, ids, hstep⟩ := step_serve hf
  refine ⟨_, by rw [hstep, Lane.ended_reply hf], ?_⟩
  cases hok : (x.server.handle f.request x.ids).1.1.status.isSuccess with
  | false => exact (x.lane.client.land_of_rejected hok).imp_right fun hrejected => .inl ⟨_, _, hrejected, rfl⟩
  | true =>
    obtain ⟨-, -, hbefore, -⟩ := h.flight hf
    obtain ⟨d, s', r, answer, hd, -, -, -, -, hr, -, hanswer⟩ := h.answered hunkeyed hf hfresh hok
    have hextract : f.call.extract r = some answer := by rw [hd]; exact hanswer
    exact (x.lane.client.land_of_reconcile (hbefore ▸ hr) hextract).imp_right fun hland => .inr ⟨_, hland⟩

/-- A move that is no reply ends no call for the form of an answer. -/
theorem Agrees.accepts_move (h : x.Agrees log) (haccepts : x.Accepts) {m : Move}
    (hreply : ∀ caller reply, m ≠ .reply caller reply) :
    ∀ o ∈ (x.lane.step m).ended, ∀ e, o.2 = .error e → e.isMalformed = false := by
  intro o ho e he
  rcases x.lane.ended_step hreply with hended | ⟨caller, e', hended, hwhy⟩
  · exact haccepts.ended o (hended ▸ ho) e he
  · have ho' : o ∈ x.lane.ended ++ [(caller, .error e')] := hended ▸ ho
    rcases List.mem_append.1 ho' with ho' | ho'
    · exact haccepts.ended o ho' e he
    · rw [List.mem_singleton.1 ho'] at he
      cases he
      rcases hwhy with ⟨call, why, hcall, hbuild, rfl⟩ | ⟨name, elapsed, rfl⟩
      · obtain ⟨d, hd⟩ := h.calls _ hcall
        simp only at hd
        rw [hd] at hbuild
        exact WellFormed.request d _ _ why hbuild
      · rfl

theorem Agrees.accepts_serve (h : x.Agrees log) (haccepts : x.Accepts) (hfresh : x.Fresh (.serve caller)) :
    ∀ o ∈ (x.step (.serve caller)).lane.ended, ∀ e, o.2 = .error e → e.isMalformed = false := by
  intro o ho e he
  cases hf : x.lane.flight? caller with
  | none =>
    rw [(step_serve_of_none hf).1] at ho
    exact haccepts.ended o ho e he
  | some f =>
    obtain ⟨outcome, hended, houtcome⟩ := h.outcome haccepts.unkeyed hf hfresh
    rw [hended] at ho
    rcases List.mem_append.1 ho with ho | ho
    · exact haccepts.ended o ho e he
    · rw [List.mem_singleton.1 ho] at he
      rcases houtcome with rfl | ⟨status, why, rfl, -⟩ | ⟨result, rfl⟩ <;> cases he <;> rfl

theorem Agrees.unkeyed_step (h : x.Agrees log)
    (hunkeyed : ∀ key, x.state.transientHolons.contains (.ofKey key) = false) {e : Event} (hfresh : x.Fresh e) :
    ∀ key, (x.step e).state.transientHolons.contains (.ofKey key) = false := by
  cases horder : x.order? e with
  | none =>
    rw [h.state_of_order?_eq_none horder]
    exact hunkeyed
  | some order =>
    obtain ⟨served, hgives, hstate⟩ := h.gives_of_order? horder
    rw [hstate]
    exact hgives.unkeyed (fun id hid => (hfresh id hid).2) hunkeyed

theorem Agrees.accepts_step (h : x.Agrees log) (haccepts : x.Accepts) {e : Event} (hfresh : x.Fresh e) :
    (x.step e).Accepts := by
  refine ⟨h.unkeyed_step haccepts.unkeyed hfresh, ?_⟩
  cases e with
  | serve caller => exact h.accepts_serve haccepts hfresh
  | tend change => exact haccepts.ended
  | ask | enter | launch | expire | drop | cancel => exact h.accepts_move haccepts (by simp)

theorem Agrees.accepts_run : ∀ {es : List Event} {x : Exchange} {log : List SavedHolon}, x.Agrees log → x.Accepts →
    (∀ caller call, .ask caller call ∈ es → ∃ d, call = .typed d) →
    (∀ before e after, es = before ++ e :: after → (x.run before).Fresh e) → (x.run es).Accepts
  | [], _, _, _, haccepts, _, _ => haccepts
  | e :: es, x, log, h, haccepts, hask, hfresh =>
    (h.step fun caller call he => hask caller call (he ▸ List.mem_cons_self)).accepts_run
      (h.accepts_step haccepts (hfresh [] e es rfl))
      (fun caller call he => hask caller call (List.mem_cons_of_mem _ he))
      fun before e' after hsplit => hfresh (e :: before) e' after (by rw [hsplit]; rfl)

/-- **Answers that are in order are accepted.**  A client starts from an empty session; whatever is called, in whatever
order and with whatever arguments, and however the server is changed and calls are delayed, cancelled or given up: if
what the server draws is always fresh, every success that it answers with carries a sound session of the transaction of
the client and the body that its dance expects.  The call then comes to its result, and the session is the one that was
answered, unless the call was cancelled while it was on its way.  What the server refuses is passed on as its refusal,
and no call ever fails for the form of an answer. -/
theorem answers_in_order_are_accepted (setup : ClientSetup) (c : Client) (h : setup.build = .ok c)
    (hempty : setup.state = none) (server : Server) (ids : IdSource) (es : List Event)
    (hask : ∀ caller call, .ask caller call ∈ es → ∃ d, call = .typed d)
    (hfresh : ∀ before e after, es = before ++ e :: after →
      ((⟨.idle c, server, ids⟩ : Exchange).run before).Fresh e) :
    let start : Exchange := ⟨.idle c, server, ids⟩
    (∀ before caller after f, es = before ++ .serve caller :: after →
      (start.run before).lane.flight? caller = some f →
      let x := start.run before
      let x' := x.step (.serve caller)
      let response := (x.server.handle f.request x.ids).1.1
      (response.status.isSuccess = true → ∃ d s' r answer, f.call = .typed d ∧ response.snapshot = some s' ∧
        s'.txId = x.state.txId ∧ s'.checkInvariants = .ok () ∧ reconcile f.name f.seq x.state response = .ok r ∧
        Answer.ofDance? d r = some answer ∧
        (x'.lane.ended = x.lane.ended ++ [(caller, .ok (r, answer))] ∧ x'.state = s' ∨
          x'.lane.ended = x.lane.ended ++ [(caller, .error (.cancelled f.seq))] ∧
            ∃ first rest, before = first ++ .cancel :: rest ∧
              (caller, .flying f) ∈ (start.run first).lane.inside)) ∧
        (response.status.isSuccess = false → ∃ e, x'.lane.ended = x.lane.ended ++ [(caller, .error e)] ∧
          (e = .cancelled f.seq ∨ ∃ status why, e = .rejected f.name status why))) ∧
      ∀ o ∈ (start.run es).lane.ended, ∀ e, o.2 = .error e → e.isMalformed = false := by
  intro start
  have hagrees : start.Agrees [] := agrees_start h server ids
  have haccepts : start.Accepts := ⟨fun key => by
    show c.state.transientHolons.contains _ = false
    rw [ClientSetup.state_of_build h hempty]
    rfl, fun o ho => by cases ho⟩
  refine ⟨fun before caller after f hsplit hf => ?_, (hagrees.accepts_run haccepts hask hfresh).ended⟩
  have hask' : ∀ caller call, .ask caller call ∈ before → ∃ d, call = .typed d := fun caller call hmem =>
    hask caller call (hsplit ▸ List.mem_append_left _ hmem)
  have hthen := hagrees.run hask'
  have hunkeyed := (hagrees.accepts_run haccepts hask' fun first e rest hfirst =>
    hfresh first e (rest ++ .serve caller :: after) (by rw [hsplit, hfirst, List.append_assoc]; rfl)).unkeyed
  have hnow := hfresh before _ after hsplit
  obtain ⟨server', ids', hstep⟩ := step_serve hf
  have hended := Lane.ended_reply hf (.ok ((start.run before).server.handle f.request (start.run before).ids).1.1)
  refine ⟨fun hok => ?_, fun hrefused => ?_⟩
  · obtain ⟨d, s', r, answer, hd, hsnapshot, htx, hsound, -, hr, hstate, hanswer⟩ := hthen.answered hunkeyed hf hnow hok
    obtain ⟨-, -, hbefore, -⟩ := hthen.flight hf
    have hextract : f.call.extract r = some answer := by rw [hd]; exact hanswer
    have hcancels : f.call.cancels = false := by rw [hd]; rfl
    refine ⟨d, s', r, answer, hd, hsnapshot, htx, hsound, hr, hanswer, ?_⟩
    cases hcurrent : (start.run before).lane.client.session.isCurrent f.seq with
    | true =>
      obtain ⟨hland, hlanded⟩ := Client.land_of_current _ hcurrent hcancels (hbefore ▸ hr) hextract
      refine .inl ⟨by rw [hstep, hended, hland], ?_⟩
      rw [hstep]
      show (Lane.step _ _).client.state = _
      simp only [Lane.step, hf, Lane.conclude]
      exact hlanded.trans hstate
    | false =>
      refine .inr ⟨by rw [hstep, hended, Client.land_of_overtaken _ hcurrent], ?_⟩
      rcases current_or_cancelled (Lane.guarded_idle (ClientSetup.build_ok h).1) (fun hin => by cases hin)
        (Lane.mem_inside_of_flight? hf) with hcurrent' | hcancelled
      · rw [hcurrent] at hcurrent'
        cases hcurrent'
      · exact hcancelled
  · rcases (start.run before).lane.client.land_of_rejected (f := f) hrefused with hland | hland
    · exact ⟨_, by rw [hstep, hended, hland], .inl rfl⟩
    · exact ⟨_, by rw [hstep, hended, hland], .inr ⟨_, _, rfl⟩⟩

/-- A holon is drafted and staged, then a successor of the book; a deletion is refused, and at last all is committed. -/
def visit : List Event :=
  dancing 0 (.newHolon ∅) ++ [.serve 0] ++ dancing 1 (.stageTransient ⟨⟨1⟩, .numbered 1⟩) ++ [.serve 1] ++
    dancing 2 (.stageNewVersion (.local (.numbered 1))) ++ [.serve 2] ++ dancing 3 (.deleteHolon (.numbered 9)) ++
    [.serve 3] ++ dancing 4 .commit ++ [.serve 4]

/-- The answer to the commit is in order and taken over; the refused deletion has not failed for the form of its
answer. -/
theorem answers_in_order_are_accepted_in_library :
    (∃ s', (inLibrary.run visit).state = s' ∧ s'.txId = ⟨1⟩ ∧ s'.checkInvariants = .ok ()) ∧
      (inLibrary.run visit).lane.ended.map (fun o => o.2.toOption.isSome) = [true, true, true, false, true] ∧
      ∀ o ∈ (inLibrary.run visit).lane.ended, ∀ e, o.2 = .error e → e.isMalformed = false := by
  have hask : ∀ caller call, .ask caller call ∈ visit → ∃ d, call = .typed d := by
    intro caller call hmem
    simp [visit, dancing] at hmem
    rcases hmem with ⟨-, rfl⟩ | ⟨-, rfl⟩ | ⟨-, rfl⟩ | ⟨-, rfl⟩ | ⟨-, rfl⟩ <;> exact ⟨_, rfl⟩
  have hunused : inLibrary.Unused visit := unused_of_presets rfl (by decide +kernel)
  obtain ⟨haccepted, hended⟩ := answers_in_order_are_accepted ⟨.default, none⟩ .fresh rfl rfl Server.withBook
    (.ofPresets []) visit hask fun _ _ _ hsplit => hunused.fresh hsplit
  refine ⟨?_, by decide +kernel, hended⟩
  let x := inLibrary.run (visit.take 19)
  have hanswer : (x.lane.flight? 4).all (fun f => (x.server.handle f.request x.ids).1.1.status.isSuccess) = true := by
    decide +kernel
  have hflies : (x.lane.flight? 4).isSome = true := by decide +kernel
  obtain ⟨f, hf⟩ := Option.isSome_iff_exists.1 hflies
  rw [hf] at hanswer
  obtain ⟨d, s', r, answer, -, -, htx, hsound, -, -, hcomes⟩ := (haccepted (visit.take 19) 4 [] f rfl hf).1 hanswer
  rcases hcomes with ⟨-, hstate⟩ | ⟨-, first, rest, hcancelled, -⟩
  · exact ⟨s', hstate, htx.trans (by decide +kernel), hsound⟩
  · have hmem : Event.cancel ∈ visit := List.mem_of_mem_take (hcancelled ▸ List.mem_append_right _ List.mem_cons_self)
    simp [visit, dancing] at hmem

end Exchange

end Holarchy
