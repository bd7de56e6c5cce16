import Holarchy.Proofs.Client.Cancellation
/-!
# The events of a session

A session announces two things: that the answer to a call was taken over, and that the server refused a call that had
not been cancelled.  `Report` says of what happened that it is to be announced, without a look at the log; and the log
is what the reports of a run announce, no more and no less, in the order of the swaps and of the numbers.
-/
namespace Holarchy

/-- What is announced. -/
inductive Report where
  | swapped (x : Swap)
  | rejected (caller : Nat) (flight : Flight) (response : DanceResponse)

namespace Report

def flight : Report → Flight
  | .swapped x => x.flight
  | .rejected _ f _ => f

/-- The event that announces it.  A swap is announced with the sizes of the pools that it put in place, and with how
many holons the response lists as committed. -/
def event : Report → SessionEvent
  | .swapped x =>
    .reconciled x.result.state.txId x.flight.seq x.flight.name x.result.state.transientHolons.size
      x.result.state.stagedHolons.size x.response.body.committedViews.length
  | .rejected _ f response => .rejected f.before.txId f.seq f.name response.status

/-- What the call came to. -/
def outcome : Report → Nat × Outcome
  | .swapped x => x.outcome
  | .rejected caller f response => (caller, .error (.rejected f.name response.status response.description))

def swap? : Report → Option Swap
  | .swapped x => some x
  | .rejected .. => none

theorem seq_event (r : Report) : r.event.seq = r.flight.seq := by
  cases r <;> rfl

/-- Lead from one state to another: a swap from the state that it finds to the one that it reports, a rejection nowhere
else. -/
def Chain (space : SpaceId) : SessionState → List Report → SessionState → Prop
  | s, [], s' => s = s'
  | s, .swapped x :: rs, s' => x.Links space s x.result.state ∧ Chain space x.result.state rs s'
  | s, .rejected _ f _ :: rs, s' => f.before = s ∧ Chain space s rs s'

theorem Chain.append {space : SpaceId} {s s' s'' : SessionState} {rs rs' : List Report} (h : Chain space s rs s')
    (h' : Chain space s' rs' s'') : Chain space s (rs ++ rs') s'' := by
  induction rs generalizing s with
  | nil => exact h ▸ h'
  | cons r rs ih =>
    cases r with
    | swapped x => exact ⟨h.1, ih h.2⟩
    | rejected caller f response => exact ⟨h.1, ih h.2⟩

end Report

/-- Nothing but a failure of the server is a rejection. -/
theorem ne_rejected_of_reconcile {dance : String} {seq : UInt64} {current : SessionState} {response : DanceResponse}
    {e : CallError} (hstatus : response.status.isSuccess = true)
    (h : reconcile dance seq current response = .error e) (dance' : String) (status : Status) (description : String) :
    e ≠ .rejected dance' status description := by
  rintro rfl
  unfold reconcile at h
  rw [if_pos hstatus] at h
  split at h
  · cases h
  · split at h
    · split at h <;> cases h
    · cases h

namespace Session

@[simp] theorem log_cancelInFlight (s : Session) : s.cancelInFlight.2.log = s.log := by
  unfold cancelInFlight; split <;> rfl

theorem issued_cancelInFlight (s : Session) :
    s.cancelInFlight.2.issued = s.issued ∨ s.cancelInFlight.2.issued = s.issued + 1 := by
  unfold cancelInFlight
  split
  · exact .inr rfl
  · exact .inl rfl

/-- What an examination announces: a refusal by the server, if the call is still the latest. -/
theorem examine_announces (s : Session) (f : Flight) (reply : Except CallError DanceResponse) :
    (∃ response r, reply = .ok response ∧ reconcile f.name f.seq f.before response = .ok r ∧
      s.examine f reply = (.ok r, s)) ∨
    (∃ response, reply = .ok response ∧ response.status.isSuccess = false ∧ s.isCurrent f.seq = true ∧
      s.examine f reply = (.error (.rejected f.name response.status response.description),
        s.emit (.rejected f.before.txId f.seq f.name response.status))) ∨
    ((∃ e, s.examine f reply = (.error e, s)) ∧
      ∀ response, reply = .ok response → response.status.isSuccess = true ∨ s.isCurrent f.seq = false) := by
  cases reply with
  | error e => exact .inr (.inr ⟨⟨e, rfl⟩, fun response h => by cases h⟩)
  | ok response =>
    simp only [examine]
    cases hcurrent : s.isCurrent f.seq with
    | false => exact .inr (.inr ⟨⟨_, rfl⟩, fun _ _ => .inr rfl⟩)
    | true =>
      cases hstatus : response.status.isSuccess with
      | false =>
        rw [reconcile_of_failure f.name f.seq f.before hstatus]
        exact .inr (.inl ⟨response, rfl, hstatus, rfl, rfl⟩)
      | true =>
        cases hr : reconcile f.name f.seq f.before response with
        | ok r => exact .inl ⟨response, r, rfl, hr, rfl⟩
        | error e =>
          refine .inr (.inr ⟨⟨e, ?_⟩, fun _ h => .inl (Except.ok.inj h ▸ hstatus)⟩)
          cases e with
          | rejected dance status description => exact absurd rfl (ne_rejected_of_reconcile hstatus hr _ _ _)
          | _ => rfl

/-- What a settlement announces: that the state was replaced, if the caller has its answer. -/
theorem settle_announces (s : Session) (f : Flight) (r : Reconciliation) :
    (∃ answer, (s.settle f r).1 = .ok (r, answer) ∧
      (s.settle f r).2.log = s.log ++ [.reconciled r.state.txId f.seq f.name r.state.transientHolons.size
        r.state.stagedHolons.size r.findings.committed.length]) ∨
    ((∃ e, (s.settle f r).1 = .error e) ∧ (s.settle f r).2.log = s.log) := by
  cases hx : f.call.extract r with
  | none =>
    simp only [settle, hx]
    exact .inr ⟨⟨_, rfl⟩, trivial⟩
  | some answer =>
    obtain ⟨s1, hs1, h⟩ := s.settle_of_extract hx
    have hlog : s1.log = s.log := by rcases hs1 with rfl | rfl <;> simp
    rcases h with h | h
    · rw [h]
      exact .inr ⟨⟨_, rfl⟩, hlog⟩
    · rw [h, ← hlog]
      exact .inl ⟨answer, rfl, rfl⟩

/-- A settlement uses a number up if its caller cancels meanwhile, and no more. -/
theorem issued_settle (s : Session) (f : Flight) (r : Reconciliation) :
    (s.settle f r).2.issued = s.issued ∨ (s.settle f r).2.issued = s.issued + 1 := by
  cases hx : f.call.extract r with
  | none =>
    simp only [settle, hx]
    exact .inl trivial
  | some answer =>
    obtain ⟨s1, hs1, h⟩ := s.settle_of_extract hx
    have hissued : s1.issued = s.issued ∨ s1.issued = s.issued + 1 := by
      rcases hs1 with rfl | rfl
      · exact .inl rfl
      · exact s.issued_cancelInFlight
    rcases h with h | h <;> rw [h] <;> exact hissued

/-- **What the landing of a reply announces**: that it was taken over, that it is a refusal of a call that is still the
latest, or nothing. -/
theorem land_announces (s : Session) (f : Flight) (reply : Except CallError DanceResponse) :
    (∃ response r answer, reply = .ok response ∧ reconcile f.name f.seq f.before response = .ok r ∧
      (s.land f reply).1 = .ok (r, answer) ∧
      (s.land f reply).2.log = s.log ++ [.reconciled r.state.txId f.seq f.name r.state.transientHolons.size
        r.state.stagedHolons.size r.findings.committed.length]) ∨
    (∃ response, reply = .ok response ∧ response.status.isSuccess = false ∧ s.isCurrent f.seq = true ∧
      (s.land f reply).1 = .error (.rejected f.name response.status response.description) ∧
      (s.land f reply).2.log = s.log ++ [.rejected f.before.txId f.seq f.name response.status]) ∨
    ((∃ e, (s.land f reply).1 = .error e) ∧ (s.land f reply).2.log = s.log ∧
      ∀ response, reply = .ok response → response.status.isSuccess = true ∨ s.isCurrent f.seq = false) := by
  unfold land
  rcases s.examine_announces f reply with ⟨response, r, rfl, hr, h⟩ | ⟨response, rfl, hstatus, hcurrent, h⟩ |
    ⟨⟨e, h⟩, hquiet⟩
  · rw [h]
    rcases s.settle_announces f r with ⟨answer, houtcome, hlog⟩ | ⟨⟨e, houtcome⟩, hlog⟩
    · exact .inl ⟨response, r, answer, rfl, hr, houtcome, hlog⟩
    · refine .inr (.inr ⟨⟨e, houtcome⟩, hlog, fun _ hresponse => ?_⟩)
      exact .inl (Except.ok.inj hresponse ▸ (reconcile_ok hr).1)
  · rw [h]
    exact .inr (.inl ⟨response, rfl, hstatus, hcurrent, rfl, rfl⟩)
  · rw [h]
    exact .inr (.inr ⟨⟨e, rfl⟩, rfl, hquiet⟩)

/-- A landing uses a number up if its settlement does. -/
theorem issued_land (s : Session) (f : Flight) (reply : Except CallError DanceResponse) :
    (s.land f reply).2.issued = s.issued ∨ (s.land f reply).2.issued = s.issued + 1 := by
  unfold land
  rcases s.examine_announces f reply with ⟨response, r, -, -, h⟩ | ⟨response, -, -, -, h⟩ | ⟨⟨e, h⟩, -⟩
  · rw [h]
    exact s.issued_settle f r
  · rw [h]
    exact .inl rfl
  · rw [h]
    exact .inl rfl

end Session

namespace Lane

/-- The rejection that a move announces: the caller has received, without having been cancelled since its request went
out, a response of failure. -/
def rejection? (l : Lane) (n : Nat) : Move → Option Report
  | .reply caller (.ok response) =>
    match l.flight? caller with
    | some f =>
      if response.status.isSuccess = false ∧ n % UInt64.size = 0 then some (.rejected caller f response) else none
    | none => none
  | _ => none

/-- What a move announces: the swap, if the call has its result, or the rejection. -/
def report? (l : Lane) (n : Nat) (m : Move) : Option Report :=
  match l.swap? m with
  | some x => some (.swapped x)
  | none => l.rejection? n m

/-- What some moves announce, in order. -/
def reports (l : Lane) (n : Nat) : List Move → List Report
  | [] => []
  | m :: ms => (l.report? n m).toList ++ (l.step m).reports (l.recount n m) ms

variable {l : Lane} {n : Nat} {m : Move}

/-- The move is the receipt of the reply to a call on its way. -/
def Receives (l : Lane) (m : Move) : Prop := ∃ caller f reply, m = .reply caller reply ∧ l.flight? caller = some f

theorem flight?_of_not_receives {caller : Nat} {reply : Except CallError DanceResponse}
    (h : ¬ l.Receives (.reply caller reply)) : l.flight? caller = none := by
  cases hf : l.flight? caller with
  | none => rfl
  | some f => exact absurd ⟨caller, f, reply, rfl, hf⟩ h

theorem report?_of_not_receives (h : ¬ l.Receives m) : l.report? n m = none := by
  cases m with
  | reply caller reply =>
    cases reply with
    | error e => rfl
    | ok response => simp only [report?, swap?, rejection?, flight?_of_not_receives h]
  | _ => rfl

theorem rejection?_eq_some {r : Report} (h : l.rejection? n m = some r) :
    ∃ caller f response, r = .rejected caller f response ∧ m = .reply caller (.ok response) ∧
      l.flight? caller = some f := by
  unfold rejection? at h
  split at h
  · split at h
    · rename_i caller response _ f hf
      split at h <;> cases h
      exact ⟨caller, f, response, rfl, rfl, hf⟩
    · cases h
  · cases h

/-- A report is of the call that has its reply. -/
theorem flight_of_report? {caller : Nat} {reply : Except CallError DanceResponse} {f : Flight} {r : Report}
    (hf : l.flight? caller = some f) (hr : l.report? n (.reply caller reply) = some r) : r.flight = f := by
  unfold report? at hr
  split at hr
  · rename_i x hx
    obtain ⟨hm, hfx, -⟩ := swap?_eq_some hx
    cases hm
    cases hr
    exact Option.some.inj (hfx.symm.trans hf)
  · obtain ⟨caller', f', response, rfl, hm, hf'⟩ := rejection?_eq_some hr
    cases hm
    exact Option.some.inj (hf'.symm.trans hf)

theorem swaps_eq_filterMap (l : Lane) (n : Nat) (ms : List Move) :
    (l.reports n ms).filterMap Report.swap? = l.swaps ms := by
  induction ms generalizing l n with
  | nil => rfl
  | cons m ms ih =>
    rw [reports, swaps, List.filterMap_append, ih]
    congr 1
    unfold report?
    cases hswap : l.swap? m with
    | some x => rfl
    | none =>
      simp only
      cases hreject : l.rejection? n m with
      | none => rfl
      | some r =>
        obtain ⟨caller, f, response, rfl, -⟩ := rejection?_eq_some hreject
        rfl

/-- A report leads from the state before the move to the state after it. -/
theorem Guarded.chain_step (h : l.Guarded) (n : Nat) (m : Move) :
    Report.Chain l.client.space l.client.state (l.report? n m).toList (l.step m).client.state := by
  unfold report?
  rcases h.step_links m with ⟨hnone, hstate, -⟩ | ⟨x, hsome, hlinks, -⟩
  · rw [hnone, hstate]
    simp only
    cases hreject : l.rejection? n m with
    | none => rfl
    | some r =>
      obtain ⟨caller, f, response, rfl, -, hf⟩ := rejection?_eq_some hreject
      exact ⟨(h.made (mem_inside_of_flight? hf)).1, rfl⟩
  · have hstate : x.result.state = (l.step m).client.state := by
      obtain ⟨-, hsnapshot, -⟩ := reconcile_ok hlinks.reconciled
      exact Option.some.inj (hsnapshot.symm.trans hlinks.snapshot)
    rw [hsome, ← hstate]
    exact ⟨hstate ▸ hlinks, rfl⟩

/-- From one moment to another nothing is announced, and no call has set out. -/
structure Silent (l l' : Lane) : Prop where
  log : l'.client.session.log = l.client.session.log
  issued : l'.client.session.issued = l.client.session.issued ∨
    l'.client.session.issued = l.client.session.issued + 1
  flying : ∀ {caller f}, (caller, .flying f) ∈ l'.inside → (caller, .flying f) ∈ l.inside

/-- From one moment to another nothing but this happens: a call sets out, with the next number. -/
structure SetsOut (l l' : Lane) (caller : Nat) (f : Flight) : Prop where
  log : l'.client.session.log = l.client.session.log
  issued : l'.client.session.issued = l.client.session.issued + 1
  seq : f.seq = l.client.session.issued + 1
  inside : l'.inside = [(caller, .flying f)]

theorem Silent.refl (l : Lane) : l.Silent l := ⟨rfl, .inl rfl, id⟩

/-- **What a move does that is not the receipt of a reply**: it announces nothing, and takes a number at most if it is a
cancellation or if a call sets out with it. -/
theorem Guarded.silent_step (h : l.Guarded) (hsilent : ¬ l.Receives m) :
    l.Silent (l.step m) ∨ ∃ caller f, l.SetsOut (l.step m) caller f := by
  -- A call that leaves was alone inside.
  have hleft {caller : Nat} {p : Progress} (hlookup : l.inside.lookup caller = some p) {other : Nat} {f : Flight}
      (hin : (other, .flying f) ∈ l.others caller) : (other, .flying f) ∈ l.inside := by
    rw [h.others_eq_nil hlookup] at hin
    cases hin
  cases m with
  | reply caller reply =>
    simp only [Lane.step, flight?_of_not_receives hsilent]
    exact .inl (.refl l)
  | ask caller call => exact .inl ⟨rfl, .inl rfl, id⟩
  | enter caller =>
    simp only [Lane.step]
    split
    · refine .inl ⟨rfl, .inl rfl, fun hin => ?_⟩
      rcases List.mem_append.1 hin with hin | hin
      · exact hin
      · cases List.mem_singleton.1 hin
    · exact .inl (.refl l)
  | launch caller =>
    simp only [Lane.step]
    split
    · rename_i call hlookup
      rcases l.client.session.launch_cases call with ⟨e, -, hlaunch⟩ | ⟨request, -, hlaunch⟩
      · simp only [Client.launch, hlaunch]
        exact .inl ⟨rfl, .inl rfl, hleft hlookup⟩
      · have hclient : l.client.launch call =
            .ok (⟨call, l.client.session.issued + 1, l.client.session.state, request⟩,
              { l.client with session := { l.client.session with issued := l.client.session.issued + 1 } }) := by
          simp only [Client.launch, hlaunch]
        rw [hclient, h.others_eq_nil hlookup]
        exact .inr ⟨caller, _, rfl, rfl, rfl, rfl⟩
    · exact .inl (.refl l)
  | expire caller =>
    simp only [Lane.step]
    split
    · rename_i f hf
      exact .inl ⟨rfl, .inl rfl, hleft (lookup_of_flight? hf)⟩
    · exact .inl (.refl l)
  | drop caller =>
    simp only [Lane.step]
    split
    · rename_i p hlookup
      exact .inl ⟨rfl, .inl rfl, hleft hlookup⟩
    · exact .inl ⟨rfl, .inl rfl, id⟩
  | cancel =>
    exact .inl ⟨l.client.session.log_cancelInFlight, l.client.session.issued_cancelInFlight, id⟩

/-- **What the receipt of a reply announces** is its report. -/
theorem Counts.log_reply (hcounts : l.Counts n) {caller : Nat} {f : Flight}
    (hf : l.flight? caller = some f) (reply : Except CallError DanceResponse) :
    (l.step (.reply caller reply)).client.session.log =
        l.client.session.log ++ (l.report? n (.reply caller reply)).toList.map Report.event ∧
      ((l.report? n (.reply caller reply)).toList.map Report.outcome).Sublist
        [(caller, (l.client.land f reply).1)] := by
  have hclient : (l.step (.reply caller reply)).client = (l.client.land f reply).2 := by
    simp only [Lane.step, hf, conclude]
  have hcurrent : l.client.session.isCurrent f.seq = true ↔ n % UInt64.size = 0 := by
    rw [← seq_add_ofNat_eq_iff f.seq, ← hcounts caller f (mem_inside_of_flight? hf)]
    exact decide_eq_true_iff
  rw [hclient, Client.session_land, Client.outcome_land]
  rcases l.client.session.land_announces f reply with ⟨response, r, answer, rfl, hr, houtcome, hlog⟩ |
    ⟨response, rfl, hstatus, hlatest, houtcome, hlog⟩ | ⟨⟨e, houtcome⟩, hlog, hquiet⟩
  · have hswap : l.swap? (.reply caller (.ok response)) = some ⟨caller, f, response, r, answer⟩ := by
      simp only [swap?, hf, Client.outcome_land, houtcome]
    have hcommitted : r.findings.committed = response.body.committedViews := by
      rw [(reconcile_ok hr).2.2.2.2]
      exact Findings.committed_ofBody _ _
    simp only [report?, hswap, Option.toList_some, List.map_cons, List.map_nil, Report.event, Report.outcome,
      Swap.outcome, hlog, houtcome, hcommitted]
    exact ⟨trivial, .refl _⟩
  · have hswap : l.swap? (.reply caller (.ok response)) = none := by
      simp only [swap?, hf, Client.outcome_land, houtcome]
    have hreject : l.rejection? n (.reply caller (.ok response)) = some (.rejected caller f response) := by
      simp only [rejection?, hf, if_pos (show _ ∧ _ from ⟨hstatus, hcurrent.1 hlatest⟩)]
    simp only [report?, hswap, hreject, Option.toList_some, List.map_cons, List.map_nil, Report.event, Report.outcome,
      hlog, houtcome]
    exact ⟨trivial, .refl _⟩
  · have hreport : l.report? n (.reply caller reply) = none := by
      cases reply with
      | error e => rfl
      | ok response =>
        have hnot : ¬ (response.status.isSuccess = false ∧ n % UInt64.size = 0) := by
          rintro ⟨hstatus, hnone⟩
          rcases hquiet response rfl with hsuccess | hstale
          · rw [hstatus] at hsuccess
            cases hsuccess
          · rw [hcurrent.2 hnone] at hstale
            cases hstale
        simp only [report?, swap?, rejection?, hf, Client.outcome_land, houtcome, if_neg hnot]
    rw [hreport, hlog]
    exact ⟨(List.append_nil _).symm, List.nil_sublist _⟩

/-- What has been announced from one moment to another. -/
structure Tells (l : Lane) (rs : List Report) (l' : Lane) : Prop where
  log : l'.client.session.log = l.client.session.log ++ rs.map Report.event
  ended : ∃ ended, l'.ended = l.ended ++ ended ∧ (rs.map Report.outcome).Sublist ended
  chain : Report.Chain l.client.space l.client.state rs l'.client.state

theorem Tells.nil (l : Lane) : l.Tells [] l :=
  ⟨(List.append_nil _).symm, ⟨[], (List.append_nil _).symm, .slnil⟩, rfl⟩

theorem Tells.append {l' l'' : Lane} {rs rs' : List Report} (h : l.Tells rs l') (h' : l'.Tells rs' l'')
    (hspace : l'.client.space = l.client.space) : l.Tells (rs ++ rs') l'' where
  log := by rw [h'.log, h.log, List.map_append, List.append_assoc]
  ended := by
    obtain ⟨first, hfirst, hsub⟩ := h.ended
    obtain ⟨second, hsecond, hsub'⟩ := h'.ended
    refine ⟨first ++ second, by rw [hsecond, hfirst, List.append_assoc], ?_⟩
    rw [List.map_append]
    exact hsub.append hsub'
  chain := h.chain.append (hspace ▸ h'.chain)

/-- **A move tells its report.** -/
theorem Counts.step_tells (hcounts : l.Counts n) (hguarded : l.Guarded) (m : Move) :
    l.Tells (l.report? n m).toList (l.step m) := by
  by_cases hreceives : l.Receives m
  · obtain ⟨caller, f, reply, rfl, hf⟩ := hreceives
    obtain ⟨hlog, hsub⟩ := hcounts.log_reply hf reply
    exact ⟨hlog, ⟨_, ended_reply hf reply, hsub⟩, hguarded.chain_step n _⟩
  · have hchain := hguarded.chain_step n m
    rw [report?_of_not_receives hreceives] at hchain ⊢
    have hlog : (l.step m).client.session.log = l.client.session.log := by
      rcases hguarded.silent_step hreceives with h | ⟨caller, f, h⟩
      · exact h.log
      · exact h.log
    refine ⟨hlog.trans (List.append_nil _).symm, ?_, hchain⟩
    rcases l.step_cases m with ⟨-, ended, hended, -⟩ | ⟨caller, f, response, r, answer, hm, hf, -⟩
    · exact ⟨ended, hended, List.nil_sublist _⟩
    · exact absurd ⟨caller, f, _, hm, hf⟩ hreceives

/-- **A run tells its reports.** -/
theorem Counts.run_tells (hcounts : l.Counts n) (hguarded : l.Guarded) (ms : List Move) :
    l.Tells (l.reports n ms) (l.run ms) := by
  induction ms generalizing l n with
  | nil => exact .nil l
  | cons m ms ih =>
    exact (hcounts.step_tells hguarded m).append (ih (hcounts.step hguarded m) (hguarded.step m)) (l.step_space m)

/-- The number that a call was given last is `k`, as a number that does not come around, and a call on its way has one
after `last`. -/
structure Numbered (l : Lane) (last k : Nat) : Prop where
  issued : l.client.session.issued = .ofNat k
  last_le : last ≤ k
  flying : ∀ {caller f}, (caller, .flying f) ∈ l.inside → ∃ j, last < j ∧ j ≤ k ∧ f.seq = .ofNat j

variable {last k : Nat}

theorem Numbered.exists_issued (h : l.Numbered last k) {issued : UInt64}
    (hissued : issued = l.client.session.issued ∨ issued = l.client.session.issued + 1) :
    ∃ k', k ≤ k' ∧ k' ≤ k + 1 ∧ issued = .ofNat k' := by
  rcases hissued with hsame | hnext
  · exact ⟨k, Nat.le_refl k, Nat.le_succ k, hsame.trans h.issued⟩
  · exact ⟨k + 1, Nat.le_succ k, Nat.le_refl _, by rw [hnext, h.issued, UInt64.ofNat_add]; rfl⟩

/-- A move takes at most one number, and what it announces has the number of the call that was on its way. -/
theorem Numbered.step (h : l.Numbered last k) (hguarded : l.Guarded) (n : Nat) (m : Move) :
    ∃ last' k', (l.step m).Numbered last' k' ∧ k' ≤ k + 1 ∧
      match l.report? n m with
      | none => last' = last
      | some r => last < last' ∧ last' ≤ k ∧ r.event.seq = .ofNat last' := by
  by_cases hreceives : l.Receives m
  · obtain ⟨caller, f, reply, rfl, hf⟩ := hreceives
    obtain ⟨j, hlt, hle, hseq⟩ := h.flying (mem_inside_of_flight? hf)
    have hin : (l.step (.reply caller reply)).inside = [] := by
      simp only [Lane.step, hf, conclude]
      exact hguarded.others_eq_nil (lookup_of_flight? hf)
    have hissued : (l.step (.reply caller reply)).client.session.issued =
        (l.client.session.land f reply).2.issued := by
      simp only [Lane.step, hf, conclude, Client.session_land]
    obtain ⟨k', hge, hle', hk'⟩ := h.exists_issued (l.client.session.issued_land f reply)
    have hnumbered {last' : Nat} (hlast : last' ≤ k') : (l.step (.reply caller reply)).Numbered last' k' :=
      ⟨hissued.trans hk', hlast, fun hmem => by rw [hin] at hmem; cases hmem⟩
    cases hr : l.report? n (.reply caller reply) with
    | none => exact ⟨last, k', hnumbered (Nat.le_trans h.last_le hge), hle', rfl⟩
    | some r =>
      refine ⟨j, k', hnumbered (Nat.le_trans hle hge), hle', hlt, hle, ?_⟩
      rw [r.seq_event, flight_of_report? hf hr, hseq]
  · rw [report?_of_not_receives hreceives]
    rcases hguarded.silent_step hreceives with hquiet | ⟨caller, f, hout⟩
    · obtain ⟨k', hge, hle', hk'⟩ := h.exists_issued hquiet.issued
      refine ⟨last, k', ⟨hk', Nat.le_trans h.last_le hge, fun hmem => ?_⟩, hle', rfl⟩
      obtain ⟨j, hlt, hle, hj⟩ := h.flying (hquiet.flying hmem)
      exact ⟨j, hlt, Nat.le_trans hle hge, hj⟩
    · have hnext : l.client.session.issued + 1 = .ofNat (k + 1) := by rw [h.issued, UInt64.ofNat_add]; rfl
      refine ⟨last, k + 1, ⟨hout.issued.trans hnext, Nat.le_succ_of_le h.last_le, fun hmem => ?_⟩, Nat.le_refl _, rfl⟩
      rw [hout.inside, List.mem_singleton] at hmem
      cases hmem
      exact ⟨k + 1, Nat.lt_succ_of_le h.last_le, Nat.le_refl _, hout.seq.trans hnext⟩

/-- **The numbers of what is announced rise.** -/
theorem Numbered.run (h : l.Numbered last k) (hguarded : l.Guarded) (n : Nat) (ms : List Move) :
    ∃ js : List Nat, (l.reports n ms).map (fun r => r.event.seq) = js.map UInt64.ofNat ∧ js.Pairwise (· < ·) ∧
      ∀ j ∈ js, last < j ∧ j ≤ k + ms.length := by
  induction ms generalizing l last k n with
  | nil => exact ⟨[], rfl, .nil, fun j hj => by cases hj⟩
  | cons m ms ih =>
    obtain ⟨last', k', hnumbered, hk', hreport⟩ := h.step hguarded n m
    obtain ⟨js, hjs, hrises, hbound⟩ := ih hnumbered (hguarded.step m) (l.recount n m)
    have hle : ∀ j ∈ js, j ≤ k + (m :: ms).length := fun j hj => by
      have hj' := (hbound j hj).2
      rw [List.length_cons]
      omega
    rw [reports]
    cases hr : l.report? n m with
    | none =>
      rw [hr] at hreport
      subst hreport
      exact ⟨js, hjs, hrises, fun j hj => ⟨(hbound j hj).1, hle j hj⟩⟩
    | some r =>
      rw [hr] at hreport
      obtain ⟨hlt, hlast, hseq⟩ := hreport
      refine ⟨last' :: js, ?_, List.pairwise_cons.2 ⟨fun j hj => (hbound j hj).1, hrises⟩, fun j hj => ?_⟩
      · rw [List.map_append, hjs, Option.toList_some, List.map_singleton, hseq]
        rfl
      · rcases List.mem_cons.1 hj with rfl | hj
        · exact ⟨hlt, Nat.le_trans hlast (Nat.le_add_right _ _)⟩
        · exact ⟨Nat.lt_trans hlt (hbound j hj).1, hle j hj⟩

theorem Numbered.after (h : l.Numbered last k) (hguarded : l.Guarded) (ms : List Move) :
    ∃ last' k', (l.run ms).Numbered last' k' ∧ k' ≤ k + ms.length := by
  induction ms generalizing l last k with
  | nil => exact ⟨last, k, h, Nat.le_refl k⟩
  | cons m ms ih =>
    obtain ⟨last', k', hnumbered, hk', -⟩ := h.step hguarded 0 m
    obtain ⟨last'', k'', hrun, hk''⟩ := ih hnumbered (hguarded.step m)
    refine ⟨last'', k'', hrun, ?_⟩
    rw [List.length_cons]
    omega

theorem numbered_idle (c : Client) : (idle c).Numbered c.session.issued.toNat c.session.issued.toNat :=
  ⟨UInt64.ofNat_toNat.symm, Nat.le_refl _, fun hmem => by cases hmem⟩

/-- Numbers that rise and do not come around still rise in the counter. -/
theorem pairwise_ofNat {js : List Nat} (h : js.Pairwise (· < ·)) (hroom : ∀ j ∈ js, j < UInt64.size) :
    (js.map UInt64.ofNat).Pairwise (· < ·) := by
  refine List.pairwise_map.2 (h.imp_of_mem fun {a b} ha hb hlt => ?_)
  rw [UInt64.lt_iff_toNat_lt, UInt64.toNat_ofNat_of_lt' (hroom a ha), UInt64.toNat_ofNat_of_lt' (hroom b hb)]
  exact hlt

/-- **The log is exact.**  However calls overlap, and whatever comes of them, from any moment to any later one: the log
grows by what the reports between them announce, and by nothing else.  The swaps among the reports are those of the
calls that came to results, all of them and in that order; every report is of a call that ended as it says.  The state
goes from one report to the next without a change, each swap is from the state as it was to the one whose pools the
event counts, and a rejection changes nothing; so without an event there is no change.  The numbers of the events rise,
as long as the counter does not come around. -/
theorem events_are_an_exact_log (c : Client) (hfree : c.session.held = false) (earlier later : List Move) :
    let l := (idle c).run earlier
    let l' := l.run later
    let rs := l.reports ((idle c).cancellations 0 earlier) later
    l'.client.session.log = l.client.session.log ++ rs.map Report.event ∧
      (rs.filterMap Report.swap? = l.swaps later ∧ l'.results = l.results ++ (l.swaps later).map Swap.outcome) ∧
      (∃ ended, l'.ended = l.ended ++ ended ∧ (rs.map Report.outcome).Sublist ended) ∧
      Report.Chain l.client.space l.client.state rs l'.client.state ∧
      (l'.client.session.log = l.client.session.log → l'.client.state = l.client.state) ∧
      (∃ js : List Nat, rs.map (fun r => r.event.seq) = js.map UInt64.ofNat ∧ js.Pairwise (· < ·)) ∧
      (c.session.issued.toNat + earlier.length + later.length < UInt64.size →
        (rs.map fun r => r.event.seq).Pairwise (· < ·)) := by
  intro l l' rs
  have hguarded : l.Guarded := (guarded_idle hfree).run earlier
  have hcounts : l.Counts ((idle c).cancellations 0 earlier) :=
    (counts_of_empty rfl 0).run (guarded_idle hfree) earlier
  have htells : l.Tells rs l' := hcounts.run_tells hguarded later
  obtain ⟨last, k, hnumbered, hk⟩ := (numbered_idle c).after (guarded_idle hfree) earlier
  obtain ⟨js, hjs, hrises, hbound⟩ := hnumbered.run hguarded ((idle c).cancellations 0 earlier) later
  refine ⟨htells.log, ⟨l.swaps_eq_filterMap _ later, (hguarded.run_chain later).2⟩, htells.ended, htells.chain,
    fun hsame => ?_, ⟨js, hjs, hrises⟩, fun hroom => ?_⟩
  · have hnone : rs = [] := List.map_eq_nil_iff.1 (List.append_right_eq_self.1 (htells.log.symm.trans hsame))
    have hchain := htells.chain
    rw [hnone] at hchain
    exact hchain.symm
  · rw [hjs]
    refine pairwise_ofNat hrises fun j hj => ?_
    have hj' := (hbound j hj).2
    omega

/-- The answer to a commit that the server refuses. -/
def refusedCommit : Except CallError DanceResponse := .ok (.ofRefusal ⟨"local"⟩ (.notImplemented "commit"))

/-- A commit that succeeds, one that is refused, one that is cancelled before it is refused, and one more. -/
def commits : List Move :=
  committing ++ .reply 0 emptyCommit :: committing ++ .reply 0 refusedCommit :: committing ++
    .cancel :: .reply 0 refusedCommit :: committing ++ [.reply 0 emptyCommit]

/-- The first, the second and the last of these are announced, and the cancellation has used a number up. -/
theorem events_are_an_exact_log_of_commits :
    ((idle .fresh).run commits).client.session.log =
        [.reconciled ⟨1⟩ 1 "commit" 0 0 0, .rejected ⟨1⟩ 2 "commit" .notImplemented,
          .reconciled ⟨1⟩ 5 "commit" 0 0 0] ∧
      (((idle .fresh).reports 0 commits).map fun r => r.event.seq).Pairwise (· < ·) := by
  obtain ⟨hlog, -, -, -, -, -, hrises⟩ := events_are_an_exact_log .fresh rfl [] commits
  refine ⟨hlog.trans ?_, hrises (by decide)⟩
  decide +kernel

end Lane

end Holarchy
