import Holarchy.Client
/-!
# What a reply does to a session

A reply is taken over or it is not.  If it is, the session has the state that came with it and the findings are those of
its body; if it is not, the session has the state it had.  In both cases the guard is free afterwards.
-/
namespace Holarchy

namespace ResponseBody

def listed : ResponseBody → List Holon
  | .holon h => [h]
  | .holons hs => hs
  | .none | .collection _ | .reference _ | .nodes _ => []

/-- The holons that a body lists as committed, as their store has them. -/
def committedViews (b : ResponseBody) : List SavedHolon :=
  b.listed.filterMap fun h => h.asStaged?.bind StagedHolon.toSaved?

end ResponseBody

namespace Findings

theorem committed_concat : ∀ parts : List Findings, (concat parts).committed = parts.flatMap committed
  | [] => rfl
  | part :: parts => by
    rw [List.flatMap_cons, ← committed_concat parts]; rfl

theorem committed_ofHolon (h : Holon) : (ofHolon h).committed = (h.asStaged?.bind StagedHolon.toSaved?).toList := by
  cases h <;> rfl

theorem committed_ofMember (pool : Pool) (r : Reference) : (ofMember pool r).committed = [] := by
  cases r with
  | staged r => rfl
  | transient r => simp only [ofMember]; split <;> rfl
  | smart r => simp only [ofMember]; split <;> rfl

/-- **What was committed is told by the body alone**, in its order. -/
theorem committed_ofBody (session : SessionState) (b : ResponseBody) :
    (ofBody session b).committed = b.committedViews := by
  cases b with
  | holon h =>
    rw [ofBody, committed_ofHolon]
    cases hv : h.asStaged?.bind StagedHolon.toSaved? <;> simp [ResponseBody.committedViews, ResponseBody.listed, hv]
  | holons hs =>
    rw [ofBody, committed_concat, List.flatMap_map]
    simp only [committed_ofHolon, ResponseBody.committedViews, ResponseBody.listed]
    induction hs with
    | nil => rfl
    | cons h hs ih =>
      rw [List.flatMap_cons, List.filterMap_cons, ih]
      cases h.asStaged?.bind StagedHolon.toSaved? <;> rfl
  | collection c =>
    rw [ofBody, committed_concat, List.flatMap_map]
    simp [committed_ofMember, ResponseBody.committedViews, ResponseBody.listed]
  | none => rfl
  | reference r => rfl
  | nodes n => rfl

end Findings

/-- **What a response that is taken over has passed**, and what is taken from it. -/
theorem reconcile_ok {dance : String} {seq : UInt64} {current : SessionState} {response : DanceResponse}
    {r : Reconciliation} (h : reconcile dance seq current response = .ok r) :
    response.status.isSuccess = true ∧ response.snapshot = some r.state ∧ r.state.txId = current.txId ∧
      r.state.checkInvariants = .ok () ∧
      r = ⟨seq, response.status, r.state, .ofBody r.state response.body, response.body⟩ := by
  unfold reconcile at h
  split at h
  · rename_i hstatus
    split at h
    · cases h
    · rename_i snapshot hsnapshot
      split at h
      · rename_i htx
        split at h
        · cases h
        · rename_i hsound
          cases h
          exact ⟨hstatus, hsnapshot, htx, hsound, rfl⟩
      · cases h
  · cases h

/-- A success with a sound session of the same transaction is not refused. -/
theorem reconcile_of_sound (dance : String) (seq : UInt64) {current s' : SessionState} {response : DanceResponse}
    (hstatus : response.status.isSuccess = true) (hsnapshot : response.snapshot = some s')
    (htx : s'.txId = current.txId) (hsound : s'.checkInvariants = .ok ()) :
    ∃ r, reconcile dance seq current response = .ok r ∧ r.findings.committed = response.body.committedViews := by
  simp only [reconcile, hstatus, if_true, hsnapshot, htx, hsound]
  exact ⟨_, rfl, Findings.committed_ofBody _ _⟩

theorem reconcile_of_failure (dance : String) (seq : UInt64) (current : SessionState) {response : DanceResponse}
    (hstatus : response.status.isSuccess = false) :
    reconcile dance seq current response = .error (.rejected dance response.status response.description) := by
  unfold reconcile
  rw [hstatus]
  rfl

namespace Session

@[simp] theorem state_cancelInFlight (s : Session) : s.cancelInFlight.2.state = s.state := by
  unfold cancelInFlight; split <;> rfl

@[simp] theorem space_cancelInFlight (s : Session) : s.cancelInFlight.2.space = s.space := by
  unfold cancelInFlight; split <;> rfl

@[simp] theorem held_cancelInFlight (s : Session) : s.cancelInFlight.2.held = s.held := by
  unfold cancelInFlight; split <;> rfl

/-- What a launch is: the request that the call makes, under the next number, and nothing else. -/
theorem launch_cases (s : Session) (call : Call) :
    (∃ e, call.build s.space s.state = .error e ∧ s.launch call = .error (.refused e)) ∨
      (∃ request, call.build s.space s.state = .ok request ∧
        s.launch call = .ok (⟨call, s.issued + 1, s.state, request⟩, { s with issued := s.issued + 1 })) := by
  unfold launch
  cases h : call.build s.space s.state with
  | error e => exact .inl ⟨e, rfl, rfl⟩
  | ok request => exact .inr ⟨request, rfl, rfl⟩

theorem examine_cases (s : Session) (f : Flight) (reply : Except CallError DanceResponse) :
    (∃ e s', s.examine f reply = (.error e, s') ∧ s'.state = s.state ∧ s'.space = s.space) ∨
      (∃ response r, reply = .ok response ∧ reconcile f.name f.seq f.before response = .ok r ∧
        s.examine f reply = (.ok r, s)) := by
  unfold examine
  cases reply with
  | error e => exact .inl ⟨e, s, rfl, rfl, rfl⟩
  | ok response =>
    simp only
    split
    · cases hr : reconcile f.name f.seq f.before response with
      | ok r => exact .inr ⟨response, r, rfl, hr, rfl⟩
      | error e =>
        cases e with
        | rejected dance status description => exact .inl ⟨_, _, rfl, rfl, rfl⟩
        | _ => exact .inl ⟨_, s, rfl, rfl, rfl⟩
    · exact .inl ⟨_, s, rfl, rfl, rfl⟩

/-- **What a settlement is** if the caller has its answer.  The caller may have cancelled the call by then. -/
theorem settle_of_extract (s : Session) {f : Flight} {r : Reconciliation} {answer : Answer}
    (hx : f.call.extract r = some answer) :
    ∃ s1, (s1 = s ∨ s1 = s.cancelInFlight.2) ∧
      (s.settle f r = (.error (.cancelled f.seq), s1) ∨
        s.settle f r = (.ok (r, answer), { s1 with state := r.state }.emit
          (.reconciled r.state.txId f.seq f.name r.state.transientHolons.size r.state.stagedHolons.size
            r.findings.committed.length))) := by
  refine ⟨if f.call.cancels then s.cancelInFlight.2 else s, ?_, ?_⟩
  · split
    · exact .inr rfl
    · exact .inl rfl
  · simp only [settle, hx, install]
    cases (if f.call.cancels then s.cancelInFlight.2 else s).isCurrent f.seq with
    | false => exact .inl rfl
    | true => exact .inr rfl

/-- A settlement puts the reconciled state in place if the caller has its answer, and otherwise leaves the state alone. -/
theorem settle_cases (s : Session) (f : Flight) (r : Reconciliation) :
    (∃ e s', s.settle f r = (.error e, s') ∧ s'.state = s.state ∧ s'.space = s.space) ∨
      (∃ answer s', f.call.extract r = some answer ∧ s.settle f r = (.ok (r, answer), s') ∧ s'.state = r.state ∧
        s'.space = s.space) := by
  cases hx : f.call.extract r with
  | none => exact .inl ⟨_, s, by rw [settle, hx], rfl, rfl⟩
  | some answer =>
    obtain ⟨s1, hs1, h | h⟩ := s.settle_of_extract hx
    · exact .inl ⟨_, s1, h, by rcases hs1 with rfl | rfl <;> simp, by rcases hs1 with rfl | rfl <;> simp⟩
    · exact .inr ⟨answer, _, rfl, h, rfl, by rcases hs1 with rfl | rfl <;> simp [emit]⟩

/-- **What the landing of a reply is**: an error that leaves the state alone, or the reconciled state in its place. -/
theorem land_cases (s : Session) (f : Flight) (reply : Except CallError DanceResponse) :
    (∃ e s', s.land f reply = (.error e, s') ∧ s'.state = s.state ∧ s'.space = s.space ∧ s'.held = false) ∨
      (∃ response r answer s', reply = .ok response ∧ reconcile f.name f.seq f.before response = .ok r ∧
        f.call.extract r = some answer ∧ s.land f reply = (.ok (r, answer), s') ∧ s'.state = r.state ∧
        s'.space = s.space ∧ s'.held = false) := by
  unfold land
  rcases s.examine_cases f reply with ⟨e, s1, h, hstate, hspace⟩ | ⟨response, r, rfl, hr, h⟩
  · rw [h]
    exact .inl ⟨e, s1.finish, rfl, hstate, hspace, rfl⟩
  · rw [h]
    rcases s.settle_cases f r with ⟨e, s1, h, hstate, hspace⟩ | ⟨answer, s1, hx, h, hstate, hspace⟩
    · simp only [h]
      exact .inl ⟨e, s1.finish, rfl, hstate, hspace, rfl⟩
    · simp only [h]
      exact .inr ⟨response, r, answer, s1.finish, rfl, hr, hx, rfl, hstate, hspace, rfl⟩

/-- **A response in which nothing is wrong lands**, unless the call was cancelled. -/
theorem land_of_reconcile (s : Session) {f : Flight} {response : DanceResponse} {r : Reconciliation} {answer : Answer}
    (hr : reconcile f.name f.seq f.before response = .ok r) (hx : f.call.extract r = some answer) :
    (s.land f (.ok response)).1 = .error (.cancelled f.seq) ∨ (s.land f (.ok response)).1 = .ok (r, answer) := by
  simp only [land, examine]
  cases s.isCurrent f.seq with
  | false => exact .inl rfl
  | true =>
    simp only [if_true, hr, settle, hx, install]
    generalize (if f.call.cancels then s.cancelInFlight.2 else s) = s'
    cases s'.isCurrent f.seq with
    | false => exact .inl rfl
    | true => exact .inr rfl

end Session

namespace Client

/-- A client is as it was, as far as its state and its persisted holons go. -/
structure Keeps (c c' : Client) : Prop where
  state : c'.state = c.state
  committed : c'.committed = c.committed

/-- A client has taken over the response to a call: the state that came with it, and the holons that it lists as
committed. -/
structure TakesOver (c : Client) (call : Call) (response : DanceResponse) (c' : Client) : Prop where
  snapshot : response.snapshot = some c'.state
  committed : c'.committed = c.committed ++ if call.accumulates then response.body.committedViews else []

theorem Keeps.refl (c : Client) : c.Keeps c := ⟨rfl, rfl⟩

theorem Keeps.trans {c c' c'' : Client} (h : c.Keeps c') (h' : c'.Keeps c'') : c.Keeps c'' :=
  ⟨h'.state.trans h.state, h'.committed.trans h.committed⟩

theorem TakesOver.keeps {c c' c'' : Client} {call : Call} {response : DanceResponse}
    (h : c.TakesOver call response c') (h' : c'.Keeps c'') : c.TakesOver call response c'' :=
  ⟨by rw [h'.state, h.snapshot], by rw [h'.committed, h.committed]⟩

theorem Keeps.takesOver {c c' c'' : Client} {call : Call} {response : DanceResponse} (h : c.Keeps c')
    (h' : c'.TakesOver call response c'') : c.TakesOver call response c'' :=
  ⟨h'.snapshot, by rw [h'.committed, h.committed]⟩

def fresh : Client := ⟨.default, .start (.new ⟨1⟩) ⟨"local"⟩ 64, []⟩

@[simp] theorem held_cancelInFlight (c : Client) : c.cancelInFlight.2.session.held = c.session.held :=
  Session.held_cancelInFlight c.session

@[simp] theorem space_cancelInFlight (c : Client) : c.cancelInFlight.2.space = c.space :=
  Session.space_cancelInFlight c.session

theorem keeps_begin (c : Client) : c.Keeps c.begin := ⟨rfl, rfl⟩

theorem keeps_forget (c : Client) : c.Keeps c.forget := ⟨rfl, rfl⟩

theorem keeps_cancelInFlight (c : Client) : c.Keeps c.cancelInFlight.2 := ⟨Session.state_cancelInFlight c.session, rfl⟩

/-- **What the launch of a call is**: a refusal that comes to nothing, or a request made from the state as it is. -/
theorem launch_cases (c : Client) (call : Call) :
    (∃ e, call.build c.space c.state = .error e ∧ c.launch call = .error (.refused e)) ∨
      (∃ f c', c.launch call = .ok (f, c') ∧ f.call = call ∧ f.before = c.state ∧
        call.build c.space c.state = .ok f.request ∧ c.Keeps c' ∧ c'.space = c.space ∧
        c'.session.held = c.session.held) := by
  unfold launch
  rcases c.session.launch_cases call with ⟨e, hb, h⟩ | ⟨request, hb, h⟩
  · rw [h]
    exact .inl ⟨e, hb, rfl⟩
  · rw [h]
    exact .inr ⟨_, _, rfl, rfl, rfl, hb, ⟨rfl, rfl⟩, rfl, rfl⟩

theorem outcome_land (c : Client) (f : Flight) (reply : Except CallError DanceResponse) :
    (c.land f reply).1 = (c.session.land f reply).1 := by
  unfold land
  rcases c.session.land f reply with ⟨e | r, session⟩ <;> rfl

theorem session_land (c : Client) (f : Flight) (reply : Except CallError DanceResponse) :
    (c.land f reply).2.session = (c.session.land f reply).2 := by
  unfold land
  rcases c.session.land f reply with ⟨e | r, session⟩ <;> rfl

/-- **What the landing of a reply is**: an error that leaves no trace, or the response taken over. -/
theorem land_cases (c : Client) (f : Flight) (reply : Except CallError DanceResponse) :
    (∃ e c', c.land f reply = (.error e, c') ∧ c.Keeps c' ∧ c'.space = c.space ∧ c'.session.held = false) ∨
      (∃ response r answer c', reply = .ok response ∧ reconcile f.name f.seq f.before response = .ok r ∧
        f.call.extract r = some answer ∧ c.land f reply = (.ok (r, answer), c') ∧ c.TakesOver f.call response c' ∧
        c'.state = r.state ∧ c'.space = c.space ∧ c'.session.held = false) := by
  unfold land
  rcases c.session.land_cases f reply with ⟨e, s, h, hstate, hspace, hheld⟩ |
    ⟨response, r, answer, s, rfl, hr, hx, h, hstate, hspace, hheld⟩
  · rw [h]
    exact .inl ⟨e, _, rfl, ⟨hstate, rfl⟩, hspace, hheld⟩
  · obtain ⟨-, hsnapshot, -, -, hr'⟩ := reconcile_ok hr
    have hcommitted : r.findings.committed = response.body.committedViews := by
      rw [hr']; exact Findings.committed_ofBody _ _
    rw [h]
    refine .inr ⟨response, r, answer, _, rfl, hr, hx, rfl, ⟨?_, ?_⟩, hstate, hspace, hheld⟩
    · rw [hsnapshot, ← hstate]; rfl
    · simp only [hcommitted]
      split <;> simp

theorem space_land (c : Client) (f : Flight) (reply : Except CallError DanceResponse) :
    (c.land f reply).2.space = c.space := by
  rcases c.land_cases f reply with ⟨e, c', h, -, hspace, -⟩ | ⟨response, r, answer, c', -, -, -, h, -, -, hspace, -⟩
  · rw [h]
    exact hspace
  · rw [h]
    exact hspace

theorem held_land (c : Client) (f : Flight) (reply : Except CallError DanceResponse) :
    (c.land f reply).2.session.held = false := by
  rcases c.land_cases f reply with ⟨e, c', h, -, -, hheld⟩ | ⟨response, r, answer, c', -, -, -, h, -, -, -, hheld⟩
  · rw [h]
    exact hheld
  · rw [h]
    exact hheld

theorem land_of_reconcile (c : Client) {f : Flight} {response : DanceResponse} {r : Reconciliation} {answer : Answer}
    (hr : reconcile f.name f.seq f.before response = .ok r) (hx : f.call.extract r = some answer) :
    (c.land f (.ok response)).1 = .error (.cancelled f.seq) ∨ (c.land f (.ok response)).1 = .ok (r, answer) := by
  rw [outcome_land]
  exact c.session.land_of_reconcile hr hx

end Client

end Holarchy
