import Holarchy.Proofs.Client.Step
import Holarchy.Proofs.Dance
/-!
# The states of a session are a chain of swaps

`Guarded` is the invariant that the guard keeps: at most one call is past it, and what a flight was made from is what the
session still is.  So each response that is taken over replaces the very state that its request was made from.
-/
namespace Holarchy

structure Swap where
  caller : Nat
  flight : Flight
  response : DanceResponse
  result : Reconciliation
  answer : Answer

namespace Swap

def outcome (x : Swap) : Nat × Outcome := (x.caller, .ok (x.result, x.answer))

/-- Leads from one state to the next: the request was made from the first and the response carries the second. -/
structure Links (space : SpaceId) (s : SessionState) (x : Swap) (s' : SessionState) : Prop where
  before : x.flight.before = s
  request : x.flight.call.build space s = .ok x.flight.request
  carried : ∀ d : Dance, x.flight.call.build = d.request → x.flight.request.context.state = s
  success : x.response.status.isSuccess = true
  snapshot : x.response.snapshot = some s'
  reconciled : reconcile x.flight.name x.flight.seq s x.response = .ok x.result
  extracted : x.flight.call.extract x.result = some x.answer

/-- Lead from one state to another, each from where the one before it has led. -/
def Chain (space : SpaceId) : SessionState → List Swap → SessionState → Prop
  | s, [], s' => s = s'
  | s, x :: xs, s' => ∃ next, x.Links space s next ∧ Chain space next xs s'

end Swap

namespace Lane

/-- The response that a move takes over. -/
def swap? (l : Lane) : Move → Option Swap
  | .reply caller (.ok response) =>
    match l.flight? caller with
    | none => none
    | some f =>
      match (l.client.land f (.ok response)).1 with
      | .error _ => none
      | .ok (r, answer) => some ⟨caller, f, response, r, answer⟩
  | _ => none

def swaps (l : Lane) : List Move → List Swap
  | [] => []
  | m :: ms => (l.swap? m).toList ++ (l.step m).swaps ms

/-- What the guard ensures. -/
structure Guarded (l : Lane) : Prop where
  held : l.client.session.held = !l.inside.isEmpty
  alone : l.inside.length ≤ 1
  made : ∀ {caller : Nat} {f : Flight}, (caller, .flying f) ∈ l.inside →
    f.before = l.client.state ∧ f.call.build l.client.space l.client.state = .ok f.request

theorem guarded_idle {c : Client} (h : c.session.held = false) : (idle c).Guarded :=
  ⟨h, Nat.zero_le _, fun hmem => by cases hmem⟩

theorem Guarded.eq_singleton {l : Lane} (h : l.Guarded) {caller : Nat} {p : Progress}
    (hlookup : l.inside.lookup caller = some p) : l.inside = [(caller, p)] := by
  have hmem := mem_of_lookup hlookup
  have halone := h.alone
  cases hin : l.inside with
  | nil => rw [hin] at hmem; cases hmem
  | cons e es =>
    rw [hin] at hmem halone
    obtain rfl : es = [] := List.eq_nil_of_length_eq_zero (Nat.le_zero.1 (Nat.le_of_succ_le_succ halone))
    rw [List.mem_singleton] at hmem
    rw [hmem]

theorem Guarded.others_eq_nil {l : Lane} (h : l.Guarded) {caller : Nat} {p : Progress}
    (hlookup : l.inside.lookup caller = some p) : l.others caller = [] := by
  simp [others, h.eq_singleton hlookup]

theorem guarded_of_empty {l : Lane} (hin : l.inside = []) (hheld : l.client.session.held = false) : l.Guarded :=
  ⟨by rw [hheld, hin]; rfl, by rw [hin]; exact Nat.zero_le _, fun hmem => by rw [hin] at hmem; cases hmem⟩

/-- What does not touch those inside, nor the state, leaves the guard as it is. -/
theorem Guarded.of_same {l l' : Lane} (h : l.Guarded) (hin : l'.inside = l.inside)
    (hheld : l'.client.session.held = l.client.session.held) (hstate : l'.client.state = l.client.state)
    (hspace : l'.client.space = l.client.space) : l'.Guarded :=
  ⟨by rw [hheld, hin, h.held], by rw [hin]; exact h.alone, fun hmem => by
    rw [hin] at hmem; rw [hstate, hspace]; exact h.made hmem⟩

/-- **A move leaves at most one call past the guard**, and no flight that was made from another state. -/
theorem Guarded.step {l : Lane} (h : l.Guarded) (m : Move) : (l.step m).Guarded := by
  have hstep := l.happens_step m
  generalize l.step m = l' at hstep ⊢
  cases hstep with
  | nothing | asked | withdrawn => exact h.of_same rfl rfl rfl rfl
  | entered hfree =>
    have hin : l.inside = [] := by
      have := h.held
      rw [hfree] at this
      simpa using this
    refine ⟨by rw [hin]; rfl, by simp [hin], fun hmem => ?_⟩
    simp [hin] at hmem
  | refused hlookup => exact guarded_of_empty (h.others_eq_nil hlookup) rfl
  | @launched caller call f c hlookup hcall hbefore hbuild hkeeps hspace hheld =>
    have hothers := h.others_eq_nil hlookup
    have hmade : l.client.session.held = true := by rw [h.held, h.eq_singleton hlookup]; rfl
    refine ⟨?_, ?_, fun hmem => ?_⟩
    · simp [hothers, hheld, hmade]
    · simp [hothers]
    · simp only [hothers, List.mem_singleton] at hmem
      cases hmem
      rw [hkeeps.state, hspace, hcall]
      exact ⟨hbefore, hbuild⟩
  | failed hf _ _ _ hheld => exact guarded_of_empty (h.others_eq_nil (lookup_of_flight? hf)) hheld
  | landed hf _ _ _ _ hheld => exact guarded_of_empty (h.others_eq_nil (lookup_of_flight? hf)) hheld
  | left hlookup => exact guarded_of_empty (h.others_eq_nil hlookup) rfl
  | cancelled =>
    exact h.of_same rfl l.client.held_cancelInFlight l.client.keeps_cancelInFlight.state l.client.space_cancelInFlight

theorem Guarded.run {l : Lane} (h : l.Guarded) : ∀ ms : List Move, (l.run ms).Guarded := by
  intro ms
  induction ms generalizing l with
  | nil => exact h
  | cons m ms ih => exact ih (h.step m)

theorem swap?_eq_some {l : Lane} {m : Move} {x : Swap} (h : l.swap? m = some x) :
    m = .reply x.caller (.ok x.response) ∧ l.flight? x.caller = some x.flight ∧
      (l.client.land x.flight (.ok x.response)).1 = .ok (x.result, x.answer) := by
  unfold swap? at h
  split at h
  · split at h
    · cases h
    · rename_i f hf
      split at h
      · cases h
      · rename_i r answer hland
        cases h
        exact ⟨rfl, hf, hland⟩
  · cases h

theorem step_space (l : Lane) (m : Move) : (l.step m).client.space = l.client.space := by
  have hstep := l.happens_step m
  generalize l.step m = l' at hstep ⊢
  cases hstep with
  | nothing | asked | withdrawn | entered | refused | left => rfl
  | launched _ _ _ _ _ hspace => exact hspace
  | failed _ _ _ hspace => exact hspace
  | landed _ _ _ _ hspace => exact hspace
  | cancelled => exact l.client.space_cancelInFlight

def results (l : Lane) : List (Nat × Outcome) := l.ended.filter fun o => o.2.toOption.isSome

/-- **A move that takes nothing over leaves the state and the results alone; any other makes a link.** -/
theorem Guarded.step_links {l : Lane} (h : l.Guarded) (m : Move) :
    (l.swap? m = none ∧ (l.step m).client.state = l.client.state ∧ (l.step m).results = l.results) ∨
      ∃ x, l.swap? m = some x ∧ x.Links l.client.space l.client.state (l.step m).client.state ∧
        (l.step m).results = l.results ++ [x.outcome] := by
  rcases l.step_cases m with ⟨hkeeps, ended, hended, herror⟩ |
    ⟨caller, f, response, r, answer, rfl, hf, hr, hx, hended, htakes⟩
  · refine .inl ⟨?_, hkeeps.state, ?_⟩
    · cases hs : l.swap? m with
      | none => rfl
      | some x =>
        obtain ⟨rfl, hf, hland⟩ := swap?_eq_some hs
        rw [ended_reply hf, List.append_cancel_left_eq] at hended
        obtain ⟨e, he⟩ := herror (x.caller, _) (hended ▸ List.mem_singleton_self _)
        simp only [hland] at he
        cases he
    · have hnone : ended.filter (fun o => o.2.toOption.isSome) = [] := by
        refine List.filter_eq_nil_iff.2 fun o ho => ?_
        obtain ⟨e, he⟩ := herror o ho
        simp [he, Except.toOption]
      rw [results, hended, List.filter_append, hnone, List.append_nil, results]
  · obtain ⟨hbefore, hbuild⟩ := h.made (mem_inside_of_flight? hf)
    obtain ⟨hsuccess, -⟩ := reconcile_ok hr
    have hland : (l.client.land f (.ok response)).1 = .ok (r, answer) := by
      rw [ended_reply hf, List.append_cancel_left_eq] at hended
      simpa using hended
    refine .inr ⟨⟨caller, f, response, r, answer⟩, by simp [swap?, hf, hland], ⟨hbefore, hbuild, ?_, hsuccess,
      htakes.snapshot, hbefore ▸ hr, hx⟩, ?_⟩
    · intro d hd
      rw [hd] at hbuild
      exact Dance.state_of_request hbuild
    · rw [results, hended, List.filter_append, results]
      rfl

theorem Guarded.links_of_swap? {l : Lane} (h : l.Guarded) {m : Move} {x : Swap} (hx : l.swap? m = some x) :
    x.Links l.client.space l.client.state (l.step m).client.state ∧ (l.step m).results = l.results ++ [x.outcome] := by
  rcases h.step_links m with ⟨hnone, -⟩ | ⟨x', hx', hlinks⟩
  · rw [hx] at hnone
    cases hnone
  · rw [hx] at hx'
    cases hx'
    exact hlinks

theorem Guarded.state_of_swap?_eq_none {l : Lane} (h : l.Guarded) {m : Move} (hm : l.swap? m = none) :
    (l.step m).client.state = l.client.state := by
  rcases h.step_links m with ⟨-, hstate, -⟩ | ⟨x, hx, -⟩
  · exact hstate
  · rw [hm] at hx
    cases hx

/-- **A whole run is a chain of swaps**, one for each result and no other. -/
theorem Guarded.run_chain {l : Lane} (h : l.Guarded) : ∀ ms : List Move,
    Swap.Chain l.client.space l.client.state (l.swaps ms) (l.run ms).client.state ∧
      (l.run ms).results = l.results ++ (l.swaps ms).map Swap.outcome := by
  intro ms
  induction ms generalizing l with
  | nil => exact ⟨rfl, (List.append_nil _).symm⟩
  | cons m ms ih =>
    obtain ⟨hchain, hresults⟩ := ih (h.step m)
    rw [l.step_space m] at hchain
    rw [run_cons, swaps]
    rcases h.step_links m with ⟨hnone, hstate, hsame⟩ | ⟨x, hsome, hlinks, hmore⟩
    · rw [hnone, ← hstate, hresults, hsame]
      exact ⟨hchain, rfl⟩
    · rw [hsome, hresults, hmore, List.append_assoc]
      exact ⟨⟨_, hlinks, hchain⟩, rfl⟩

end Lane

end Holarchy
