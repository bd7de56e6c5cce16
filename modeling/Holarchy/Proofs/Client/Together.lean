import Holarchy.Proofs.Client.Exchange
import Holarchy.Proofs.SessionState
/-!
# Holons that are staged together

Calls of one client that stage new holons, in any number and overlapping in any way.  Each result stays in the staged
pool from the swap that brought it on, because the next request carries that pool and the server puts its own holon
beside what is there.
-/
namespace Holarchy

def Outcome.reference? : Outcome → Option StagedReference
  | .ok (_, .staged ref) => some ref
  | _ => none

namespace Exchange

/-- Calls that stage new holons and nothing else: what holds of a session that `start` was the beginning of. -/
structure Gathers (start : SessionState) (source : IdSource) (asked : Nat → TransientHolon → Prop) (x : Exchange) :
    Prop where
  guarded : x.lane.Guarded
  calls : ∀ q ∈ x.lane.calls, ∃ h, q.2 = .typed (.stageNewHolon h) ∧ asked q.1 h
  ids : source.Reaches x.ids
  txId : x.state.txId = start.txId
  /-- What is in the pool was there from the start or was drawn since. -/
  pool : ∀ id, x.state.stagedHolons.contains id = true →
    start.stagedHolons.contains id = true ∨ ∃ n, source.drawn ≤ n ∧ n < x.ids.drawn ∧ source.stream n = id
  results : ∀ o ∈ x.lane.results, ∃ h staged id r, asked o.1 h ∧ h.stage = .ok staged ∧
    o.2 = .ok (r, .staged ⟨start.txId, id⟩) ∧ x.state.stagedHolons.get? id = some (.staged staged)
  distinct : (x.lane.results.filterMap fun o => o.2.reference?).Nodup

variable {start : SessionState} {source : IdSource} {asked : Nat → TransientHolon → Prop} {x y : Exchange}

theorem Gathers.of_same (h : x.Gathers start source asked) (hguarded : y.lane.Guarded)
    (hcalls : ∀ q ∈ y.lane.calls, ∃ h, q.2 = .typed (.stageNewHolon h) ∧ asked q.1 h) (hids : x.ids.Reaches y.ids)
    (hstate : y.state = x.state) (hresults : y.lane.results = x.lane.results) : y.Gathers start source asked where
  guarded := hguarded
  calls := hcalls
  ids := h.ids.trans hids
  txId := by rw [hstate, h.txId]
  pool id hid := by
    rw [hstate] at hid
    refine (h.pool id hid).imp_right fun ⟨n, hle, hlt, hn⟩ => ⟨n, hle, Nat.lt_of_lt_of_le hlt hids.drawn, hn⟩
  results := by rw [hstate, hresults]; exact h.results
  distinct := by rw [hresults]; exact h.distinct

theorem Gathers.move (h : x.Gathers start source asked) {m : Move} (hnone : x.lane.swap? m = none)
    (hm : ∀ caller call, m = .ask caller call → ∃ h, call = .typed (.stageNewHolon h) ∧ asked caller h)
    {server : Server} {ids : IdSource} (hids : x.ids.Reaches ids) :
    Gathers start source asked ⟨x.lane.step m, server, ids⟩ := by
  rcases h.guarded.step_links m with ⟨-, hstate, hresults⟩ | ⟨swap, hsome, -⟩
  · exact h.of_same (h.guarded.step m) (Lane.forall_calls_step h.calls hm) hids hstate hresults
  · rw [hnone] at hsome
    cases hsome

theorem Gathers.contains_next (h : x.Gathers start source asked) {last : Nat}
    (hfresh : source.FreshUntil last start.stagedHolons.contains) (hlast : x.ids.drawn < last) :
    x.state.stagedHolons.contains x.ids.next = false := by
  have hnext : x.ids.next = source.stream x.ids.drawn := by rw [IdSource.next, h.ids.stream]
  obtain ⟨hstart, hdrawn⟩ := hfresh x.ids.drawn h.ids.drawn hlast
  cases hc : x.state.stagedHolons.contains x.ids.next with
  | false => rfl
  | true =>
    rcases h.pool _ hc with hused | ⟨n, hle, hlt, hn⟩
    · rw [hnext, hstart] at hused
      cases hused
    · rw [hnext] at hn
      exact absurd hn (hdrawn n hle hlt)

/-- **A staged holon is put beside the others**: the swap that brings it leaves all earlier results in the pool. -/
theorem Gathers.gain (h : x.Gathers start source asked) {last : Nat}
    (hfresh : source.FreshUntil last start.stagedHolons.contains) (hlast : x.ids.drawn < last)
    (hguarded : y.lane.Guarded) (hcalls : ∀ q ∈ y.lane.calls, ∃ h, q.2 = .typed (.stageNewHolon h) ∧ asked q.1 h)
    (hids : y.ids = x.ids.advance) {holon : TransientHolon} {staged : StagedHolon} (hstaged : holon.stage = .ok staged)
    {transient : Pool} (hstate : y.state = x.state.gaining x.ids.next staged transient) {caller : Nat}
    (hasked : asked caller holon) {r : Reconciliation}
    (hresults : y.lane.results =
      x.lane.results ++ [(caller, .ok (r, .staged (x.state.stagedReference x.ids.next)))]) :
    y.Gathers start source asked := by
  have hnew := h.contains_next hfresh hlast
  have hget (j : TemporaryId) : y.state.stagedHolons.get? j =
      if j = x.ids.next then some (.staged staged) else x.state.stagedHolons.get? j := by
    rw [hstate, SessionState.get?_gaining]
  have hkept {j : TemporaryId} {g : Holon} (hj : x.state.stagedHolons.get? j = some g) : j ≠ x.ids.next := by
    rintro rfl
    rw [Pool.contains_iff.2 ⟨g, hj⟩] at hnew
    cases hnew
  refine ⟨hguarded, hcalls, ?_, ?_, fun id hid => ?_, fun o ho => ?_, ?_⟩
  · rw [hids]
    exact h.ids.trans x.ids.reaches_advance
  · rw [hstate]
    exact h.txId
  · rw [Pool.contains_iff] at hid
    obtain ⟨g, hg⟩ := hid
    rw [hget] at hg
    rw [hids]
    split at hg
    · rename_i heq
      refine .inr ⟨x.ids.drawn, h.ids.drawn, Nat.lt_succ_self _, ?_⟩
      rw [heq, IdSource.next, h.ids.stream]
    · refine (h.pool id (Pool.contains_iff.2 ⟨g, hg⟩)).imp_right fun ⟨n, hle, hlt, hn⟩ => ?_
      exact ⟨n, hle, Nat.lt_succ_of_lt hlt, hn⟩
  · rw [hresults] at ho
    rcases List.mem_append.1 ho with ho | ho
    · obtain ⟨h', s', id, r', hasked', hs', ho', hid⟩ := h.results o ho
      refine ⟨h', s', id, r', hasked', hs', ho', ?_⟩
      rw [hget, if_neg (hkept hid), hid]
    · rw [List.mem_singleton.1 ho]
      refine ⟨holon, staged, x.ids.next, r, hasked, hstaged, ?_, ?_⟩
      · rw [SessionState.stagedReference, h.txId]
      · rw [hget, if_pos rfl]
  · rw [hresults, List.filterMap_append, List.nodup_append]
    refine ⟨h.distinct, List.pairwise_singleton _ _, fun ref href ref' href' => ?_⟩
    obtain ⟨o, ho, hor⟩ := List.mem_filterMap.1 href
    obtain ⟨_, _, id, _, -, -, ho', hid⟩ := h.results o ho
    rw [ho'] at hor
    simp only [Outcome.reference?, Option.some.injEq] at hor
    simp only [List.filterMap_cons, List.filterMap_nil, Outcome.reference?, List.mem_singleton] at href'
    rw [← hor, href', SessionState.stagedReference]
    intro heq
    exact hkept hid (StagedReference.mk.inj heq).2

theorem Gathers.land (h : x.Gathers start source asked) {last : Nat}
    (hfresh : source.FreshUntil last start.stagedHolons.contains) (hlast : x.ids.drawn < last) {caller : Nat}
    {f : Flight} (hf : x.lane.flight? caller = some f) {holon : TransientHolon}
    (hcall : f.call = .typed (.stageNewHolon holon)) (hasked : asked caller holon) {staged : StagedHolon}
    (hstaged : holon.stage = .ok staged) (transient : Pool) (server : Server) :
    Gathers start source asked
      ⟨x.lane.step (.reply caller (.ok (.ok x.server.space
        (.reference (.staged (x.state.stagedReference x.ids.next))) (x.state.gaining x.ids.next staged transient)))),
        server, x.ids.advance⟩ := by
  generalize hresponse : DanceResponse.ok x.server.space (.reference (.staged (x.state.stagedReference x.ids.next)))
    (x.state.gaining x.ids.next staged transient) = response
  cases hs : x.lane.swap? (.reply caller (.ok response)) with
  | none => exact h.move hs (by simp) x.ids.reaches_advance
  | some swap =>
    obtain ⟨hlinks, hresults⟩ := h.guarded.links_of_swap? hs
    obtain ⟨hm, hflight, -⟩ := Lane.swap?_eq_some hs
    simp only [Move.reply.injEq, Except.ok.injEq] at hm
    obtain ⟨hcaller, hswap⟩ := hm
    rw [← hcaller, hf] at hflight
    have hcall' : swap.flight.call = .typed (.stageNewHolon holon) := by rw [← hcall, Option.some.inj hflight]
    have hbody : swap.result.body = .reference (.staged (x.state.stagedReference x.ids.next)) := by
      obtain ⟨-, -, -, -, hr⟩ := reconcile_ok hlinks.reconciled
      rw [hr, ← hswap, ← hresponse]
      rfl
    have hanswer : swap.answer = .staged (x.state.stagedReference x.ids.next) := by
      have := hlinks.extracted
      rw [hcall'] at this
      simp only [Call.typed, Answer.ofDance?, Answer.staged?, hbody, Option.some.injEq] at this
      exact this.symm
    have hstate : (x.lane.step (.reply caller (.ok response))).client.state =
        x.state.gaining x.ids.next staged transient := by
      have := hlinks.snapshot
      rw [← hswap, ← hresponse] at this
      rw [← hresponse]
      exact (Option.some.inj this).symm
    have hguarded := h.guarded.step (.reply caller (.ok response))
    have hgained : (x.lane.step (.reply caller (.ok response))).results =
        x.lane.results ++ [(caller, .ok (swap.result, .staged (x.state.stagedReference x.ids.next)))] := by
      rw [hresults, Swap.outcome, ← hcaller, hanswer]
    exact h.gain hfresh hlast hguarded (Lane.forall_calls_step h.calls (by simp)) rfl hstaged hstate hasked hgained

theorem Gathers.serve (h : x.Gathers start source asked) {last : Nat}
    (hfresh : source.FreshUntil last start.stagedHolons.contains) {caller : Nat}
    (hlast : (x.step (.serve caller)).ids.drawn ≤ last) : (x.step (.serve caller)).Gathers start source asked := by
  simp only [step] at hlast ⊢
  cases hf : x.lane.flight? caller with
  | none => exact h
  | some f =>
    simp only [hf] at hlast ⊢
    have hmem := Lane.mem_inside_of_flight? hf
    obtain ⟨hbefore, hbuild⟩ := h.guarded.made hmem
    obtain ⟨holon, hcall, hasked⟩ := h.calls (caller, f.call) (Lane.mem_calls.2 (.inr ⟨_, hmem, rfl⟩))
    simp only at hcall hasked
    rw [hcall] at hbuild
    have hcontext : f.request.context.state = x.state := Dance.state_of_request hbuild
    have horder : f.request.order x.server.space = .ok (Staging.holon (.transient holon)).order :=
      Dance.order_of_request hbuild x.server.space
    rcases x.server.handle_staging horder x.ids with ⟨e, server, hhandle⟩ | ⟨staged, transient, hp, hhandle⟩
    · rw [hhandle]
      refine h.move ?_ (by simp) (.refl _)
      cases hs : x.lane.swap? (.reply caller (.ok (.ofRefusal x.server.space e))) with
      | none => rfl
      | some swap =>
        have hsuccess := (h.guarded.links_of_swap? hs).1.success
        obtain ⟨hm, -⟩ := Lane.swap?_eq_some hs
        simp only [Move.reply.injEq, Except.ok.injEq] at hm
        rw [← hm.2, DanceResponse.ofRefusal, Status.isSuccess_ofRefusal] at hsuccess
        cases hsuccess
    · rw [hhandle] at hlast ⊢
      rw [hcontext] at hp ⊢
      have hstaged : holon.stage = .ok staged := by
        simp only [Store.promoted, Holon.stage] at hp
        cases hst : holon.stage with
        | error e => rw [hst] at hp; cases hp
        | ok s => rw [hst] at hp; cases hp; rfl
      exact h.land hfresh (Nat.lt_of_lt_of_le (Nat.lt_succ_self _) hlast) hf hcall hasked hstaged transient x.server

theorem Gathers.step (h : x.Gathers start source asked) {last : Nat}
    (hfresh : source.FreshUntil last start.stagedHolons.contains) {e : Event}
    (hask : ∀ caller call, e = .ask caller call → ∃ h, call = .typed (.stageNewHolon h) ∧ asked caller h)
    (hlast : (x.step e).ids.drawn ≤ last) : (x.step e).Gathers start source asked := by
  cases e with
  | ask caller call => exact h.move rfl (fun c q hm => by cases hm; exact hask caller call rfl) (.refl _)
  | enter caller => exact h.move rfl (by simp) (.refl _)
  | launch caller =>
    have hnone : x.lane.swap? (.launch caller) = none := rfl
    exact h.move hnone (by simp) (.refl _)
  | serve caller => exact h.serve hfresh hlast
  | expire caller => exact h.move rfl (by simp) (.refl _)
  | drop caller => exact h.move rfl (by simp) (.refl _)
  | cancel => exact h.move rfl (by simp) (.refl _)
  | tend change => exact h.of_same h.guarded h.calls (.refl _) rfl rfl

theorem Gathers.run : ∀ {es : List Event} {x : Exchange}, x.Gathers start source asked →
    source.FreshUntil (x.run es).ids.drawn start.stagedHolons.contains →
    (∀ e ∈ es, ∀ caller call, e = .ask caller call → ∃ h, call = .typed (.stageNewHolon h) ∧ asked caller h) →
    (x.run es).Gathers start source asked
  | [], _, h, _, _ => h
  | e :: es, x, h, hfresh, hask =>
    have hlast : (x.step e).ids.drawn ≤ (x.run (e :: es)).ids.drawn := ((x.step e).reaches_run es).drawn
    (h.step hfresh (hask e List.mem_cons_self) hlast).run hfresh fun e he => hask e (List.mem_cons_of_mem _ he)

theorem gathers_start (c : Client) (server : Server) (ids : IdSource) (asked : Nat → TransientHolon → Prop)
    (h : c.session.held = false) : Gathers c.state ids asked ⟨.idle c, server, ids⟩ where
  guarded := Lane.guarded_idle h
  calls q hq := by simp [Lane.calls, Lane.idle] at hq
  ids := .refl ids
  txId := rfl
  pool _ hid := .inl hid
  results o ho := by simp [Lane.results, Lane.idle] at ho
  distinct := List.nodup_nil

/-- **No update is lost.**  However the calls of a client overlap, are cancelled, expire or are given up: at most one is
past the guard, what it was made from is what the session still is, and the states of the session are a chain of swaps,
one for each result.  So all the holons that overlapping calls have staged, each under an id of its own, are there in
the end. -/
theorem no_update_is_lost :
    (∀ c : Client, c.session.held = false → ∀ ms : List Move,
      let l := (Lane.idle c).run ms
      l.inside.length ≤ 1 ∧
        (∀ caller f, (caller, .flying f) ∈ l.inside → f.before = l.client.state) ∧
        Swap.Chain c.space c.state ((Lane.idle c).swaps ms) l.client.state ∧
        l.results = ((Lane.idle c).swaps ms).map Swap.outcome) ∧
    (∀ c : Client, c.session.held = false → ∀ (server : Server) (ids : IdSource) (es : List Event),
      (∀ caller call, .ask caller call ∈ es → ∃ h, call = .typed (.stageNewHolon h)) →
      let x := run ⟨.idle c, server, ids⟩ es
      ids.FreshUntil x.ids.drawn c.state.stagedHolons.contains →
      (∀ o ∈ x.lane.results, ∃ h staged ref r, .ask o.1 (.typed (.stageNewHolon h)) ∈ es ∧ h.stage = .ok staged ∧
        o.2 = .ok (r, .staged ref) ∧ x.state.getStaged ref = .ok (.staged staged)) ∧
      (x.lane.results.filterMap fun o => o.2.reference?).Nodup) := by
  refine ⟨fun c hfree ms => ?_, fun c hfree server ids es hask => ?_⟩
  · have hstart := Lane.guarded_idle hfree
    have hguarded := hstart.run ms
    obtain ⟨hchain, hresults⟩ := hstart.run_chain ms
    exact ⟨hguarded.alone, fun caller f hf => (hguarded.made hf).1, hchain, hresults⟩
  · intro x hfresh
    have hstart := gathers_start c server ids (fun caller h => .ask caller (.typed (.stageNewHolon h)) ∈ es) hfree
    have hx : x.Gathers c.state ids (fun caller h => .ask caller (.typed (.stageNewHolon h)) ∈ es) := by
      refine hstart.run hfresh ?_
      rintro e he caller call rfl
      obtain ⟨h, rfl⟩ := hask caller call he
      exact ⟨h, rfl, he⟩
    refine ⟨fun o ho => ?_, hx.distinct⟩
    obtain ⟨h, staged, id, r, hasked, hstaged, ho, hget⟩ := hx.results o ho
    exact ⟨h, staged, _, r, hasked, hstaged, ho, SessionState.getStaged_eq_ok_iff.2 ⟨hx.txId.symm, hget⟩⟩

/-- Two calls that overlap: the second is made while the first is on its way. -/
def overlapping : List Event :=
  [.ask 0 (.typed (.stageNewHolon (.new ∅))), .enter 0, .launch 0, .ask 1 (.typed (.stageNewHolon (.new ∅))), .enter 1,
    .serve 0, .enter 1, .launch 1, .serve 1]

theorem no_update_is_lost_by_overlapping :
    let x := run ⟨.idle .fresh, .new ⟨"local"⟩, .ofPresets []⟩ overlapping
    x.lane.results.length = 2 ∧ (∀ o ∈ x.lane.results, ∃ h staged ref r,
      .ask o.1 (.typed (.stageNewHolon h)) ∈ overlapping ∧ h.stage = .ok staged ∧ o.2 = .ok (r, .staged ref) ∧
        x.state.getStaged ref = .ok (.staged staged)) ∧
      (x.lane.results.filterMap fun o => o.2.reference?).Nodup := by
  refine ⟨rfl, no_update_is_lost.2 .fresh rfl (.new ⟨"local"⟩) (.ofPresets []) overlapping ?_ ?_⟩
  · intro caller call hmem
    simp [overlapping] at hmem
    rcases hmem with ⟨-, rfl⟩ | ⟨-, rfl⟩ <;> exact ⟨_, rfl⟩
  · intro n _ hn
    have hdrawn : (run ⟨.idle .fresh, .new ⟨"local"⟩, .ofPresets []⟩ overlapping).ids.drawn = 2 := rfl
    rw [hdrawn] at hn
    refine ⟨rfl, fun m _ hm => ?_⟩
    obtain ⟨rfl, rfl⟩ : m = 0 ∧ n = 1 := by omega
    decide

end Exchange

end Holarchy
