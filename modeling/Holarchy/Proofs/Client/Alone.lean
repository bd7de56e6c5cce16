import Holarchy.Proofs.Client.Transparency
/-!
# Errands without company

An errand that is run alone, over a free client and against an other end that does not make it wait, comes to what the
connection gives for it without a clock: one call, or one call for each placeholder up to the first that cannot be read.
-/
namespace Holarchy

theorem Server.delay_handle (s : Server) (q : DanceRequest) (ids : IdSource) :
    (s.handle q ids).1.2.delay = s.delay := by
  unfold handle
  split
  · rfl
  · split
    · rfl
    · split <;> rfl

theorem Remote.delay_receive (r : Remote) (q : DanceRequest) : (r.receive q).2.delay = r.delay := by
  cases r with
  | encoded s => rw [receive_encoded]; rfl
  | _ => rfl

theorem Remote.delay_answer (r : Remote) (q : DanceRequest) (ids : IdSource) :
    (r.answer q ids).1.2.delay = r.delay := by
  have hserver (s : Server) : ((s.handle q ids).1.2.delay).getD 0 = s.delay.getD 0 := by rw [s.delay_handle]
  cases r with
  | direct s => exact hserver s
  | encoded s => exact hserver s
  | scripted replies requests =>
    cases replies with
    | nil => rfl
    | cons reply replies => cases reply <;> rfl
  | channel replies requests =>
    cases replies with
    | nil => rfl
    | cons text replies => cases text <;> rfl

namespace Connection

theorem held_call (k : Connection) (c : Call) : (k.call c).2.client.session.held = false := by
  unfold call
  split
  · rfl
  · split
    · exact Client.held_land _ _ _
    · exact Client.held_land _ _ _

theorem delay_call (k : Connection) (c : Call) : (k.call c).2.remote.delay = k.remote.delay := by
  unfold call
  split
  · rfl
  · rename_i f client hlaunch
    have hreceive := k.remote.delay_receive f.request
    split
    · rename_i e remote hreceived
      rw [hreceived] at hreceive
      exact hreceive
    · rename_i q remote hreceived
      rw [hreceived] at hreceive
      exact (remote.delay_answer q k.ids).trans hreceive

end Connection

namespace Lane

variable {client : Client}

/-- A call that waits alone for a free guard is refused before it is sent, or its request goes out. -/
theorem run_enter_launch (hfree : client.session.held = false) (caller : Nat) (c : Call) (sent : List DanceRequest) :
    let l : Lane := ⟨client, [(caller, c)], [], sent, []⟩
    (∃ e, client.begin.launch c = .error e ∧
      l.run [.enter caller, .launch caller] = ⟨client.begin.forget, [], [], sent, [(caller, .error e)]⟩) ∨
    ∃ f client', client.begin.launch c = .ok (f, client') ∧
      l.run [.enter caller, .launch caller] = ⟨client', [], [(caller, .flying f)], sent ++ [f.request], []⟩ := by
  intro l
  have henter : l.step (.enter caller) = ⟨client.begin, [], [(caller, .ready c)], sent, []⟩ := by
    simp [l, step, hfree]
  have hrun : l.run [.enter caller, .launch caller] = (l.step (.enter caller)).step (.launch caller) := rfl
  rw [hrun, henter]
  cases hlaunch : client.begin.launch c with
  | error e => exact .inl ⟨e, rfl, by simp [step, hlaunch, conclude, others]⟩
  | ok launched =>
    obtain ⟨f, client'⟩ := launched
    exact .inr ⟨f, client', rfl, by simp [step, hlaunch, others]⟩

theorem step_reply_alone (caller : Nat) (f : Flight) (sent : List DanceRequest)
    (reply : Except CallError DanceResponse) :
    (⟨client, [], [(caller, .flying f)], sent, []⟩ : Lane).step (.reply caller reply) =
      ⟨(client.land f reply).2, [], [], sent, [(caller, (client.land f reply).1)]⟩ := by
  simp [step, flight?, conclude, others]

end Lane

namespace Timeline

variable {ρ : Type} {t : Timeline ρ}

/-- Nothing goes on, the client is free, and the other end answers at once. -/
structure Rests (t : Timeline ρ) : Prop where
  queue : t.lane.queue = []
  inside : t.lane.inside = []
  ended : t.lane.ended = []
  wait : t.wait = none
  free : t.lane.client.session.held = false
  prompt : t.remote.delay = 0

/-- The timeline at rest with a connection in place of its own, after some requests. -/
def resume (t : Timeline ρ) (k : Connection) (sent : List DanceRequest) : Timeline ρ :=
  { t with lane := ⟨k.client, [], [], sent, []⟩, remote := k.remote, ids := k.ids, wait := none }

theorem rests_start {k : Connection} (hfree : k.client.session.held = false) (hprompt : k.remote.delay = 0)
    (fetched : FetchedHolons) : (start k fetched : Timeline ρ).Rests := ⟨rfl, rfl, rfl, rfl, hfree, hprompt⟩

theorem Rests.resume_call (h : t.Rests) (c : Call) (sent : List DanceRequest) :
    (t.resume (t.connection.call c).2 sent).Rests :=
  ⟨rfl, rfl, rfl, rfl, t.connection.held_call c, (t.connection.delay_call c).trans h.prompt⟩

theorem Rests.resume_self (h : t.Rests) : t.resume t.connection t.lane.sent = t := by
  obtain ⟨⟨client, queue, inside, sent, ended⟩, remote, ids, now, wait, refreshing, fetched, results⟩ := t
  obtain ⟨rfl, rfl, rfl, rfl, -, -⟩ := h
  rfl

theorem Rests.launch_eq (h : t.Rests) (n : Nat) : t.launch n = t := by
  cases n with
  | zero => rfl
  | succ n => simp only [launch, h.inside, h.queue]

/-- **A call that is asked for alone is launched, answered and handed to its caller.** -/
theorem Rests.launch_ask (h : t.Rests) (caller : Nat) (c : Call) (n : Nat) :
    ∃ sent, (t.ask caller c).launch (n + 1) =
      ((t.resume (t.connection.call c).2 sent).hand caller (t.connection.call c).1).launch n := by
  obtain ⟨⟨client, queue, inside, sent, ended⟩, remote, ids, now, wait, refreshing, fetched, results⟩ := t
  obtain ⟨rfl, rfl, rfl, rfl, hfree, hprompt⟩ := h
  simp only at hfree hprompt
  unfold Timeline.connection Connection.call
  simp only [ask, Lane.step, List.nil_append, launch]
  rcases Lane.run_enter_launch hfree caller c sent with ⟨e, hlaunch, hrun⟩ | ⟨f, client', hlaunch, hrun⟩
  · rw [hlaunch, hrun]
    exact ⟨sent, rfl⟩
  · rw [hlaunch, hrun]
    have hflight : (⟨client', [], [(caller, .flying f)], sent ++ [f.request], []⟩ : Lane).flight? caller = some f := by
      simp [Lane.flight?]
    simp only [hflight, send]
    have hreceive := remote.delay_receive f.request
    rcases hreceived : remote.receive f.request with ⟨e | q, remote'⟩
    · simp only [Lane.step_reply_alone]
      exact ⟨sent ++ [f.request], rfl⟩
    · rw [hreceived, hprompt] at hreceive
      simp only at hreceive
      simp only [hreceive, if_true, reply, Lane.step_reply_alone]
      exact ⟨sent ++ [f.request], rfl⟩

/-- What is answered to the first placeholder leaves the others. -/
theorem advance_eq (holons : List SavedHolon) (id : LocalId) (rest : List LocalId) (answer : Answer) :
    FetchedHolons.advance ⟨holons, id :: rest⟩ answer =
      ⟨(FetchedHolons.advance ⟨holons, id :: rest⟩ answer).holons, rest⟩ := by
  cases answer <;> rfl

/-- **Placeholders that are read alone are read one after the other**, up to the first that cannot be read. -/
theorem Rests.launch_refresh (caller : Nat) (ids : List LocalId) : ∀ {t : Timeline ρ} {holons : List SavedHolon}
    {n : Nat}, t.Rests → (t.refreshing.filter fun r => r.1 != caller) = [] → ids.length ≤ n →
    let ended := t.connection.refreshFrom holons ids
    ∃ sent, (t.refresh caller ⟨holons, ids⟩).launch n =
      { t.resume ended.2 sent with
        refreshing := [], results := t.results ++ [(caller, .refreshed ended.1)] } := by
  induction ids with
  | nil =>
    intro t holons n h hothers _ ended
    let done : Timeline ρ :=
      { t with refreshing := [], results := t.results ++ [(caller, .refreshed (.ok ⟨holons, []⟩))] }
    have hdone : t.refresh caller ⟨holons, []⟩ = done := by
      simp only [refresh, FetchedHolons.next?, List.head?_nil, Option.map_none, hothers, finish]
      rfl
    have hrests : done.Rests := { h with }
    refine ⟨t.lane.sent, ?_⟩
    have hresume : t.resume ended.2 t.lane.sent = t := h.resume_self
    rw [hdone, hrests.launch_eq, hresume]
    rfl
  | cons id rest ih =>
    intro t holons n h hothers hn ended
    obtain ⟨n, rfl⟩ : ∃ m, n = m + 1 := ⟨n - 1, by rw [List.length_cons] at hn; omega⟩
    let f : FetchedHolons := ⟨holons, id :: rest⟩
    let reading : Timeline ρ := { t with refreshing := [(caller, f)] }
    have hasked : t.refresh caller f = reading.ask caller (.typed (.getHolonById (.local id))) := by
      simp only [refresh, FetchedHolons.next?, f, List.head?_cons, Option.map_some, hothers]
      rfl
    have hreading : reading.Rests := { h with }
    obtain ⟨sent, hlaunch⟩ := hreading.launch_ask caller (.typed (.getHolonById (.local id))) n
    have hrests := hreading.resume_call (.typed (.getHolonById (.local id))) sent
    have hconnection : reading.connection = t.connection := rfl
    have hended : ended = t.connection.refreshFrom holons (id :: rest) := rfl
    rw [hasked, hlaunch]
    rw [hconnection] at hrests ⊢
    rw [Connection.refreshFrom] at hended
    rcases hcall : t.connection.call (.typed (.getHolonById (.local id))) with ⟨e | ⟨r, answer⟩, k⟩
    · rw [hcall] at hrests hended
      simp only at hrests hended ⊢
      rw [hended]
      let failed : Timeline ρ :=
        { reading.resume k sent with
          refreshing := [], results := t.results ++ [(caller, .refreshed (.error e))] }
      have hfailed : (reading.resume k sent).hand caller (.error e) = failed := by
        simp [hand, reading, resume, finish, failed, Result.fetched?]
      have hrests' : failed.Rests := { hrests with }
      refine ⟨sent, ?_⟩
      rw [hfailed, hrests'.launch_eq]
      rfl
    · rw [hcall] at hrests hended
      simp only at hrests hended ⊢
      rw [hended]
      have hnext : (reading.resume k sent).hand caller (.ok (r, answer)) =
          (reading.resume k sent).refresh caller ⟨(f.advance answer).holons, rest⟩ := by
        rw [← advance_eq]
        simp [hand, reading, resume]
        rfl
      have hothers' : ((reading.resume k sent).refreshing.filter fun r => r.1 != caller) = [] := by
        simp [reading, resume]
      have hle : rest.length ≤ n := Nat.le_of_succ_le_succ hn
      obtain ⟨sent', hdone⟩ := ih hrests hothers' hle
      rw [hnext]
      exact ⟨sent', hdone⟩

theorem advance_of_wait (h : t.wait = none) (moment : Option Nat) : t.advance moment = t := by
  simp only [advance, pass, h]

end Timeline

namespace Connection

variable {ρ : Type} {k : Connection}

/-- **A call alone is the call of the connection.** -/
theorem runTogether_call (hfree : k.client.session.held = false) (hprompt : k.remote.delay = 0)
    (fetched : FetchedHolons) (c : Call) :
    let result : Result ρ := .called (k.call c).1
    k.runTogether fetched [.call c] [] = ⟨[some result], none, (k.call c).2, result.fetched?.getD fetched⟩ := by
  intro result
  let t : Timeline ρ := .start k fetched
  obtain ⟨sent, hlaunch⟩ := (Timeline.rests_start hfree hprompt fetched : t.Rests).launch_ask 0 c 0
  have hproceed : (t.ask 0 c).proceed = (t.ask 0 c).launch 1 := rfl
  have hwait : ((t.resume (k.call c).2 sent).hand 0 (k.call c).1).wait = none := rfl
  have hconnection : t.connection = k := rfl
  simp only [runTogether, Timeline.beginAll, Timeline.begin, Timeline.interruptAll]
  rw [hproceed, hlaunch, Timeline.launch, hconnection, Timeline.advance_of_wait hwait]
  rfl

/-- **A refresh alone is the refresh of the connection.** -/
theorem runTogether_refresh (hfree : k.client.session.held = false) (hprompt : k.remote.delay = 0)
    (fetched f : FetchedHolons) :
    let ended := k.refreshFrom f.holons f.placeholders
    k.runTogether fetched ([.refresh (some f)] : List (Errand ρ)) [] =
      ⟨[some (.refreshed ended.1)], none, ended.2, fetched⟩ := by
  intro ended
  let t : Timeline ρ := .start k fetched
  have hrests : t.Rests := Timeline.rests_start hfree hprompt fetched
  have hpending : f.placeholders.length ≤ (t.refresh 0 f).pending := by
    obtain ⟨holons, _ | ⟨id, rest⟩⟩ := f
    · exact Nat.zero_le _
    · simp [t, Timeline.start, Lane.idle, Timeline.refresh, FetchedHolons.next?, Timeline.ask, Lane.step,
        Timeline.pending]
  obtain ⟨sent, hlaunch⟩ := hrests.launch_refresh 0 f.placeholders rfl hpending
  have hproceed : (t.refresh 0 f).proceed = (t.refresh 0 f).launch (t.refresh 0 f).pending := rfl
  simp only [runTogether, Timeline.beginAll, Timeline.begin, Timeline.interruptAll, Option.getD_some]
  rw [hproceed, hlaunch, Timeline.advance_of_wait rfl]
  rfl

end Connection

end Holarchy
