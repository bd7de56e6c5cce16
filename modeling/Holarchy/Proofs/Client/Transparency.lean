import Holarchy.Client.Timeline
import Holarchy.Proofs.Client.Step
import Holarchy.Proofs.Wire.RoundTrip
/-!
# Texts are transparent

A client whose requests and answers go through texts lives through the same as one that reaches its server directly.
Both are followed side by side: they differ in nothing but the way to the server, and whatever is done to the one and to
the other leaves them so.
-/
namespace Holarchy

/-- No text was met that could not be read. -/
def Legible {α : Type} (outcome : Except CallError α) : Prop := ∀ e, outcome ≠ .error (.decode e)

theorem legible_ok {α : Type} (a : α) : Legible (.ok a) := fun _ h => by cases h

section Calls

variable (f : Flight) (response : DanceResponse)

theorem legible_reconcile (dance : String) (seq : UInt64) (current : SessionState) :
    Legible (reconcile dance seq current response) := by
  intro e
  unfold reconcile
  repeat' split
  all_goals exact fun h => by cases h

theorem Session.legible_examine (s : Session) : Legible (s.examine f (.ok response)).1 := by
  have hreconcile := legible_reconcile response f.name f.seq f.before
  simp only [examine]
  split
  · split
    · exact fun _ h => by cases h
    · exact hreconcile
  · exact fun _ h => by cases h

theorem Session.legible_settle (s : Session) (r : Reconciliation) : Legible (s.settle f r).1 := by
  unfold settle
  split
  · exact fun _ h => by cases h
  · split <;> exact fun _ h => by cases h

theorem Session.legible_land (s : Session) : Legible (s.land f (.ok response)).1 := by
  have hexamine := s.legible_examine f response
  unfold land
  split
  · rename_i hcase
    rw [hcase] at hexamine
    exact fun e he => hexamine e (congrArg Except.error (Except.error.inj he))
  · exact Session.legible_settle f _ _

theorem Client.legible_land (c : Client) : Legible (c.land f (.ok response)).1 := by
  rw [Client.outcome_land]
  exact c.session.legible_land f response

end Calls

namespace Lane

/-- No call has ended with a text that could not be read. -/
def Legible (l : Lane) : Prop := ∀ o ∈ l.ended, Holarchy.Legible o.2

theorem Legible.conclude {l : Lane} (h : l.Legible) (caller : Nat) {r : Outcome × Client}
    (hr : Holarchy.Legible r.1) : (l.conclude caller r).Legible := by
  intro o ho
  rcases List.mem_append.1 ho with ho | ho
  · exact h o ho
  · cases List.mem_singleton.1 ho
    exact hr

/-- Only a reply can bring a text. -/
theorem Legible.step {l : Lane} (h : l.Legible) {m : Move} (hm : ∀ caller e, m ≠ .reply caller (.error e)) :
    (l.step m).Legible := by
  cases m with
  | ask | cancel => exact h
  | enter caller => simp only [Lane.step]; split <;> exact h
  | launch caller =>
    simp only [Lane.step]
    split
    · rename_i call _
      rcases l.client.launch_cases call with ⟨e, -, hlaunch⟩ | ⟨f, c, hlaunch, -⟩
      · rw [hlaunch]
        exact h.conclude caller fun _ h => by cases h
      · rw [hlaunch]
        exact h
    · exact h
  | reply caller reply =>
    simp only [Lane.step]
    split
    · cases reply with
      | error e => exact absurd rfl (hm caller e)
      | ok response => exact h.conclude caller (l.client.legible_land _ response)
    · exact h
  | expire caller =>
    simp only [Lane.step]
    split
    · exact h.conclude caller fun _ h => by cases h
    · exact h
  | drop caller => simp only [Lane.step]; split <;> exact h

theorem Legible.reply {l : Lane} (h : l.Legible) (caller : Nat) (response : DanceResponse) :
    (l.step (.reply caller (.ok response))).Legible := h.step nofun

theorem Legible.run {l : Lane} (h : l.Legible) {moves : List Move}
    (hmoves : ∀ caller e, .reply caller (.error e) ∉ moves) : (l.run moves).Legible := by
  induction moves generalizing l with
  | nil => exact h
  | cons m moves ih =>
    refine ih (h.step fun caller e hm => hmoves caller e ?_) fun caller e hin =>
      hmoves caller e (List.mem_cons_of_mem m hin)
    rw [hm]
    exact List.mem_cons_self

end Lane

namespace Remote

theorem receive_direct (s : Server) (q : DanceRequest) :
    (Remote.direct s).receive q = (.ok q, .direct (s.receive q)) := rfl

/-- **A request arrives as it was sent**, also through a text. -/
theorem receive_encoded (s : Server) (q : DanceRequest) :
    (Remote.encoded s).receive q = (.ok q, .encoded (s.receive q)) := by
  unfold receive
  simp only [Wire.decodeRequest_encodeRequest]

/-- **An answer arrives as it was given**, also through a text. -/
theorem answer_encoded (s : Server) (q : DanceRequest) (ids : IdSource) :
    (Remote.encoded s).answer q ids =
      ((.ok (s.handle q ids).1.1, .encoded (s.handle q ids).1.2), (s.handle q ids).2) := by
  simp only [answer, decoded, Wire.decodeResponse_encodeResponse]

theorem same_delay (s : Server) : ∃ delay, (Remote.direct s).delay = delay ∧ (Remote.encoded s).delay = delay :=
  ⟨_, rfl, rfl⟩

end Remote

def Result.Legible {ρ : Type} : Result ρ → Prop
  | .acted _ => True
  | .called outcome => Holarchy.Legible outcome
  | .refreshed outcome => Holarchy.Legible outcome

namespace Timeline

variable {ρ : Type}

/-- Two timelines that differ in the way to their server only, and neither of which has met a text that could not be
read. -/
inductive Mirrors : Timeline ρ → Timeline ρ → Prop where
  | mk (t : Timeline ρ) (server : Server) : t.lane.Legible → (∀ r ∈ t.results, r.2.Legible) →
    Mirrors { t with remote := .direct server } { t with remote := .encoded server }

variable {t t' : Timeline ρ}

theorem Mirrors.same_lane (h : t.Mirrors t') : t'.lane = t.lane := by cases h; rfl

theorem Mirrors.same_ids (h : t.Mirrors t') : t'.ids = t.ids := by cases h; rfl

theorem Mirrors.same_wait (h : t.Mirrors t') : t'.wait = t.wait := by cases h; rfl

theorem Mirrors.same_refreshing (h : t.Mirrors t') : t'.refreshing = t.refreshing := by cases h; rfl

theorem Mirrors.same_fetched (h : t.Mirrors t') : t'.fetched = t.fetched := by cases h; rfl

theorem Mirrors.same_results (h : t.Mirrors t') : t'.results = t.results := by cases h; rfl

theorem Mirrors.same_pending (h : t.Mirrors t') : t'.pending = t.pending := by cases h; rfl

theorem Mirrors.legible (h : t.Mirrors t') : t.lane.Legible := by cases h; assumption

theorem Mirrors.legible_results (h : t.Mirrors t') : ∀ r ∈ t.results, r.2.Legible := by cases h; assumption

theorem Mirrors.reached (h : t.Mirrors t') : ∃ server, t.remote = .direct server ∧ t'.remote = .encoded server := by
  cases h
  exact ⟨_, rfl, rfl⟩

theorem Mirrors.lane (h : t.Mirrors t') {l : Lane} (hl : l.Legible) :
    Mirrors { t with lane := l } { t' with lane := l } := by
  obtain ⟨t, server, -, hresults⟩ := h
  exact .mk { t with lane := l } server hl hresults

theorem Mirrors.wait (h : t.Mirrors t') (wait : Option Wait) : Mirrors { t with wait } { t' with wait } := by
  obtain ⟨t, server, hlane, hresults⟩ := h
  exact .mk { t with wait } server hlane hresults

theorem Mirrors.now (h : t.Mirrors t') (now : Nat) : Mirrors { t with now } { t' with now } := by
  obtain ⟨t, server, hlane, hresults⟩ := h
  exact .mk { t with now } server hlane hresults

theorem Mirrors.refreshing (h : t.Mirrors t') (refreshing : List (Nat × FetchedHolons)) :
    Mirrors { t with refreshing } { t' with refreshing } := by
  obtain ⟨t, server, hlane, hresults⟩ := h
  exact .mk { t with refreshing } server hlane hresults

/-- The lane makes a move that brings no text. -/
theorem Mirrors.move (h : t.Mirrors t') {m : Move} (hm : ∀ caller e, m ≠ .reply caller (.error e)) :
    Mirrors { t with lane := t.lane.step m } { t' with lane := t'.lane.step m } := by
  rw [h.same_lane]
  exact h.lane (h.legible.step hm)

theorem Mirrors.finish (h : t.Mirrors t') (caller : Nat) {r : Result ρ} (hr : r.Legible) :
    (t.finish caller r).Mirrors (t'.finish caller r) := by
  obtain ⟨t, server, hlane, hresults⟩ := h
  refine .mk (t.finish caller r) server hlane fun result hresult => ?_
  rcases List.mem_append.1 hresult with hresult | hresult
  · exact hresults result hresult
  · cases List.mem_singleton.1 hresult
    exact hr

theorem Mirrors.ask (h : t.Mirrors t') (caller : Nat) (c : Call) : (t.ask caller c).Mirrors (t'.ask caller c) :=
  h.move nofun

theorem Mirrors.refresh (h : t.Mirrors t') (caller : Nat) (f : FetchedHolons) :
    (t.refresh caller f).Mirrors (t'.refresh caller f) := by
  unfold Timeline.refresh
  rw [h.same_refreshing]
  cases f.next? with
  | some c => exact (h.refreshing _).ask caller c
  | none => exact (h.refreshing _).finish caller (legible_ok _)

theorem Mirrors.hand (h : t.Mirrors t') (caller : Nat) {o : Outcome} (ho : Holarchy.Legible o) :
    (t.hand caller o).Mirrors (t'.hand caller o) := by
  unfold Timeline.hand
  rw [h.same_refreshing]
  cases t.refreshing.lookup caller with
  | none => exact h.finish caller ho
  | some f =>
    cases o with
    | ok landed => exact h.refresh caller _
    | error e => exact (h.refreshing _).finish caller fun e' he => ho e' (congrArg Except.error (Except.error.inj he))

theorem Mirrors.handEach (h : t.Mirrors t') {ended : List (Nat × Outcome)}
    (hended : ∀ o ∈ ended, Holarchy.Legible o.2) :
    (ended.foldl (fun t e => t.hand e.1 e.2) t).Mirrors (ended.foldl (fun t e => t.hand e.1 e.2) t') := by
  induction ended generalizing t t' with
  | nil => exact h
  | cons o ended ih =>
    exact ih (h.hand o.1 (hended o List.mem_cons_self)) fun o ho => hended o (List.mem_cons_of_mem _ ho)

theorem Mirrors.handAll (h : t.Mirrors t') : t.handAll.Mirrors t'.handAll := by
  unfold Timeline.handAll
  rw [h.same_lane]
  have hnone : Lane.Legible { t.lane with ended := [] } := fun _ ho => absurd ho List.not_mem_nil
  exact ((h.lane hnone).wait none).handEach h.legible

theorem Mirrors.reply (h : t.Mirrors t') (caller : Nat) (q : DanceRequest) :
    (t.reply caller q).Mirrors (t'.reply caller q) := by
  obtain ⟨t, server, hlane, hresults⟩ := h
  simp only [Timeline.reply, Remote.answer_encoded]
  have hanswered := hlane.reply caller (server.handle q t.ids).1.1
  exact (Mirrors.mk { t with lane := _, ids := (server.handle q t.ids).2 } (server.handle q t.ids).1.2 hanswered
    hresults).handAll

theorem Mirrors.send (h : t.Mirrors t') (caller : Nat) (f : Flight) :
    (t.send caller f).Mirrors (t'.send caller f) := by
  obtain ⟨t, server, hlane, hresults⟩ := h
  have hreceived := Mirrors.mk t (server.receive f.request) hlane hresults
  obtain ⟨delay, hdirect, hencoded⟩ := Remote.same_delay (server.receive f.request)
  simp only [Timeline.send, Remote.receive_direct, Remote.receive_encoded, hdirect, hencoded]
  by_cases hdelay : delay = 0
  · simp only [hdelay, if_true]
    exact hreceived.reply caller f.request
  · simp only [hdelay, if_false]
    by_cases hlimit : t.lane.client.config.timeout.toNat < delay
    · simp only [hlimit, if_true]
      exact hreceived.wait _
    · simp only [hlimit, if_false]
      exact hreceived.wait _

theorem Mirrors.launch (more : Nat) (h : t.Mirrors t') : (t.launch more).Mirrors (t'.launch more) := by
  induction more generalizing t t' with
  | zero => exact h
  | succ more ih =>
    unfold Timeline.launch
    rw [h.same_lane]
    split
    · rename_i caller call _ _ _
      have hmoves : ∀ caller' e, .reply caller' (.error e) ∉ [Move.enter caller, .launch caller] := by simp
      have hlaunched := h.lane (h.legible.run hmoves)
      cases hf : (t.lane.run [.enter caller, .launch caller]).flight? caller with
      | some f => simp only [hf]; exact ih (hlaunched.send caller f)
      | none => simp only [hf]; exact ih hlaunched.handAll
    · exact h

theorem Mirrors.proceed (h : t.Mirrors t') : t.proceed.Mirrors t'.proceed := by
  unfold Timeline.proceed
  rw [h.same_pending]
  exact h.launch _

theorem Mirrors.conclude (h : t.Mirrors t') (w : Wait) : (t.conclude w).Mirrors (t'.conclude w) := by
  unfold Timeline.conclude
  split
  · exact ((h.now w.ends).move (m := .expire w.caller) nofun).handAll
  · exact (h.now w.ends).reply w.caller w.request

theorem Mirrors.pass (moment : Option Nat) (more : Nat) (h : t.Mirrors t') :
    (t.pass moment more).Mirrors (t'.pass moment more) := by
  induction more generalizing t t' with
  | zero => exact h
  | succ more ih =>
    unfold Timeline.pass
    rw [h.same_wait]
    split
    · exact h
    · split
      · exact ih (h.conclude _).proceed
      · exact h

theorem Mirrors.advance (h : t.Mirrors t') (moment : Option Nat) : (t.advance moment).Mirrors (t'.advance moment) := by
  unfold Timeline.advance
  rw [h.same_pending]
  exact h.pass moment _

theorem Mirrors.interrupt (h : t.Mirrors t') (i : Interruption) :
    (t'.interrupt i).1 = (t.interrupt i).1 ∧ (t.interrupt i).2.Mirrors (t'.interrupt i).2 := by
  cases i with
  | cancel => exact ⟨congrArg (fun l : Lane => l.client.cancelInFlight.1) h.same_lane, h.move nofun⟩
  | drop =>
    simp only [Timeline.interrupt, h.same_lane]
    exact ⟨trivial, (h.lane (h.legible.run (by simp))).wait none⟩

theorem Mirrors.interruptAll (h : t.Mirrors t') (is : List (Nat × Interruption)) :
    (t'.interruptAll is).1 = (t.interruptAll is).1 ∧ (t.interruptAll is).2.Mirrors (t'.interruptAll is).2 := by
  induction is generalizing t t' with
  | nil => exact ⟨rfl, h.advance none⟩
  | cons i is ih =>
    obtain ⟨hseq, hnext⟩ := (h.advance (some i.1)).interrupt i.2
    obtain ⟨hlater, hend⟩ := ih hnext
    simp only [Timeline.interruptAll, hseq, hlater]
    exact ⟨trivial, hend⟩

end Timeline

/-- Something that is done with a client by somebody who does not see the way to the server. -/
inductive Deed (ρ : Type) where
  /-- Looks at the client and the server, and changes them. -/
  | act (f : Client → Option Server → ρ × Client × (Server → Server))
  | call (c : Call)
  | refresh (f : Option FetchedHolons)

def Deed.errand {ρ : Type} : Deed ρ → Errand ρ
  | .act f => .act fun c remote =>
    let (seen, c, change) := f c remote.server?
    (seen, c, remote.mapServer change)
  | .call c => .call c
  | .refresh f => .refresh f

namespace Timeline

variable {ρ : Type} {t t' : Timeline ρ}

theorem Mirrors.begin (h : t.Mirrors t') (caller : Nat) (d : Deed ρ) :
    (t.begin caller d.errand).Mirrors (t'.begin caller d.errand) := by
  cases d with
  | act f =>
    obtain ⟨t, server, hlane, hresults⟩ := h
    have hacted := Mirrors.mk { t with lane := { t.lane with client := (f t.lane.client (some server)).2.1 } }
      ((f t.lane.client (some server)).2.2 server) hlane hresults
    exact hacted.finish caller (r := .acted (f t.lane.client (some server)).1) trivial
  | call c => exact (h.ask caller c).proceed
  | refresh f =>
    simp only [Deed.errand, Timeline.begin, h.same_fetched]
    exact (h.refresh caller _).proceed

theorem Mirrors.beginAll (h : t.Mirrors t') (caller : Nat) (ds : List (Deed ρ)) :
    (t.beginAll caller (ds.map Deed.errand)).Mirrors (t'.beginAll caller (ds.map Deed.errand)) := by
  induction ds generalizing t t' caller with
  | nil => exact h
  | cons d ds ih => exact ih (h.begin caller d) (caller + 1)

theorem mirrors_start (c : Client) (server : Server) (ids : IdSource) (fetched : FetchedHolons) :
    Mirrors (.start ⟨c, .direct server, ids⟩ fetched : Timeline ρ) (.start ⟨c, .encoded server, ids⟩ fetched) :=
  .mk (.start ⟨c, .direct server, ids⟩ fetched) server (fun _ ho => absurd ho List.not_mem_nil)
    fun _ hr => absurd hr List.not_mem_nil

end Timeline

/-- Two gatherings that differ in the way to the server only, and neither of which has met a text that could not be
read.  The client holds the session with its state and its events, and the list of what was committed; the server holds
the store and the requests that it has received. -/
structure Gathering.Mirrors {ρ : Type} (g g' : Gathering ρ) : Prop where
  results : g'.results = g.results
  cancelled : g'.cancelled = g.cancelled
  fetched : g'.fetched = g.fetched
  client : g'.connection.client = g.connection.client
  ids : g'.connection.ids = g.connection.ids
  server : ∃ server, g.connection.remote = .direct server ∧ g'.connection.remote = .encoded server
  legible : ∀ result, some result ∈ g'.results → result.Legible

/-- Deeds that start together, and what interrupts them at which times. -/
structure Round (ρ : Type) where
  deeds : List (Deed ρ)
  interruptions : List (Nat × Interruption)

namespace Connection

variable {ρ : Type}

/-- Rounds one after the other, each over the connection that the one before leaves. -/
def rounds (k : Connection) (fetched : FetchedHolons) : List (Round ρ) → List (Gathering ρ)
  | [] => []
  | r :: rs =>
    let g := k.runTogether fetched (r.deeds.map Deed.errand) r.interruptions
    g :: g.connection.rounds g.fetched rs

theorem mirrors_runTogether (c : Client) (server : Server) (ids : IdSource) (fetched : FetchedHolons)
    (r : Round ρ) :
    Gathering.Mirrors ((⟨c, .direct server, ids⟩ : Connection).runTogether fetched (r.deeds.map Deed.errand)
        r.interruptions)
      ((⟨c, .encoded server, ids⟩ : Connection).runTogether fetched (r.deeds.map Deed.errand) r.interruptions) := by
  have hbegun := (Timeline.mirrors_start c server ids fetched).beginAll 0 r.deeds
  obtain ⟨hcancelled, hended⟩ := hbegun.interruptAll r.interruptions
  have hresults (n : Nat) := congrArg (fun results => results.lookup n) hended.same_results
  refine ⟨List.map_congr_left fun n _ => hresults n, hcancelled, hended.same_fetched,
    congrArg Lane.client hended.same_lane, hended.same_ids, ?_, fun result hresult => ?_⟩
  · exact hended.reached
  · obtain ⟨n, -, hn⟩ := List.mem_map.1 hresult
    exact hended.legible_results (n, result) (hended.same_results ▸ Lane.mem_of_lookup hn)

/-- Each round starts from connections that differ in the way to the server only, since the round before ended so. -/
theorem mirrors_rounds (c : Client) (server : Server) (ids : IdSource) (fetched : FetchedHolons)
    (rs : List (Round ρ)) :
    let typed := (⟨c, .direct server, ids⟩ : Connection).rounds fetched rs
    let texts := (⟨c, .encoded server, ids⟩ : Connection).rounds fetched rs
    texts.length = typed.length ∧ ∀ pair ∈ typed.zip texts, pair.1.Mirrors pair.2 := by
  induction rs generalizing c server ids fetched with
  | nil => exact ⟨rfl, fun _ hpair => absurd hpair List.not_mem_nil⟩
  | cons r rs ih =>
    have hround := mirrors_runTogether c server ids fetched r
    simp only [rounds]
    generalize (⟨c, .direct server, ids⟩ : Connection).runTogether fetched _ _ = g at hround ⊢
    generalize (⟨c, .encoded server, ids⟩ : Connection).runTogether fetched _ _ = g' at hround ⊢
    obtain ⟨results, cancelled, ⟨client, remote, ids⟩, fetched⟩ := g
    obtain ⟨results', cancelled', ⟨client', remote', ids'⟩, fetched'⟩ := g'
    obtain ⟨server, hdirect, hencoded⟩ := hround.server
    obtain rfl : fetched' = fetched := hround.fetched
    obtain rfl : client' = client := hround.client
    obtain rfl : ids' = ids := hround.ids
    obtain rfl : remote = .direct server := hdirect
    obtain rfl : remote' = .encoded server := hencoded
    obtain ⟨hlength, hpairs⟩ := ih client' server ids' fetched'
    refine ⟨congrArg Nat.succ hlength, fun pair hpair => ?_⟩
    rcases List.mem_cons.1 hpair with rfl | hpair
    · exact hround
    · exact hpairs pair hpair

end Connection

/-- **Texts are transparent.**  Whatever is done with a client, in rounds of calls that may overlap and be interrupted,
over whatever server and with whatever ids: a client whose requests and answers go through texts comes to the same
results as one that reaches the server directly, has the same session and the same list of what was committed after
every round, and leaves the server with the same store and the same requests; and no text is met that cannot be read.
One exchange of texts is one request that is received and handled, and its answer is read back as it was given. -/
theorem texts_are_transparent {ρ : Type} (c : Client) (server : Server) (ids : IdSource) (fetched : FetchedHolons)
    (rounds : List (Round ρ)) :
    let typed := (⟨c, .direct server, ids⟩ : Connection).rounds fetched rounds
    let texts := (⟨c, .encoded server, ids⟩ : Connection).rounds fetched rounds
    (texts.length = typed.length ∧ ∀ pair ∈ typed.zip texts, pair.1.Mirrors pair.2) ∧
      ∀ q : DanceRequest,
        let answered := (server.receive q).handle q ids
        server.exchange (Wire.encodeRequest q) ids =
            .ok ((Wire.encodeResponse answered.1.1, answered.1.2), answered.2) ∧
          Remote.decoded (Wire.encodeResponse answered.1.1) = .ok answered.1.1 := by
  refine ⟨Connection.mirrors_rounds c server ids fetched rounds, fun q => ⟨?_, ?_⟩⟩
  · simp only [Server.exchange, Wire.decodeRequest_encodeRequest]
  · simp only [Remote.decoded, Wire.decodeResponse_encodeResponse]

end Holarchy
