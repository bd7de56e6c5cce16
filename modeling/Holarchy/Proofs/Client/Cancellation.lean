import Holarchy.Proofs.Client.Chain
/-!
# Cancellation

Cancelling uses a number up, and so the call that holds the guard is no longer the latest: its reply is thrown away when
it comes.  The number that a cancellation gives is the latest one as it finds it.  That is the number of the call that
holds the guard only if this call has one and was not cancelled before; `Counts` keeps account of how far they differ.
-/
namespace Holarchy

/-- The number of a call that holds the guard, once it has one. -/
def Progress.seq? : Progress → Option UInt64
  | .ready _ => none
  | .flying f => some f.seq

def Move.isCancel : Move → Bool
  | .cancel => true
  | _ => false

theorem seq_add_ofNat_eq_iff (seq : UInt64) (n : Nat) : seq + .ofNat n = seq ↔ n % UInt64.size = 0 := by
  rw [UInt64.add_eq_left, ← UInt64.toNat_inj, UInt64.toNat_ofNat']
  rfl

namespace Session

theorem cancelInFlight_of_held {s : Session} (h : s.held = true) :
    s.cancelInFlight = (some s.issued, { s with issued := s.issued + 1 }) := by
  unfold cancelInFlight
  rw [if_pos h]

/-- **A reply to a call that is not the latest is thrown away**, and so is one that its own caller cancels. -/
theorem land_of_stale (s : Session) {f : Flight}
    (h : s.isCurrent f.seq = false ∨ s.held = true ∧ f.call.cancels = true) (reply : Except CallError DanceResponse) :
    ∃ e, (s.land f reply).1 = .error e := by
  unfold land
  rcases s.examine_cases f reply with ⟨e, s1, hexamine, -⟩ | ⟨response, r, rfl, hr, hexamine⟩
  · rw [hexamine]
    exact ⟨e, rfl⟩
  · rw [hexamine]
    have hcurrent : s.isCurrent f.seq = true := by
      cases hc : s.isCurrent f.seq with
      | true => rfl
      | false => simp [examine, hc] at hexamine
    rcases h with hstale | ⟨hheld, hcancels⟩
    · rw [hcurrent] at hstale
      cases hstale
    · -- The caller uses a number up between the check and the swap.
      have hissued : s.issued = f.seq := of_decide_eq_true hcurrent
      have hstale : ({ s with issued := s.issued + 1 } : Session).isCurrent f.seq = false := by
        refine decide_eq_false fun heq => ?_
        have hone : f.seq + 1 = f.seq := hissued ▸ heq
        cases UInt64.add_eq_left.1 hone
      simp only [settle]
      cases f.call.extract r with
      | none => exact ⟨_, rfl⟩
      | some answer =>
        simp only [hcancels, if_true, cancelInFlight_of_held hheld, install, hstale]
        exact ⟨_, rfl⟩

end Session

namespace Lane

/-- The count after a move of how many cancellations there have been since a request last went out. -/
def recount (l : Lane) (n : Nat) (m : Move) : Nat :=
  if l.sent.length < (l.step m).sent.length then 0 else if m.isCancel then n + 1 else n

/-- How many cancellations there have been, after some moves, since a request last went out. -/
def cancellations (l : Lane) (n : Nat) : List Move → Nat
  | [] => n
  | m :: ms => (l.step m).cancellations (l.recount n m) ms

/-- The latest number is so much after that of a call on its way. -/
def Counts (l : Lane) (n : Nat) : Prop :=
  ∀ caller f, (caller, .flying f) ∈ l.inside → l.client.session.issued = f.seq + .ofNat n

theorem counts_of_quiet {l l' : Lane} {n : Nat} (h : l.Counts n)
    (hin : ∀ caller f, (caller, .flying f) ∈ l'.inside → (caller, .flying f) ∈ l.inside)
    (hissued : l'.client.session.issued = l.client.session.issued) : l'.Counts n := by
  intro caller f hf
  rw [hissued]
  exact h caller f (hin caller f hf)

theorem counts_of_empty {l : Lane} (h : l.inside = []) (n : Nat) : l.Counts n := by
  intro caller f hf
  rw [h] at hf
  cases hf

theorem recount_of_unsent {l : Lane} {m : Move} (h : (l.step m).sent = l.sent) (n : Nat) :
    l.recount n m = if m.isCancel then n + 1 else n := by
  unfold recount
  rw [h, if_neg (Nat.lt_irrefl _)]

theorem Counts.cancel {l : Lane} {n : Nat} (hguarded : l.Guarded) (h : l.Counts n) :
    (l.step .cancel).Counts (n + 1) := by
  intro caller f hf
  have hin : (caller, .flying f) ∈ l.inside := hf
  have hheld : l.client.session.held = true := by
    rw [hguarded.held]
    cases hl : l.inside with
    | nil => rw [hl] at hin; cases hin
    | cons e es => rfl
  have hissued : (l.step .cancel).client.session.issued = l.client.session.issued + 1 := by
    show l.client.session.cancelInFlight.2.issued = _
    rw [Session.cancelInFlight_of_held hheld]
  rw [hissued, h caller f hin, UInt64.ofNat_add, UInt64.add_assoc]
  rfl

theorem Counts.launch {l : Lane} {n : Nat} (hguarded : l.Guarded) (h : l.Counts n) (caller : Nat) :
    (l.step (.launch caller)).Counts (l.recount n (.launch caller)) := by
  cases hlookup : l.inside.lookup caller with
  | none =>
    have hsame : l.step (.launch caller) = l := by simp only [step, hlookup]
    rw [recount_of_unsent (by rw [hsame]), hsame]
    exact h
  | some p =>
    have hothers := hguarded.others_eq_nil hlookup
    cases p with
    | flying f =>
      have hsame : l.step (.launch caller) = l := by simp only [step, hlookup]
      rw [recount_of_unsent (by rw [hsame]), hsame]
      exact h
    | ready call =>
      cases hbuild : call.build l.client.session.space l.client.session.state with
      | error e =>
        refine counts_of_empty ?_ _
        simp only [step, hlookup, Client.launch, Session.launch, hbuild, conclude]
        exact hothers
      | ok request =>
        have hsent : (l.step (.launch caller)).sent = l.sent ++ [request] := by
          simp only [step, hlookup, Client.launch, Session.launch, hbuild, Session.nextSeq]
        have hcount : l.recount n (.launch caller) = 0 := by
          unfold recount
          rw [hsent, List.length_append, List.length_singleton, if_pos (Nat.lt_succ_self _)]
        rw [hcount]
        intro other f hf
        simp only [step, hlookup, Client.launch, Session.launch, hbuild, Session.nextSeq, hothers,
          List.mem_singleton, Prod.mk.injEq, Progress.flying.injEq] at hf ⊢
        rw [hf.2]
        exact (UInt64.add_zero _).symm

/-- **Every move keeps the account.** -/
theorem Counts.step {l : Lane} {n : Nat} (hguarded : l.Guarded) (h : l.Counts n) (m : Move) :
    (l.step m).Counts (l.recount n m) := by
  by_cases hcancel : m = .cancel
  · subst hcancel
    rw [recount_of_unsent rfl]
    exact h.cancel hguarded
  by_cases hlaunch : ∃ caller, m = .launch caller
  · obtain ⟨caller, rfl⟩ := hlaunch
    exact h.launch hguarded caller
  -- No other move takes a number, and none but these two leaves a new call on its way.
  have hnot : m.isCancel = false := by cases m <;> first | rfl | exact absurd rfl hcancel
  have hstep := l.happens_step m
  have hcount : (l.step m).sent = l.sent → l.recount n m = n := fun hsent => by
    rw [recount_of_unsent hsent, hnot]; rfl
  generalize l.recount n m = n' at hcount ⊢
  generalize l.step m = l' at hstep hcount ⊢
  cases hstep with
  | nothing | asked | withdrawn =>
    rw [hcount rfl]
    exact counts_of_quiet h (fun _ _ hf => hf) rfl
  | entered =>
    rw [hcount rfl]
    refine counts_of_quiet h (fun caller f hf => ?_) rfl
    rcases List.mem_append.1 hf with hf | hf
    · exact hf
    · cases List.mem_singleton.1 hf
  | refused | launched => exact absurd ⟨_, rfl⟩ hlaunch
  | failed hf => exact counts_of_empty (hguarded.others_eq_nil (lookup_of_flight? hf)) _
  | landed hf => exact counts_of_empty (hguarded.others_eq_nil (lookup_of_flight? hf)) _
  | left hlookup => exact counts_of_empty (hguarded.others_eq_nil hlookup) _
  | cancelled => exact absurd rfl hcancel

theorem Counts.run {l : Lane} {n : Nat} (hguarded : l.Guarded) (h : l.Counts n) (ms : List Move) :
    (l.run ms).Counts (l.cancellations n ms) := by
  induction ms generalizing l n with
  | nil => exact h
  | cons m ms ih => exact ih (hguarded.step m) (h.step hguarded m)

theorem Guarded.eq_singleton_of_mem {l : Lane} (h : l.Guarded) {e : Nat × Progress} (hin : e ∈ l.inside) :
    l.inside = [e] := by
  have halone := h.alone
  cases hl : l.inside with
  | nil => rw [hl] at hin; cases hin
  | cons e' es =>
    rw [hl] at hin halone
    obtain rfl : es = [] := List.eq_nil_of_length_eq_zero (Nat.le_zero.1 (Nat.le_of_succ_le_succ halone))
    rw [List.mem_singleton.1 hin]

theorem Guarded.held_of_mem {l : Lane} (h : l.Guarded) {e : Nat × Progress} (hin : e ∈ l.inside) :
    l.client.session.held = true := by
  rw [h.held, h.eq_singleton_of_mem hin]
  rfl

/-- The caller's own call is not the latest any more, or will not be when it looks at the reply. -/
def Orphaned (l : Lane) (f : Flight) : Prop :=
  l.client.session.isCurrent f.seq = false ∨ f.call.cancels = true

theorem Orphaned.ended_reply {l : Lane} {f : Flight} (h : l.Orphaned f) (hheld : l.client.session.held = true)
    {caller : Nat} (hf : l.flight? caller = some f) (reply : Except CallError DanceResponse) :
    ∃ e, (l.step (.reply caller reply)).ended = l.ended ++ [(caller, .error e)] := by
  obtain ⟨e, he⟩ := l.client.session.land_of_stale (h.imp_right fun hc => ⟨hheld, hc⟩) reply
  refine ⟨e, ?_⟩
  rw [Lane.ended_reply hf, Client.outcome_land, he]

/-- Along some moves the call of a caller changes nothing and comes to no result: it waits on, it fails, or its caller
gives it up. -/
def ComesToNothing (l : Lane) (caller : Nat) : List Move → Prop
  | [] => True
  | m :: ms =>
    l.client.Keeps (l.step m).client ∧
      ((l.step m).inside = l.inside ∧ (l.step m).ended = l.ended ∧ (l.step m).ComesToNothing caller ms ∨
        (l.step m).inside = [] ∧ (∃ e, (l.step m).ended = l.ended ++ [(caller, .error e)]) ∨
        (l.step m).inside = [] ∧ (l.step m).ended = l.ended ∧ m = .drop caller)

theorem Orphaned.step {l : Lane} (hguarded : l.Guarded) {caller : Nat} {f : Flight}
    (hin : (caller, .flying f) ∈ l.inside) (horphaned : l.Orphaned f) (m : Move) :
    l.client.Keeps (l.step m).client ∧
      ((l.step m).inside = l.inside ∧ (l.step m).ended = l.ended ∨
        (l.step m).inside = [] ∧ (∃ e, (l.step m).ended = l.ended ++ [(caller, .error e)]) ∨
        (l.step m).inside = [] ∧ (l.step m).ended = l.ended ∧ m = .drop caller) := by
  have hsole := hguarded.eq_singleton_of_mem hin
  have hheld := hguarded.held_of_mem hin
  have hown {other : Nat} {p : Progress} (hlookup : l.inside.lookup other = some p) :
      other = caller ∧ p = .flying f := by
    have hmem := mem_of_lookup hlookup
    rw [hsole, List.mem_singleton] at hmem
    cases hmem
    exact ⟨rfl, rfl⟩
  have hstep := l.happens_step m
  generalize hl' : l.step m = l' at hstep ⊢
  cases hstep with
  | nothing | asked | withdrawn => exact ⟨.refl _, .inl ⟨rfl, rfl⟩⟩
  | entered hfree => rw [hheld] at hfree; cases hfree
  | refused hlookup => cases (hown hlookup).2
  | launched hlookup => cases (hown hlookup).2
  | failed hf _ hkeeps =>
    obtain ⟨rfl, -⟩ := hown (lookup_of_flight? hf)
    exact ⟨hkeeps, .inr (.inl ⟨hguarded.others_eq_nil (lookup_of_flight? hf), _, rfl⟩)⟩
  | landed hf =>
    -- The reply to an orphaned call does not land.
    obtain ⟨rfl, hp⟩ := hown (lookup_of_flight? hf)
    cases hp
    obtain ⟨e, he⟩ := horphaned.ended_reply hheld hf _
    rw [hl'] at he
    simp [conclude] at he
  | left hlookup =>
    obtain ⟨rfl, -⟩ := hown hlookup
    exact ⟨l.client.keeps_forget, .inr (.inr ⟨hguarded.others_eq_nil hlookup, rfl, rfl⟩)⟩
  | cancelled => exact ⟨l.client.keeps_cancelInFlight, .inl ⟨rfl, rfl⟩⟩

theorem recount_le (l : Lane) (n : Nat) (m : Move) : l.recount n m ≤ n + if m.isCancel then 1 else 0 := by
  unfold recount
  split
  · exact Nat.zero_le _
  · split <;> exact Nat.le_refl _

/-- While a call waits on, no other request goes out, so no cancellation of it is forgotten. -/
theorem le_recount {l : Lane} (hguarded : l.Guarded) {caller : Nat} {f : Flight}
    (hin : (caller, .flying f) ∈ l.inside) (n : Nat) (m : Move) : n ≤ l.recount n m := by
  have hsent : (l.step m).sent = l.sent := by
    have hstep := l.happens_step m
    generalize l.step m = l' at hstep ⊢
    cases hstep with
    | launched hlookup =>
      have hmem := mem_of_lookup hlookup
      rw [hguarded.eq_singleton_of_mem hin, List.mem_singleton] at hmem
      cases hmem
    | _ => rfl
  rw [recount_of_unsent hsent]
  split
  · exact Nat.le_succ n
  · exact Nat.le_refl n

theorem Counts.orphaned {l : Lane} {n : Nat} (h : l.Counts n) {caller : Nat} {f : Flight}
    (hin : (caller, .flying f) ∈ l.inside) (hpos : 0 < n) (hroom : n < UInt64.size) : l.Orphaned f := by
  refine .inl (decide_eq_false fun hcurrent => ?_)
  rw [h caller f hin, seq_add_ofNat_eq_iff, Nat.mod_eq_of_lt hroom] at hcurrent
  exact Nat.ne_of_gt hpos hcurrent

/-- **A call that was cancelled comes to nothing**, whatever happens. -/
theorem Counts.comesToNothing {l : Lane} {n : Nat} (hguarded : l.Guarded) (h : l.Counts n) {caller : Nat} {f : Flight}
    (hin : (caller, .flying f) ∈ l.inside) {ms : List Move}
    (hcancelled : f.call.cancels = true ∨ 0 < n ∧ n + ms.countP Move.isCancel < UInt64.size) :
    l.ComesToNothing caller ms := by
  induction ms generalizing l n with
  | nil => trivial
  | cons m ms ih =>
    have horphaned : l.Orphaned f := by
      rcases hcancelled with hcancels | ⟨hpos, hroom⟩
      · exact .inr hcancels
      · exact h.orphaned hin hpos (Nat.lt_of_le_of_lt (Nat.le_add_right _ _) hroom)
    obtain ⟨hkeeps, ⟨hsame, hended⟩ | hgone⟩ := Orphaned.step hguarded hin horphaned m
    · refine ⟨hkeeps, .inl ⟨hsame, hended, ih (hguarded.step m) (h.step hguarded m) (hsame ▸ hin) ?_⟩⟩
      refine hcancelled.imp_right fun ⟨hpos, hroom⟩ => ?_
      have hle := le_recount hguarded hin n m
      have hge := l.recount_le n m
      rw [List.countP_cons] at hroom
      omega
    · exact ⟨hkeeps, .inr hgone⟩

/-- **A cancellation names the call that it orphans, but only the first time.**  However calls overlap and whatever comes
of them: a cancellation gives no number exactly if no call holds the guard.  Otherwise it gives the number of the call
that holds the guard if and only if that call has its number and was not cancelled since it got it, up to the size of
the counter.  Named or not, a call on its way that is cancelled changes nothing and comes to no result, and neither does
a call whose caller cancels it on looking at the reply. -/
theorem cancel_names_the_call_iff (c : Client) (hfree : c.session.held = false) (ms : List Move) :
    let l := (idle c).run ms
    let n := (idle c).cancellations 0 ms
    (l.client.cancelInFlight.1 = none ↔ l.inside = []) ∧
      (∀ caller p, (caller, p) ∈ l.inside → ∃ seq, l.client.cancelInFlight.1 = some seq ∧
        (p.seq? = some seq ↔ p.seq?.isSome = true ∧ n % UInt64.size = 0)) ∧
      ∀ caller f, (caller, .flying f) ∈ l.inside → ∀ more : List Move,
        (n + 1 + more.countP Move.isCancel < UInt64.size → (l.step .cancel).ComesToNothing caller more) ∧
          (f.call.cancels = true → l.ComesToNothing caller more) := by
  intro l n
  have hguarded : l.Guarded := (guarded_idle hfree).run ms
  have hcounts : l.Counts n := (counts_of_empty rfl 0).run (guarded_idle hfree) ms
  have hgives (hheld : l.client.session.held = true) :
      l.client.cancelInFlight.1 = some l.client.session.issued :=
    congrArg Prod.fst (Session.cancelInFlight_of_held hheld)
  refine ⟨?_, fun caller p hin => ?_, fun caller f hin more => ⟨fun hroom => ?_, fun hcancels => ?_⟩⟩
  · constructor
    · intro hnone
      refine List.eq_nil_iff_forall_not_mem.2 fun e he => ?_
      rw [hgives (hguarded.held_of_mem he)] at hnone
      cases hnone
    · intro hempty
      have hheld : l.client.session.held = false := by rw [hguarded.held, hempty]; rfl
      show l.client.session.cancelInFlight.1 = none
      rw [Session.cancelInFlight, hheld]
      rfl
  · refine ⟨_, hgives (hguarded.held_of_mem hin), ?_⟩
    cases p with
    | ready call => simp [Progress.seq?]
    | flying f =>
      simp only [Progress.seq?, Option.some.injEq, Option.isSome_some, true_and]
      rw [hcounts caller f hin, eq_comm, seq_add_ofNat_eq_iff]
  · have hnext := hcounts.step hguarded .cancel
    rw [recount_of_unsent rfl] at hnext
    exact hnext.comesToNothing (hguarded.step .cancel) hin (.inr ⟨Nat.succ_pos n, hroom⟩)
  · exact hcounts.comesToNothing hguarded hin (.inl hcancels)

/-- A commit that is on its way. -/
def committing : List Move := [.ask 0 (.plain .commit), .enter 0, .launch 0]

/-- The answer to a commit of nothing. -/
def emptyCommit : Except CallError DanceResponse := .ok (.ok ⟨"local"⟩ (.holons []) (.new ⟨1⟩))

/-- A cancellation gives the number of the commit, and the commit comes to nothing. -/
theorem cancel_names_the_call_iff_of_commit :
    ((idle .fresh).run committing).inside.map (fun e => e.2.seq?) = [some 1] ∧
      ((idle .fresh).run committing).client.cancelInFlight.1 = some 1 ∧
      ((idle .fresh).run (committing ++ [.cancel])).ComesToNothing 0 [.reply 0 emptyCommit] := by
  obtain ⟨-, hnames, hfails⟩ := cancel_names_the_call_iff .fresh rfl committing
  obtain ⟨seq, hgives, hiff⟩ := hnames 0 _ List.mem_cons_self
  have hseq := hiff.2 ⟨rfl, rfl⟩
  cases hseq
  exact ⟨rfl, hgives, (hfails 0 _ List.mem_cons_self [.reply 0 emptyCommit]).1 (by decide)⟩

/-- The number that a second cancellation of one commit gives is nobody's.  Of two commits, a cancellation as the second
is given the guard gives the number of the first, which has come to its result, and the second comes to its own. -/
theorem second_cancellation_misnames_the_call :
    let twice := (idle .fresh).run (committing ++ [.cancel])
    let handed := (idle .fresh).run (committing ++ [.ask 1 (.plain .commit), .reply 0 emptyCommit, .enter 1])
    (twice.inside.map (fun e => e.2.seq?) = [some 1] ∧ twice.client.cancelInFlight.1 = some 2 ∧
      ¬ ∀ seq, twice.client.cancelInFlight.1 = some seq → ∀ e ∈ twice.inside, e.2.seq? = some seq) ∧
      handed.inside.map (fun e => e.2.seq?) = [none] ∧ handed.client.cancelInFlight.1 = some 1 ∧
      (handed.run [.cancel, .launch 1, .reply 1 emptyCommit]).ended.map (fun o => (o.1, o.2.isOk)) =
        [(0, true), (1, true)] := by
  refine ⟨⟨rfl, rfl, fun h => ?_⟩, rfl, rfl, by decide +kernel⟩
  have hsame : some (1 : UInt64) = some 2 := h 2 rfl _ List.mem_cons_self
  cases hsame

end Lane

end Holarchy
