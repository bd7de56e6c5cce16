import Holarchy.Proofs.Client.Step
/-!
# Calls that fail leave no trace

A move either ends calls in errors only, and then the client has the state and the persisted holons that it had, or it
lands one reply, and then the response is taken over as it is.  `Alone` follows one call that nobody else gets in the way
of, from the asking to whatever its end is.
-/
namespace Holarchy

def Move.isAsk : Move → Bool
  | .ask .. => true
  | _ => false

namespace Lane

/-- The client before a call has gone out: only cancelling takes numbers. -/
structure Unlaunched (c : Client) (ms : List Move) (client : Client) : Prop where
  keeps : c.Keeps client
  space : client.space = c.space
  issued : Move.cancel ∉ ms → client.session.issued = c.session.issued

/-- The course of one call among moves of which no other is a call. -/
inductive Alone (c : Client) (caller : Nat) (call : Call) (ms : List Move) : Lane → Prop where
  | waiting {client : Client} : Unlaunched c ms client → Alone c caller call ms ⟨client, [(caller, call)], [], [], []⟩
  | ready {client : Client} : Unlaunched c ms client →
    Alone c caller call ms ⟨client, [], [(caller, .ready call)], [], []⟩
  | flying {client : Client} {f : Flight} : c.Keeps client → f.call = call →
    call.build c.space c.state = .ok f.request →
    Alone c caller call ms ⟨client, [], [(caller, .flying f)], [f.request], []⟩
  | unanswered {client : Client} {sent : List DanceRequest} : c.Keeps client →
    (sent = [] ∧ Unlaunched c ms client ∨ ∃ request, call.build c.space c.state = .ok request) →
    Alone c caller call ms ⟨client, [], [], sent, []⟩
  | refused {client : Client} {e : Refusal} : Unlaunched c ms client → call.build c.space c.state = .error e →
    Alone c caller call ms ⟨client, [], [], [], [(caller, .error (.refused e))]⟩
  | failed {client : Client} {request : DanceRequest} {e : CallError} : c.Keeps client →
    call.build c.space c.state = .ok request →
    Alone c caller call ms ⟨client, [], [], [request], [(caller, .error e)]⟩
  | taken {client : Client} {request : DanceRequest} {response : DanceResponse} {r : Reconciliation}
    {answer : Answer} : Move.reply caller (.ok response) ∈ ms → c.TakesOver call response client →
    call.build c.space c.state = .ok request →
    Alone c caller call ms ⟨client, [], [], [request], [(caller, .ok (r, answer))]⟩

variable {c : Client} {caller : Nat} {call : Call} {ms : List Move}

theorem Unlaunched.cancelled {client : Client} (h : Unlaunched c ms client) (hm : Move.cancel ∈ ms) :
    Unlaunched c ms client.cancelInFlight.2 :=
  ⟨h.keeps.trans client.keeps_cancelInFlight, by rw [Client.space_cancelInFlight, h.space],
    fun hnot => absurd hm hnot⟩

theorem eq_of_lookup_singleton {α : Type} {j k : Nat} {a b : α} (h : [(j, a)].lookup k = some b) : k = j ∧ a = b := by
  have := mem_of_lookup h
  rw [List.mem_singleton] at this
  cases this
  exact ⟨rfl, rfl⟩

theorem others_singleton (client : Client) (queue : List (Nat × Call)) (p : Progress) (sent : List DanceRequest)
    (ended : List (Nat × Outcome)) : (Lane.mk client queue [(caller, p)] sent ended).others caller = [] := by
  simp [others]

theorem step_of_empty {client : Client} {sent : List DanceRequest} {ended : List (Nat × Outcome)} {m : Move}
    (hask : m.isAsk = false) :
    (Lane.mk client [] [] sent ended).step m = ⟨client, [], [], sent, ended⟩ ∨
      m = .cancel ∧ (Lane.mk client [] [] sent ended).step m = ⟨client.cancelInFlight.2, [], [], sent, ended⟩ := by
  have hstep := (Lane.mk client [] [] sent ended).happens_step m
  generalize (Lane.mk client [] [] sent ended).step m = l' at hstep ⊢
  cases hstep with
  | nothing => exact .inl rfl
  | asked => cases hask
  | entered _ hmem => cases hmem
  | refused hlookup => cases hlookup
  | launched hlookup => cases hlookup
  | failed hf => cases lookup_of_flight? hf
  | landed hf => cases lookup_of_flight? hf
  | left hlookup => cases hlookup
  | withdrawn => exact .inl rfl
  | cancelled => exact .inr ⟨rfl, rfl⟩

theorem alone_of_waiting {client : Client} (h : Unlaunched c ms client) {m : Move} (hm : m ∈ ms)
    (hask : m.isAsk = false) : Alone c caller call ms ((Lane.mk client [(caller, call)] [] [] []).step m) := by
  have hstep := (Lane.mk client [(caller, call)] [] [] []).happens_step m
  generalize (Lane.mk client [(caller, call)] [] [] []).step m = l' at hstep ⊢
  cases hstep with
  | nothing => exact .waiting h
  | asked => cases hask
  | entered _ hmem =>
    cases List.mem_singleton.1 hmem
    simp only [BEq.rfl, List.eraseP_cons_of_pos, List.nil_append]
    exact .ready ⟨h.keeps.trans client.keeps_begin, h.space, h.issued⟩
  | refused hlookup => cases hlookup
  | launched hlookup => cases hlookup
  | failed hf => cases lookup_of_flight? hf
  | landed hf => cases lookup_of_flight? hf
  | left hlookup => cases hlookup
  | withdrawn other =>
    simp only [List.filter_cons, List.filter_nil]
    split
    · exact .waiting h
    · exact .unanswered h.keeps (.inl ⟨rfl, h⟩)
  | cancelled => exact .waiting (h.cancelled hm)

theorem alone_of_ready {client : Client} (h : Unlaunched c ms client) {m : Move} (hm : m ∈ ms) (hask : m.isAsk = false) :
    Alone c caller call ms ((Lane.mk client [] [(caller, .ready call)] [] []).step m) := by
  have hstep := (Lane.mk client [] [(caller, .ready call)] [] []).happens_step m
  generalize (Lane.mk client [] [(caller, .ready call)] [] []).step m = l' at hstep ⊢
  have hforget : Unlaunched c ms client.forget := ⟨h.keeps.trans client.keeps_forget, h.space, h.issued⟩
  cases hstep with
  | nothing => exact .ready h
  | asked => cases hask
  | entered _ hmem => cases hmem
  | refused hlookup hbuild =>
    obtain ⟨rfl, hp⟩ := eq_of_lookup_singleton hlookup
    cases hp
    rw [h.space, h.keeps.state] at hbuild
    simp only [conclude, others_singleton, List.nil_append]
    exact .refused hforget hbuild
  | launched hlookup hcall _ hbuild hkeeps =>
    obtain ⟨rfl, hp⟩ := eq_of_lookup_singleton hlookup
    cases hp
    rw [h.space, h.keeps.state] at hbuild
    simp only [others_singleton, List.nil_append]
    exact .flying (h.keeps.trans hkeeps) hcall hbuild
  | failed hf => cases (eq_of_lookup_singleton (lookup_of_flight? hf)).2
  | landed hf => cases (eq_of_lookup_singleton (lookup_of_flight? hf)).2
  | left hlookup =>
    obtain ⟨rfl, -⟩ := eq_of_lookup_singleton hlookup
    simp only [others_singleton]
    exact .unanswered hforget.keeps (.inl ⟨rfl, hforget⟩)
  | withdrawn => exact .ready h
  | cancelled => exact .ready (h.cancelled hm)

theorem alone_of_flying {client : Client} {f : Flight} (h : c.Keeps client) (hcall : f.call = call)
    (hbuild : call.build c.space c.state = .ok f.request) {m : Move} (hm : m ∈ ms) (hask : m.isAsk = false) :
    Alone c caller call ms ((Lane.mk client [] [(caller, .flying f)] [f.request] []).step m) := by
  have hstep := (Lane.mk client [] [(caller, .flying f)] [f.request] []).happens_step m
  generalize (Lane.mk client [] [(caller, .flying f)] [f.request] []).step m = l' at hstep ⊢
  cases hstep with
  | nothing => exact .flying h hcall hbuild
  | asked => cases hask
  | entered _ hmem => cases hmem
  | refused hlookup => cases (eq_of_lookup_singleton hlookup).2
  | launched hlookup => cases (eq_of_lookup_singleton hlookup).2
  | failed hf _ hkeeps =>
    obtain ⟨rfl, -⟩ := eq_of_lookup_singleton (lookup_of_flight? hf)
    simp only [conclude, others_singleton, List.nil_append]
    exact .failed (h.trans hkeeps) hbuild
  | landed hf _ _ htakes =>
    obtain ⟨rfl, hp⟩ := eq_of_lookup_singleton (lookup_of_flight? hf)
    cases hp
    rw [hcall] at htakes
    simp only [conclude, others_singleton, List.nil_append]
    exact .taken hm (h.takesOver htakes) hbuild
  | left hlookup =>
    obtain ⟨rfl, -⟩ := eq_of_lookup_singleton hlookup
    simp only [others_singleton]
    exact .unanswered (h.trans client.keeps_forget) (.inr ⟨_, hbuild⟩)
  | withdrawn => exact .flying h hcall hbuild
  | cancelled => exact .flying (h.trans client.keeps_cancelInFlight) hcall hbuild

theorem Alone.step {l : Lane} (h : Alone c caller call ms l) {m : Move} (hm : m ∈ ms) (hask : m.isAsk = false) :
    Alone c caller call ms (l.step m) := by
  have hcancel (client : Client) : client.Keeps client.cancelInFlight.2 := client.keeps_cancelInFlight
  cases h with
  | waiting h => exact alone_of_waiting h hm hask
  | ready h => exact alone_of_ready h hm hask
  | flying h hcall hbuild => exact alone_of_flying h hcall hbuild hm hask
  | unanswered h hsent =>
    rcases step_of_empty hask with heq | ⟨rfl, heq⟩ <;> rw [heq]
    · exact .unanswered h hsent
    · exact .unanswered (h.trans (hcancel _)) (hsent.imp_left fun hs => ⟨hs.1, hs.2.cancelled hm⟩)
  | refused h hbuild =>
    rcases step_of_empty hask with heq | ⟨rfl, heq⟩ <;> rw [heq]
    · exact .refused h hbuild
    · exact .refused (h.cancelled hm) hbuild
  | failed h hbuild =>
    rcases step_of_empty hask with heq | ⟨rfl, heq⟩ <;> rw [heq]
    · exact .failed h hbuild
    · exact .failed (h.trans (hcancel _)) hbuild
  | taken hreply h hbuild =>
    rcases step_of_empty hask with heq | ⟨rfl, heq⟩ <;> rw [heq]
    · exact .taken hreply h hbuild
    · exact .taken hreply (h.keeps (hcancel _)) hbuild

theorem Alone.run {l : Lane} (h : Alone c caller call ms l) (hask : ∀ m ∈ ms, m.isAsk = false) :
    Alone c caller call ms (l.run ms) := by
  have go : ∀ (more : List Move) (l : Lane), (∀ m ∈ more, m ∈ ms) → Alone c caller call ms l →
      Alone c caller call ms (l.run more) := by
    intro more
    induction more with
    | nil => exact fun _ _ h => h
    | cons m more ih =>
      intro l hmem h
      have hm : m ∈ ms := hmem m List.mem_cons_self
      exact ih _ (fun m hm => hmem m (List.mem_cons_of_mem _ hm)) (h.step hm (hask m hm))
  exact go ms l (fun _ hm => hm) h

theorem alone_run (c : Client) (caller : Nat) (call : Call) (hask : ∀ m ∈ ms, m.isAsk = false) :
    Alone c caller call ms ((idle c).run (.ask caller call :: ms)) := by
  have hstart : Alone c caller call ms ((idle c).step (.ask caller call)) :=
    .waiting ⟨.refl c, rfl, fun _ => rfl⟩
  exact hstart.run hask

/-- **A call that fails leaves no trace.**  Whatever a move is and whatever else is under way, the calls that it ends
come to errors and the client keeps its state and its persisted holons; or it lands one response, and then exactly that
is taken over.  A call whose request cannot be made sends nothing and takes no number.  So a call that nobody else gets
in the way of leaves the client as it was unless it comes to a result. -/
theorem failed_calls_leave_no_trace :
    (∀ (l : Lane) (m : Move),
      (l.client.Keeps (l.step m).client ∧
        ∃ ended, (l.step m).ended = l.ended ++ ended ∧ ∀ o ∈ ended, ∃ e, o.2 = .error e) ∨
      ∃ caller f response r answer, m = .reply caller (.ok response) ∧ l.flight? caller = some f ∧
        (l.step m).ended = l.ended ++ [(caller, .ok (r, answer))] ∧
        l.client.TakesOver f.call response (l.step m).client) ∧
    (∀ (l : Lane) (caller : Nat) (call : Call) (e : Refusal), l.inside.lookup caller = some (.ready call) →
      call.build l.client.space l.client.state = .error e →
      let l' := l.step (.launch caller)
      l'.ended = l.ended ++ [(caller, .error (.refused e))] ∧ l'.sent = l.sent ∧
        l'.client.session.issued = l.client.session.issued ∧ l.client.Keeps l'.client) ∧
    (∀ (c : Client) (caller : Nat) (call : Call) (ms : List Move), (∀ m ∈ ms, m.isAsk = false) →
      let l := (idle c).run (.ask caller call :: ms)
      ((c.Keeps l.client ∧ ∀ o ∈ l.ended, ∃ e, o = (caller, .error e)) ∨
        ∃ response r answer, .reply caller (.ok response) ∈ ms ∧ l.ended = [(caller, .ok (r, answer))] ∧
          c.TakesOver call response l.client) ∧
      ∀ e, call.build c.space c.state = .error e →
        l.sent = [] ∧ (∀ o ∈ l.ended, o = (caller, .error (.refused e))) ∧
          (.cancel ∉ ms → l.client.session.issued = c.session.issued)) := by
  refine ⟨fun l m => ?_, fun l caller call e hlookup hbuild => ?_, fun c caller call ms hask => ?_⟩
  · rcases l.step_cases m with h | ⟨caller, f, response, r, answer, hm, hf, -, -, hended, htakes⟩
    · exact .inl h
    · exact .inr ⟨caller, f, response, r, answer, hm, hf, hended, htakes⟩
  · have hlaunch : l.client.launch call = .error (.refused e) := by
      rcases l.client.launch_cases call with ⟨e', hb, h⟩ | ⟨f, c, _, _, _, hb, _⟩
      · rw [hbuild] at hb
        cases hb
        exact h
      · rw [hbuild] at hb
        cases hb
    simp only [step, hlookup, hlaunch]
    exact ⟨rfl, rfl, rfl, l.client.keeps_forget⟩
  · have h := alone_run c caller call hask
    generalize (idle c).run (.ask caller call :: ms) = l at h ⊢
    cases h with
    | waiting h => exact ⟨.inl ⟨h.keeps, by simp⟩, fun e _ => ⟨rfl, by simp, h.issued⟩⟩
    | ready h => exact ⟨.inl ⟨h.keeps, by simp⟩, fun e _ => ⟨rfl, by simp, h.issued⟩⟩
    | flying h _ hbuild => exact ⟨.inl ⟨h, by simp⟩, fun e he => by rw [hbuild] at he; cases he⟩
    | unanswered h hsent =>
      refine ⟨.inl ⟨h, by simp⟩, fun e he => ?_⟩
      rcases hsent with ⟨rfl, hu⟩ | ⟨request, hbuild⟩
      · exact ⟨rfl, by simp, hu.issued⟩
      · rw [hbuild] at he; cases he
    | refused h hbuild =>
      refine ⟨.inl ⟨h.keeps, by simp⟩, fun e he => ?_⟩
      rw [hbuild] at he
      cases he
      exact ⟨rfl, by simp, h.issued⟩
    | failed h hbuild => exact ⟨.inl ⟨h, by simp⟩, fun e he => by rw [hbuild] at he; cases he⟩
    | taken hreply h hbuild =>
      exact ⟨.inr ⟨_, _, _, hreply, rfl, h⟩, fun e he => by rw [hbuild] at he; cases he⟩

/-- A book, and how far its staging has come. -/
def bookAs (state : HolonState) (staged : StagedState) : StagedHolon :=
  ⟨1, state, staged, .required, .ofValues [(keyProperty, .string "book")], ∅, none, []⟩

/-- A client with one staged book. -/
def drafting : Client :=
  let pool := (∅ : Pool).insert (.numbered 1) (bookAs .mutable .forCreate)
  { Client.fresh with session := .start { SessionState.new ⟨1⟩ with stagedHolons := pool } ⟨"local"⟩ 64 }

/-- What its commit is answered with: the book is persisted, and the session is empty. -/
def bookCommitted : DanceResponse :=
  .ok ⟨"local"⟩ (.holons [.staged (bookAs .immutable (.committed (.numbered 1)))]) (.new ⟨1⟩)

def undelivered : List Move :=
  [.ask 0 (.plain .commit), .enter 0, .launch 0, .cancel, .reply 0 (.error (.transport "down"))]

def delivered : List Move := [.ask 0 (.plain .commit), .enter 0, .launch 0, .reply 0 (.ok bookCommitted)]

/-- A commit that names a book of another transaction. -/
def foreignCommit : Call := .plain (.commitOne ⟨⟨2⟩, .numbered 1⟩)

/-- A commit that is not delivered leaves the book staged.  One that is answered empties the pool and adds the book to
the list.  One that is refused at its launch sends nothing and takes no number. -/
theorem failed_calls_leave_no_trace_for_commit :
    drafting.Keeps ((idle drafting).run undelivered).client ∧
    drafting.TakesOver (.plain .commit) bookCommitted ((idle drafting).run delivered).client ∧
    drafting.state.stagedHolons.size = 1 ∧ ((idle drafting).run delivered).client.state = .new ⟨1⟩ ∧
    ((idle drafting).run delivered).client.committed.map (fun h => (h.savedId, h.properties.key?)) =
      [(.numbered 1, some "book")] ∧
    ∃ e, foreignCommit.build drafting.space drafting.state = .error e ∧
      let l := (idle drafting).run [.ask 0 foreignCommit, .enter 0, .launch 0]
      l.ended = [(0, .error (.refused e))] ∧ l.sent = [] ∧ l.client.session.issued = drafting.session.issued ∧
        drafting.Keeps l.client := by
  have hkeeps : drafting.Keeps ((idle drafting).run undelivered).client := by
    obtain ⟨h, -⟩ := failed_calls_leave_no_trace.2.2 drafting 0 (.plain .commit) undelivered.tail (by decide)
    rcases h with h | ⟨response, r, answer, hreply, -⟩
    · exact h.1
    · simp [undelivered] at hreply
  have htakes : drafting.TakesOver (.plain .commit) bookCommitted ((idle drafting).run delivered).client := by
    obtain ⟨h, -⟩ := failed_calls_leave_no_trace.2.2 drafting 0 (.plain .commit) delivered.tail (by decide)
    rcases h with h | ⟨response, r, answer, hreply, -, h⟩
    · obtain ⟨e, he⟩ := h.2 _ List.mem_cons_self
      cases he
    · simp [delivered] at hreply
      rw [hreply] at h
      exact h
  let asked := (idle drafting).run [.ask 0 foreignCommit, .enter 0]
  obtain ⟨hended, hsent, hissued, hrefused⟩ := failed_calls_leave_no_trace.2.1 asked 0 foreignCommit _ rfl rfl
  have hforeign := drafting.keeps_begin.trans hrefused
  have hstate := Option.some.inj htakes.snapshot
  refine ⟨hkeeps, htakes, by decide, hstate.symm, ?_, _, rfl, hended, hsent, hissued, hforeign⟩
  rw [htakes.committed]
  decide +kernel

end Lane

end Holarchy
