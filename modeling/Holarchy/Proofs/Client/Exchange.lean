import Holarchy.Proofs.Client.Chain
import Holarchy.Proofs.Server.Draws
import Holarchy.Proofs.Server.Staging
/-!
# A client and its server

The calls of one client against one server, step by step.  A request waits at the server until it is run there, and then
its answer is back at once; until then the call can have its time or be given up, and the server never runs it.  Somebody
else may change the server at any time.
-/
namespace Holarchy

/-- A client with its calls, the server that they go to, and the source of the ids that this draws. -/
structure Exchange where
  lane : Lane
  server : Server
  ids : IdSource

namespace Exchange

inductive Event where
  | ask (caller : Nat) (call : Call)
  | enter (caller : Nat)
  | launch (caller : Nat)
  | serve (caller : Nat)
  | expire (caller : Nat)
  | drop (caller : Nat)
  | cancel
  | tend (change : Server → Server)

def move (x : Exchange) (m : Move) : Exchange := { x with lane := x.lane.step m }

/-- Requests that have gone out since the lane was in an earlier state, noted by the server. -/
def note (x : Exchange) (earlier : Lane) : Exchange :=
  { x with server := (x.lane.sent.drop earlier.sent.length).foldl Server.receive x.server }

def step (x : Exchange) : Event → Exchange
  | .ask caller call => x.move (.ask caller call)
  | .enter caller => x.move (.enter caller)
  | .launch caller => (x.move (.launch caller)).note x.lane
  | .serve caller =>
    match x.lane.flight? caller with
    | none => x
    | some f =>
      let ((response, server), ids) := x.server.handle f.request x.ids
      ⟨x.lane.step (.reply caller (.ok response)), server, ids⟩
  | .expire caller => x.move (.expire caller)
  | .drop caller => x.move (.drop caller)
  | .cancel => x.move .cancel
  | .tend change => { x with server := change x.server }

def run (x : Exchange) (es : List Event) : Exchange := es.foldl step x

theorem run_cons (x : Exchange) (e : Event) (es : List Event) : x.run (e :: es) = (x.step e).run es := rfl

theorem run_append (x : Exchange) (es more : List Event) : x.run (es ++ more) = (x.run es).run more :=
  List.foldl_append

def state (x : Exchange) : SessionState := x.lane.client.state

theorem reaches_step (x : Exchange) (e : Event) : x.ids.Reaches (x.step e).ids := by
  cases e with
  | serve caller =>
    simp only [step]
    split
    · exact .refl _
    · exact x.server.reaches_handle _ _
  | _ => exact .refl _

theorem reaches_run (x : Exchange) (es : List Event) : x.ids.Reaches (x.run es).ids := by
  induction es generalizing x with
  | nil => exact .refl _
  | cons e es ih => exact (x.reaches_step e).trans (ih (x.step e))

end Exchange

def Progress.call : Progress → Call
  | .ready call => call
  | .flying f => f.call

namespace Lane

def calls (l : Lane) : List (Nat × Call) := l.queue ++ l.inside.map fun e => (e.1, e.2.call)

theorem mem_calls {l : Lane} {q : Nat × Call} :
    q ∈ l.calls ↔ q ∈ l.queue ∨ ∃ p, (q.1, p) ∈ l.inside ∧ p.call = q.2 := by
  obtain ⟨caller, call⟩ := q
  simp only [calls, List.mem_append, List.mem_map, Prod.mk.injEq, Prod.exists]
  refine or_congr_right ⟨?_, ?_⟩
  · rintro ⟨_, p, hp, rfl, rfl⟩
    exact ⟨p, hp, rfl⟩
  · rintro ⟨p, hp, rfl⟩
    exact ⟨caller, p, hp, rfl, rfl⟩

theorem mem_inside_of_mem_others {l : Lane} {caller : Nat} {e : Nat × Progress} (h : e ∈ l.others caller) :
    e ∈ l.inside := (List.mem_filter.1 h).1

/-- **Calls come from nowhere but their callers.** -/
theorem mem_calls_step {l : Lane} {m : Move} {q : Nat × Call} (h : q ∈ (l.step m).calls) :
    q ∈ l.calls ∨ m = .ask q.1 q.2 := by
  have hstep := l.happens_step m
  generalize l.step m = l' at hstep h
  have hothers {caller : Nat} {p : Progress} (hp : (q.1, p) ∈ l.others caller) (hcall : p.call = q.2) : q ∈ l.calls :=
    mem_calls.2 (.inr ⟨p, mem_inside_of_mem_others hp, hcall⟩)
  rw [mem_calls] at h
  cases hstep with
  | nothing | cancelled => exact .inl (mem_calls.2 h)
  | asked caller call =>
    rcases h with h | h
    · rcases List.mem_append.1 h with h | h
      · exact .inl (mem_calls.2 (.inl h))
      · rw [List.mem_singleton.1 h]
        exact .inr rfl
    · exact .inl (mem_calls.2 (.inr h))
  | entered _ hmem =>
    rcases h with h | ⟨p, hp, hcall⟩
    · exact .inl (mem_calls.2 (.inl (List.mem_of_mem_eraseP h)))
    · rcases List.mem_append.1 hp with hp | hp
      · exact .inl (mem_calls.2 (.inr ⟨p, hp, hcall⟩))
      · obtain ⟨caller, call⟩ := q
        cases List.mem_singleton.1 hp
        cases hcall
        exact .inl (mem_calls.2 (.inl hmem))
  | launched hlookup hcall =>
    rcases h with h | ⟨p, hp, hp'⟩
    · exact .inl (mem_calls.2 (.inl h))
    · rcases List.mem_cons.1 hp with hp | hp
      · obtain ⟨caller, call⟩ := q
        cases hp
        exact .inl (mem_calls.2 (.inr ⟨_, mem_of_lookup hlookup, hcall.symm.trans hp'⟩))
      · exact .inl (hothers hp hp')
  | refused | failed | landed | left =>
    rcases h with h | ⟨p, hp, hcall⟩
    · exact .inl (mem_calls.2 (.inl h))
    · exact .inl (hothers hp hcall)
  | withdrawn =>
    rcases h with h | h
    · exact .inl (mem_calls.2 (.inl (List.mem_filter.1 h).1))
    · exact .inl (mem_calls.2 (.inr h))

theorem forall_calls_step {l : Lane} {m : Move} {P : Nat × Call → Prop} (h : ∀ q ∈ l.calls, P q)
    (hm : ∀ caller call, m = .ask caller call → P (caller, call)) : ∀ q ∈ (l.step m).calls, P q :=
  fun q hq => (mem_calls_step hq).elim (h q) (hm q.1 q.2)

end Lane

end Holarchy
