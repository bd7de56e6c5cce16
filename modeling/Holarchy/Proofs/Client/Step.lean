import Holarchy.Client.Lane
import Holarchy.Proofs.Call
/-!
# What one move does

`Happens` lists what a move can do to the calls of a client, with what has to hold for it and what it leaves behind.
Every claim about runs is proved from this list, and none of them opens `Lane.step` again.
-/
namespace Holarchy.Lane

/-- What a move does to the calls of a client. -/
inductive Happens (l : Lane) : Move → Lane → Prop where
  /-- The move cannot happen now. -/
  | nothing (m : Move) : Happens l m l
  | asked (caller : Nat) (call : Call) : Happens l (.ask caller call) { l with queue := l.queue ++ [(caller, call)] }
  | entered {caller : Nat} {call : Call} : l.client.session.held = false → (caller, call) ∈ l.queue →
    Happens l (.enter caller)
      { l with
        client := l.client.begin
        queue := l.queue.eraseP fun q => q.1 == caller
        inside := l.inside ++ [(caller, .ready call)] }
  | refused {caller : Nat} {call : Call} {e : Refusal} : l.inside.lookup caller = some (.ready call) →
    call.build l.client.space l.client.state = .error e →
    Happens l (.launch caller) (l.conclude caller (.error (.refused e), l.client.forget))
  | launched {caller : Nat} {call : Call} {f : Flight} {c : Client} : l.inside.lookup caller = some (.ready call) →
    f.call = call → f.before = l.client.state → call.build l.client.space l.client.state = .ok f.request →
    l.client.Keeps c → c.space = l.client.space → c.session.held = l.client.session.held →
    Happens l (.launch caller)
      { l with client := c, inside := (caller, .flying f) :: l.others caller, sent := l.sent ++ [f.request] }
  /-- The flight came to an error. -/
  | failed {caller : Nat} {f : Flight} {m : Move} {e : CallError} {c : Client} : l.flight? caller = some f →
    (m = .expire caller ∨ ∃ reply, m = .reply caller reply) →
    l.client.Keeps c → c.space = l.client.space → c.session.held = false →
    Happens l m (l.conclude caller (.error e, c))
  | landed {caller : Nat} {f : Flight} {response : DanceResponse} {r : Reconciliation} {answer : Answer} {c : Client} :
    l.flight? caller = some f → reconcile f.name f.seq f.before response = .ok r → f.call.extract r = some answer →
    l.client.TakesOver f.call response c → c.space = l.client.space → c.session.held = false →
    Happens l (.reply caller (.ok response)) (l.conclude caller (.ok (r, answer), c))
  | left {caller : Nat} {p : Progress} : l.inside.lookup caller = some p →
    Happens l (.drop caller) { l with client := l.client.forget, inside := l.others caller }
  | withdrawn (caller : Nat) :
    Happens l (.drop caller) { l with queue := l.queue.filter fun q => q.1 != caller }
  | cancelled : Happens l .cancel { l with client := l.client.cancelInFlight.2 }

theorem mem_of_lookup {α : Type} {k : Nat} {a : α} : ∀ {es : List (Nat × α)}, es.lookup k = some a → (k, a) ∈ es
  | [], h => by cases h
  | (j, b) :: es, h => by
    rw [List.lookup_cons] at h
    split at h
    · rename_i hk
      cases h
      rw [eq_of_beq hk]
      exact List.mem_cons_self
    · exact List.mem_cons_of_mem _ (mem_of_lookup h)

theorem lookup_of_flight? {l : Lane} {caller : Nat} {f : Flight} (h : l.flight? caller = some f) :
    l.inside.lookup caller = some (.flying f) := by
  unfold flight? at h
  split at h
  · rename_i g hg
    cases h
    exact hg
  · cases h

theorem mem_inside_of_flight? {l : Lane} {caller : Nat} {f : Flight} (h : l.flight? caller = some f) :
    (caller, .flying f) ∈ l.inside := mem_of_lookup (lookup_of_flight? h)

theorem ended_reply {l : Lane} {caller : Nat} {f : Flight} (hf : l.flight? caller = some f)
    (reply : Except CallError DanceResponse) :
    (l.step (.reply caller reply)).ended = l.ended ++ [(caller, (l.client.land f reply).1)] := by
  simp only [step, hf, conclude]

/-- **The list is complete**: a move does one of these things. -/
theorem happens_step (l : Lane) (m : Move) : l.Happens m (l.step m) := by
  cases m with
  | ask caller call => exact .asked caller call
  | enter caller =>
    simp only [step]
    split
    · rename_i call hheld hlookup
      exact .entered hheld (mem_of_lookup hlookup)
    · exact .nothing _
  | launch caller =>
    simp only [step]
    split
    · rename_i call hlookup
      rcases l.client.launch_cases call with ⟨e, hb, h⟩ | ⟨f, c, h, hcall, hbefore, hb, hkeeps, hspace, hheld⟩
      · rw [h]
        exact .refused hlookup hb
      · rw [h]
        exact .launched hlookup hcall hbefore hb hkeeps hspace hheld
    · exact .nothing _
  | reply caller reply =>
    simp only [step]
    split
    · rename_i f hf
      rcases l.client.land_cases f reply with ⟨e, c, h, hkeeps, hspace, hheld⟩ |
        ⟨response, r, answer, c, rfl, hr, hx, h, htakes, -, hspace, hheld⟩
      · rw [h]
        exact .failed hf (.inr ⟨reply, rfl⟩) hkeeps hspace hheld
      · rw [h]
        exact .landed hf hr hx htakes hspace hheld
    · exact .nothing _
  | expire caller =>
    simp only [step]
    split
    · rename_i f hf
      exact .failed hf (.inl rfl) (l.client.keeps_forget) rfl rfl
    · exact .nothing _
  | drop caller =>
    simp only [step]
    split
    · rename_i p hp
      exact .left hp
    · exact .withdrawn caller
  | cancel => exact .cancelled

@[simp] theorem run_cons (l : Lane) (m : Move) (ms : List Move) : l.run (m :: ms) = (l.step m).run ms := rfl

/-- **Either nothing is taken over or one response is**: the calls that a move ends come to errors, or it lands the one
reply that gives a result. -/
theorem step_cases (l : Lane) (m : Move) :
    (l.client.Keeps (l.step m).client ∧
      ∃ ended, (l.step m).ended = l.ended ++ ended ∧ ∀ o ∈ ended, ∃ e, o.2 = .error e) ∨
    ∃ caller f response r answer, m = .reply caller (.ok response) ∧ l.flight? caller = some f ∧
      reconcile f.name f.seq f.before response = .ok r ∧ f.call.extract r = some answer ∧
      (l.step m).ended = l.ended ++ [(caller, .ok (r, answer))] ∧
      l.client.TakesOver f.call response (l.step m).client := by
  have hstep := l.happens_step m
  generalize l.step m = l' at hstep ⊢
  cases hstep with
  | nothing | asked | withdrawn => exact .inl ⟨.refl _, [], by simp, by simp⟩
  | entered => exact .inl ⟨l.client.keeps_begin, [], by simp, by simp⟩
  | refused => exact .inl ⟨l.client.keeps_forget, _, rfl, by simp⟩
  | launched _ _ _ _ hkeeps => exact .inl ⟨hkeeps, [], by simp, by simp⟩
  | failed _ _ hkeeps => exact .inl ⟨hkeeps, _, rfl, by simp⟩
  | landed hf hr hx htakes => exact .inr ⟨_, _, _, _, _, rfl, hf, hr, hx, rfl, htakes⟩
  | left => exact .inl ⟨l.client.keeps_forget, [], by simp, by simp⟩
  | cancelled => exact .inl ⟨l.client.keeps_cancelInFlight, [], by simp, by simp⟩

end Holarchy.Lane
