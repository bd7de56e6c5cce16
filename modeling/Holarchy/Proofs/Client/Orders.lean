import Holarchy.Proofs.Client.Agreement
import Holarchy.Proofs.Ident
import Holarchy.Proofs.Server.Orders
/-!
# Orders in a run

Whatever the server is asked in a run is an order of some dance, and what it answers is what the order gives.  The ids
that it draws for this should be new: to the session as it is then, or to every session before.  A source of presets
never gives what a key names, so a run from one has new ids if they are new to the states that it comes through.
-/
namespace Holarchy.Exchange

variable {x : Exchange} {log : List SavedHolon} {caller : Nat} {f : Flight} {e : Event}

theorem Agrees.order_of_flight (h : x.Agrees log) (hf : x.lane.flight? caller = some f) {d : Dance}
    (hd : f.call = .typed d) : f.request.order x.server.space = .ok d.order := by
  obtain ⟨-, hbuild⟩ := h.guarded.made (Lane.mem_inside_of_flight? hf)
  rw [hd] at hbuild
  exact Dance.order_of_request hbuild x.server.space

/-- **What an answer of success is**: what the order of the dance gives. -/
theorem Agrees.gives_of_isSuccess (h : x.Agrees log) (hf : x.lane.flight? caller = some f)
    (hok : (x.server.handle f.request x.ids).1.1.status.isSuccess = true) :
    ∃ d served, f.call = .typed d ∧
      x.server.store.Gives x.server.embedProperties x.state x.ids d.order served (x.step (.serve caller)).ids ∧
      (x.server.handle f.request x.ids).1 =
        (.ok x.server.space served.body served.session, { x.server with store := served.store }) := by
  obtain ⟨d, hd, -, hrequest⟩ := h.flight hf
  obtain ⟨order, served, horder, hgives, hhandle⟩ := Server.gives_of_isSuccess hok
  rw [h.order_of_flight hf hd] at horder
  cases horder
  rw [Dance.state_of_request hrequest] at hgives
  have hids : (x.step (.serve caller)).ids = (x.server.handle f.request x.ids).2 := by simp only [Exchange.step, hf]
  exact ⟨d, served, hd, hids ▸ hgives, hhandle⟩

/-- The order of a call that comes to its result as something happens. -/
def order? (x : Exchange) : Event → Option Order
  | .serve caller =>
    match x.lane.flight? caller with
    | some f =>
      match (x.lane.client.land f (.ok (x.server.handle f.request x.ids).1.1)).1 with
      | .ok _ => (f.request.order x.server.space).toOption
      | .error _ => none
    | none => none
  | _ => none

/-- **What a call comes to when its request is run**: it fails and leaves the state alone, or it has what the order of
its dance gives. -/
theorem Agrees.serve_cases (h : x.Agrees log) (hf : x.lane.flight? caller = some f) :
    (x.order? (.serve caller) = none ∧ (x.step (.serve caller)).state = x.state ∧
      ∃ e, (x.step (.serve caller)).lane.ended = x.lane.ended ++ [(caller, .error e)]) ∨
    ∃ d result served, f.call = .typed d ∧ x.order? (.serve caller) = some d.order ∧
      (x.step (.serve caller)).lane.ended = x.lane.ended ++ [(caller, .ok result)] ∧
      Answer.ofDance? d result.1 = some result.2 ∧ result.1.body = served.body ∧
      x.server.store.Gives x.server.embedProperties x.state x.ids d.order served (x.step (.serve caller)).ids ∧
      (x.step (.serve caller)).state = served.session := by
  obtain ⟨server, ids, hstep⟩ := step_serve hf
  have hended := Lane.ended_reply hf (.ok (x.server.handle f.request x.ids).1.1)
  simp only [order?, hf]
  cases hland : (x.lane.client.land f (.ok (x.server.handle f.request x.ids).1.1)).1 with
  | error e =>
    have hnone : x.lane.swap? (.reply caller (.ok (x.server.handle f.request x.ids).1.1)) = none := by
      simp only [Lane.swap?, hf, hland]
    refine .inl ⟨rfl, ?_, e, by rw [hstep, hended, hland]⟩
    rw [hstep]
    exact h.guarded.state_of_swap?_eq_none hnone
  | ok result =>
    have hswap : x.lane.swap? (.reply caller (.ok (x.server.handle f.request x.ids).1.1)) =
        some ⟨caller, f, (x.server.handle f.request x.ids).1.1, result.1, result.2⟩ := by
      simp only [Lane.swap?, hf, hland]
    obtain ⟨hlinks, -⟩ := h.guarded.links_of_swap? hswap
    obtain ⟨d, served, hd, hgives, hhandle⟩ := h.gives_of_isSuccess hf hlinks.success
    have hextracted : f.call.extract result.1 = some result.2 := hlinks.extracted
    rw [hd] at hextracted
    have hbody : result.1.body = served.body := by
      obtain ⟨-, -, -, -, hresult⟩ := reconcile_ok hlinks.reconciled
      exact (congrArg Reconciliation.body hresult).trans (congrArg (fun a => a.1.body) hhandle)
    have hstate : (x.step (.serve caller)).state = served.session := by
      have hsnapshot := hlinks.snapshot
      simp only [hhandle] at hsnapshot
      rw [hstep, hhandle]
      exact (Option.some.inj hsnapshot).symm
    refine .inr ⟨d, result, served, hd, ?_, by rw [hstep, hended, hland], hextracted, hbody, hgives, hstate⟩
    rw [h.order_of_flight hf hd]
    rfl

theorem exists_flight_of_order? {order : Order} (horder : x.order? e = some order) :
    ∃ caller f, e = .serve caller ∧ x.lane.flight? caller = some f := by
  cases e with
  | serve caller =>
    cases hf : x.lane.flight? caller with
    | none => simp only [order?, hf] at horder; cases horder
    | some f => exact ⟨caller, f, rfl, hf⟩
  | _ => cases horder

/-- **Whose order it is**: that of the dance of a call which ends with a result. -/
theorem Agrees.order?_eq_some_iff (h : x.Agrees log) {order : Order} :
    x.order? e = some order ↔ ∃ caller f d result, e = .serve caller ∧ x.lane.flight? caller = some f ∧
      f.call = .typed d ∧ d.order = order ∧ (x.step e).lane.ended = x.lane.ended ++ [(caller, .ok result)] := by
  constructor
  · intro horder
    obtain ⟨caller, f, rfl, hf⟩ := exists_flight_of_order? horder
    rcases h.serve_cases hf with ⟨hnone, -⟩ | ⟨d, result, -, hd, hsome, hended, -⟩
    · rw [hnone] at horder
      cases horder
    · exact ⟨caller, f, d, result, rfl, hf, hd, Option.some.inj (hsome.symm.trans horder), hended⟩
  · rintro ⟨caller, f, d, result, rfl, hf, hd, rfl, hended⟩
    rcases h.serve_cases hf with ⟨-, -, e, hfailed⟩ | ⟨d', -, -, hd', hsome, -⟩
    · rw [hended, List.append_cancel_left_eq] at hfailed
      cases hfailed
    · have hsame := (h.order_of_flight hf hd).symm.trans (h.order_of_flight hf hd')
      rw [hsome, Except.ok.inj hsame]

theorem Agrees.state_of_order?_eq_none (h : x.Agrees log) (hnone : x.order? e = none) :
    (x.step e).state = x.state := by
  cases e with
  | serve caller =>
    cases hf : x.lane.flight? caller with
    | none => rw [(step_serve_of_none hf).1]
    | some f =>
      rcases h.serve_cases hf with ⟨-, hstate, -⟩ | ⟨d, -, -, -, hsome, -⟩
      · exact hstate
      · rw [hnone] at hsome
        cases hsome
  | ask caller call => exact h.guarded.state_of_swap?_eq_none (m := .ask caller call) rfl
  | enter caller => exact h.guarded.state_of_swap?_eq_none (m := .enter caller) rfl
  | launch caller => exact h.guarded.state_of_swap?_eq_none (m := .launch caller) rfl
  | expire caller => exact h.guarded.state_of_swap?_eq_none (m := .expire caller) rfl
  | drop caller => exact h.guarded.state_of_swap?_eq_none (m := .drop caller) rfl
  | cancel => exact h.guarded.state_of_swap?_eq_none (m := .cancel) rfl
  | tend change => rfl

/-- What an order gives becomes the state of the client, once its call comes to its result. -/
theorem Agrees.gives_of_order? (h : x.Agrees log) {order : Order} (horder : x.order? e = some order) :
    ∃ served, x.server.store.Gives x.server.embedProperties x.state x.ids order served (x.step e).ids ∧
      (x.step e).state = served.session := by
  obtain ⟨caller, f, rfl, hf⟩ := exists_flight_of_order? horder
  rcases h.serve_cases hf with ⟨hnone, -⟩ | ⟨d, result, served, -, hsome, -, -, -, hgives, hstate⟩
  · rw [hnone] at horder
    cases horder
  · rw [hsome] at horder
    cases horder
    exact ⟨served, hgives, hstate⟩

/-- What is drawn as something happens is in neither pool, and no key names it. -/
def Fresh (x : Exchange) (e : Event) : Prop :=
  ∀ id, x.ids.Draws (x.step e).ids id → x.state.uses id = false ∧ ∀ key, id ≠ .ofKey key

/-- What is drawn in a run was in neither pool at any time before, and no key names it. -/
def Unused (x : Exchange) (es : List Event) : Prop :=
  ∀ before e after, es = before ++ e :: after →
    ∀ id, (x.run before).ids.Draws ((x.run before).step e).ids id →
      (∀ first rest, before = first ++ rest → (x.run first).state.uses id = false) ∧ ∀ key, id ≠ .ofKey key

variable {es before after : List Event} {id : TemporaryId}

theorem Unused.fresh (h : x.Unused es) (hsplit : es = before ++ e :: after) : (x.run before).Fresh e := fun id hid =>
  (h before e after hsplit id hid).imp_left fun hunused => hunused before [] (List.append_nil before).symm

/-- An id that has been in use is not drawn any more. -/
theorem Unused.not_draws (h : x.Unused es) (hsplit : es = before ++ after)
    (hused : (x.run before).state.uses id = true) {first last : List Event} (hafter : after = first ++ e :: last) :
    ¬ ((x.run before).run first).ids.Draws (((x.run before).run first).step e).ids id := by
  rw [← run_append]
  intro hdrawn
  have hfree := (h (before ++ first) e last (by rw [hsplit, hafter, List.append_assoc]) id hdrawn).1 before first rfl
  rw [hused] at hfree
  cases hfree

theorem unused_of_presets {bits : List Uuid} (hstream : x.ids.stream = (IdSource.ofPresets bits).stream)
    (h : ∀ k < es.length, ∀ n < (x.run (es.take (k + 1))).ids.drawn, (x.run (es.take k)).ids.drawn ≤ n →
      ∀ j ≤ k, (x.run (es.take j)).state.uses (x.ids.stream n) = false) : x.Unused es := by
  rintro before e after hsplit id ⟨n, hle, hlt, rfl⟩
  rw [(x.reaches_run before).stream]
  refine ⟨fun first rest hfirst => ?_, fun key => ?_⟩
  · -- The parts of the run that come to an end here, one step further and before.
    have hbefore : es.take before.length = before := by rw [hsplit, List.take_left]
    have hnext : es.take (before.length + 1) = before ++ [e] := by
      rw [hsplit, List.append_cons, ← List.length_singleton (a := e), ← List.length_append, List.take_left]
    have hthen : es.take first.length = first := by rw [hsplit, hfirst, List.append_assoc, List.take_left]
    have hlength : before.length < es.length := by
      rw [hsplit, List.length_append]
      exact Nat.lt_add_of_pos_right (Nat.succ_pos _)
    have hfree := h before.length hlength n
    rw [hbefore, hnext, run_append] at hfree
    have hfirst' := hfree hlt hle first.length (by rw [hfirst, List.length_append]; exact Nat.le_add_right _ _)
    rw [hthen] at hfirst'
    exact hfirst'
  · rw [hstream]
    exact IdSource.ofPresets_ne_ofKey bits n key

/-- A fresh client, and a server that has a book and draws ids from no presets. -/
def inLibrary : Exchange := ⟨.idle .fresh, Server.withBook, .ofPresets []⟩

end Holarchy.Exchange
