import Holarchy.Server
/-!
# Answers of a server

A server that is not made to fail answers with success just if it runs an order without a refusal; whatever it refuses
leaves its store as it was and carries no session.
-/
namespace Holarchy.Server

variable {s : Server} {r : DanceRequest} {ids : IdSource}

/-- The order that a request makes, run against its session. -/
def runs (s : Server) (r : DanceRequest) (ids : IdSource) (order : Order) : Except Refusal Served × IdSource :=
  s.store.run s.embedProperties r.context.state order ids

theorem handle_of_runs {order : Order} {served : Served} (hready : s.failNext = none)
    (horder : r.order s.space = .ok order) (hrun : (s.runs r ids order).1 = .ok served) :
    (s.handle r ids).1 = (.ok s.space served.body served.session, { s with store := served.store }) := by
  simp only [runs] at hrun
  simp only [handle, hready, horder]
  generalize s.store.run s.embedProperties r.context.state order ids = ran at hrun ⊢
  obtain ⟨outcome, ids'⟩ := ran
  cases hrun
  rfl

/-- **A request is run or refused.** -/
theorem handle_cases (s : Server) (r : DanceRequest) (ids : IdSource) :
    (∃ order served, s.failNext = none ∧ r.order s.space = .ok order ∧ (s.runs r ids order).1 = .ok served) ∨
      ∃ e s', (s.handle r ids).1 = (.ofRefusal s.space e, s') ∧ s'.store = s.store := by
  cases hready : s.failNext with
  | some e => exact .inr ⟨e, { s with failNext := none }, by simp only [handle, hready], rfl⟩
  | none =>
    cases horder : r.order s.space with
    | error e => exact .inr ⟨e, s, by simp only [handle, hready, horder], rfl⟩
    | ok order =>
      rcases hrun : s.runs r ids order with ⟨e | served, ids'⟩
      · rw [runs] at hrun
        exact .inr ⟨e, s, by simp only [handle, hready, horder, hrun], rfl⟩
      · exact .inl ⟨order, served, rfl, rfl, by rw [hrun]⟩

theorem isSuccess_handle_iff :
    (s.handle r ids).1.1.status.isSuccess = true ↔
      ∃ order served, s.failNext = none ∧ r.order s.space = .ok order ∧ (s.runs r ids order).1 = .ok served := by
  constructor
  · intro h
    rcases s.handle_cases r ids with hran | ⟨e, s', hrefused, -⟩
    · exact hran
    · rw [hrefused, DanceResponse.ofRefusal, Status.isSuccess_ofRefusal] at h
      cases h
  · rintro ⟨order, served, hready, horder, hrun⟩
    rw [handle_of_runs hready horder hrun]
    rfl

/-- **What is refused changes nothing.** -/
theorem handle_refused (h : (s.handle r ids).1.1.status.isSuccess = false) :
    (s.handle r ids).1.2.store = s.store ∧ (s.handle r ids).1.1.snapshot = none := by
  rcases s.handle_cases r ids with hran | ⟨e, s', hrefused, hstore⟩
  · rw [isSuccess_handle_iff.2 hran] at h
    cases h
  · rw [hrefused]
    exact ⟨hstore, rfl⟩

end Holarchy.Server
