import Holarchy.Dance.Catalog
import Holarchy.Server.Order
/-!
# Requests of the catalog

The request that a dance makes carries the state it was made from, and every server understands it as the same order.
-/
namespace Holarchy.Dance

def order : Dance → Order
  | .newHolon properties => .newHolon properties
  | .stageNewHolon holon => .stage holon
  | .stageTransient target => .stageTransient target
  | .withProperties target properties => .withProperties target properties
  | .removeProperties target names =>
    .removeProperties target (SortedMap.ofList (names.map fun name => (name, none)))
  | .addRelatedHolons target relationship holons => .addRelated target relationship holons
  | .removeRelatedHolons target relationship holons => .removeRelated target relationship holons
  | .abandonStagedChanges target => .abandon target
  | .commit => .commitAll
  | .commitOne target => .commitOne target
  | .getAllHolons => .getAll
  | .getHolonById id => .getById id
  | .getStagedHolonByKey key => .getStagedByKey (SortedMap.ofList [(keyProperty, some (.string key))])
  | .stageNewFromClone source => .clone source
  | .stageNewVersion id => .newVersion id
  | .deleteHolon id => .delete id
  | .queryRelationships sources relationship => .query sources ⟨relationship⟩
  | .loadHolons content => .load content

variable {d : Dance} {space : SpaceId} {s : SessionState} {q : DanceRequest}

theorem name_eq_commit_iff : d.name = "commit" ↔ d = .commit ∨ ∃ target, d = .commitOne target := by
  cases d <;> simp [name]

theorem name_of_order (h : d.order = .commitAll ∨ ∃ target, d.order = .commitOne target) : d.name = "commit" := by
  cases d <;> simp [order, name] at h ⊢

theorem eq_deleteHolon_of_order {id : LocalId} (h : d.order = .delete id) : d = .deleteHolon id := by
  cases d <;> simp [order] at h ⊢
  exact h

theorem guard_of_request (h : d.request space s = .ok q) : d.guard s = .ok () := by
  unfold request at h
  cases hg : d.guard s with
  | error e => rw [hg] at h; cases h
  | ok u => rfl

theorem request_of_guard (h : d.guard s = .ok ()) (space : SpaceId) :
    d.request space s = .ok (.new d.name d.kind d.body space s) := by
  rw [request, h]
  rfl

theorem eq_of_request (h : d.request space s = .ok q) : q = .new d.name d.kind d.body space s := by
  unfold request at h
  cases hg : d.guard s with
  | error e => rw [hg] at h; cases h
  | ok u => rw [hg] at h; cases h; rfl

theorem state_of_request (h : d.request space s = .ok q) : q.context.state = s := by
  rw [eq_of_request h]
  rfl

theorem order_new (d : Dance) (space space' : SpaceId) (s : SessionState) :
    (DanceRequest.new d.name d.kind d.body space s).order space' = .ok d.order := by
  cases d <;> rfl

/-- **No request of the catalog is misunderstood.** -/
theorem order_of_request (h : d.request space s = .ok q) (space' : SpaceId) : q.order space' = .ok d.order := by
  rw [eq_of_request h]
  exact d.order_new space space' s

end Holarchy.Dance
