import Holarchy.Proofs.Dance
import Holarchy.Proofs.Holon.Relations
/-!
# References and transactions

A temporary id means something in its own transaction only.  Every reference that a dance is about is checked before it
is resolved, by the client or by the server; the members that it adds to a relationship or takes out of one are checked
by neither.
-/
namespace Holarchy

namespace Reference

/-- The reference names a holon of a pool, by a temporary id. -/
def isPooled : Reference → Bool
  | .transient _ | .staged _ => true
  | .smart _ => false

/-- A temporary id in the reference was issued under the transaction. -/
def Belongs (r : Reference) (txId : TxId) : Prop := r.isPooled = true → r.txId = txId

/-- The reference with the same id, as if it had been issued under the transaction. -/
def issuedUnder (r : Reference) (txId : TxId) : Reference :=
  match r with
  | .transient r => .transient { r with txId }
  | .staged r => .staged { r with txId }
  | .smart r => .smart { r with txId }

instance (r : Reference) (txId : TxId) : Decidable (r.Belongs txId) := inferInstanceAs (Decidable (_ → _))

theorem checkTx_eq_ok_iff {r : Reference} {txId : TxId} : r.checkTx txId = .ok () ↔ r.txId = txId := by
  unfold checkTx
  split <;> simp_all

/-- What is checked before anything else belongs, if there is a result. -/
theorem belongs_of_checked {α : Type} {r : Reference} {txId : TxId} {next : Unit → Except Refusal α} {a : α}
    (h : (r.checkTx txId >>= next) = .ok a) : ∀ r' ∈ [r], r'.Belongs txId := by
  obtain ⟨_, htx, -⟩ := exists_of_bind_eq_ok h
  intro r' hr' _
  rw [List.mem_singleton.1 hr']
  exact checkTx_eq_ok_iff.1 htx

end Reference

/-- The references that a dance is performed on. -/
def DanceType.references : DanceType → List Reference
  | .query sources => sources.members
  | .command target => [.staged target]
  | .clone source => [source]
  | .standalone | .newVersion _ | .delete _ => []

namespace RequestBody

/-- The references that a body gives as what the dance is about. -/
def references : RequestBody → List Reference
  | .transientReference r => [.transient r]
  | .stagedReference r => [.staged r]
  | _ => []

/-- The references that a body gives as what the holon of the dance is related to. -/
def related : RequestBody → List Reference
  | .targetHolons _ holons => holons
  | _ => []

end RequestBody

/-- The references of a request: those that it is about, and those that it relates its holon to. -/
def DanceRequest.references (q : DanceRequest) : List Reference :=
  q.kind.references ++ q.body.references ++ q.body.related

namespace Dance

/-- The dance names holons by reference. -/
def namesHolons : Dance → Bool
  | .stageTransient _ | .withProperties .. | .removeProperties .. | .addRelatedHolons .. | .removeRelatedHolons ..
  | .abandonStagedChanges _ | .commitOne _ | .stageNewFromClone _ | .queryRelationships .. => true
  | .newHolon _ | .stageNewHolon _ | .commit | .getAllHolons | .getHolonById _ | .getStagedHolonByKey _
  | .stageNewVersion _ | .deleteHolon _ | .loadHolons _ => false

/-- The references that the dance adds to a relationship. -/
def added : Dance → List Reference
  | .addRelatedHolons _ _ holons => holons
  | _ => []

variable {d : Dance} {space : SpaceId} {s : SessionState} {q : DanceRequest}

/-- **The client checks what a dance is about**, except the sources of a query. -/
theorem belongs_of_guard (hguard : d.guard s = .ok ()) (hquery : ∀ sources relationship,
    d ≠ .queryRelationships sources relationship) :
    ∀ r ∈ d.kind.references ++ d.body.references, r.Belongs s.txId := by
  cases d with
  | withProperties | removeProperties | stageTransient | stageNewFromClone =>
    exact Reference.belongs_of_checked hguard
  | addRelatedHolons | removeRelatedHolons =>
    simp only [guard] at hguard
    split at hguard
    · cases hguard
    · exact Reference.belongs_of_checked hguard
  | abandonStagedChanges | commitOne =>
    obtain ⟨found, hfound, -⟩ := exists_of_bind_eq_ok hguard
    exact Reference.belongs_of_checked hfound
  | queryRelationships sources relationship => exact absurd rfl (hquery sources relationship)
  | _ => exact fun r hr => by cases hr

end Dance

namespace SessionState

theorem belongs_of_querySource? {s : SessionState} {r : Reference} {found : Option Holon}
    (h : s.querySource? r = .ok found) : r.Belongs s.txId := by
  cases r with
  | smart r => exact fun hpooled => by cases hpooled
  | staged r =>
    obtain ⟨holon, hget, -⟩ := exists_of_map_eq_ok h
    exact fun _ => (getStaged_eq_ok_iff.1 hget).1
  | transient r =>
    obtain ⟨holon, hget, -⟩ := exists_of_map_eq_ok h
    exact fun _ => (getTransient_eq_ok_iff.1 hget).1

/-- **The server checks the sources of a query.** -/
theorem belongs_of_related {s : SessionState} {relationship : RelationshipName} {sources members : List Reference}
    (h : s.related relationship sources = .ok members) : ∀ r ∈ sources, r.Belongs s.txId := by
  induction sources generalizing members with
  | nil => exact fun r hr => by cases hr
  | cons source sources ih =>
    obtain ⟨found, hfound, h⟩ := exists_of_bind_eq_ok h
    obtain ⟨rest, hrest, -⟩ := exists_of_bind_eq_ok h
    intro r hr
    rcases List.mem_cons.1 hr with rfl | hr
    · exact belongs_of_querySource? hfound
    · exact ih hrest r hr

end SessionState

namespace Pool

/-- The reference is a member of a relationship of a holon in the pool. -/
def Relates (p : Pool) (r : Reference) : Prop := ∃ id h, p.get? id = some h ∧ h.Relates r

variable {p p' : Pool} {id : TemporaryId} {h : Holon} {r : Reference}

theorem relates_pooled_iff : (pooled id h).Relates r ↔ h.Relates r := by
  cases h <;> exact Iff.rfl

theorem relates_of_insert (hr : (p.insert id h).Relates r) : h.Relates r ∨ p.Relates r := by
  obtain ⟨j, h', hget, hr⟩ := hr
  rw [get?_insert] at hget
  split at hget
  · cases hget
    exact .inl (relates_pooled_iff.1 hr)
  · exact .inr ⟨j, h', hget, hr⟩

theorem relates_of_remove (hr : (p.remove id).Relates r) : p.Relates r := by
  obtain ⟨j, h', hget, hr⟩ := hr
  rw [get?_remove] at hget
  split at hget
  · cases hget
  · exact ⟨j, h', hget, hr⟩

theorem relates_of_filter {keep : TemporaryId → Holon → Bool} (hp : p'.holons = p.holons.filter keep)
    (hr : p'.Relates r) : p.Relates r := by
  obtain ⟨j, h', hget, hr⟩ := hr
  rw [get?, hp, SortedMap.get?_filter_eq_some_iff] at hget
  exact ⟨j, h', hget.1, hr⟩

end Pool

/-- The reference is a member of a relationship of a holon of the session. -/
def SessionState.Relates (s : SessionState) (r : Reference) : Prop :=
  s.transientHolons.Relates r ∨ s.stagedHolons.Relates r

/-- The references that an order adds to a relationship. -/
def Order.added : Order → List Reference
  | .addRelated _ _ holons => holons
  | _ => []

namespace Store

variable {s : Store} {embed : Bool} {session : SessionState} {ids ids' : IdSource} {served : Served} {order : Order}
  {r : Reference}

/-- What is staged is related to what its origin in the session was related to. -/
theorem relates_of_promoted {g : Staging} {h : StagedHolon} {transient : Pool}
    (hp : s.promoted session g = .ok (h, transient)) (hg : ∀ holon, g ≠ .holon holon) (hr : h.relationships.Relates r) :
    session.Relates r := by
  cases g with
  | holon holon => exact absurd rfl (hg holon)
  | pooled target =>
    obtain ⟨⟨staged, session'⟩, htake, hpair⟩ := exists_of_map_eq_ok hp
    cases hpair
    obtain ⟨holon, hget, htake⟩ := exists_of_bind_eq_ok htake
    obtain ⟨staged, hstage, htake⟩ := exists_of_bind_eq_ok htake
    cases htake
    exact .inl ⟨target.id, holon, (SessionState.getTransient_eq_ok_iff.1 hget).2, Holon.relates_of_stage hstage hr⟩
  | clone source =>
    unfold promoted at hp
    obtain ⟨_, -, hp⟩ := exists_of_bind_eq_ok hp
    obtain ⟨holon, hsource, hp⟩ := exists_of_bind_eq_ok hp
    obtain ⟨copy, hcopy, hp⟩ := exists_of_bind_eq_ok hp
    obtain ⟨staged, hstage, hp⟩ := exists_of_bind_eq_ok hp
    cases hp
    have hholon : holon.Relates r :=
      Holon.relates_of_copy hcopy (Holon.relates_of_stage (h := .transient copy) hstage hr)
    cases source with
    | transient t => exact .inl ⟨t.id, holon, (SessionState.getTransient_eq_ok_iff.1 hsource).2, hholon⟩
    | staged t => exact .inr ⟨t.id, holon, (SessionState.getStaged_eq_ok_iff.1 hsource).2, hholon⟩
    | smart t =>
      obtain ⟨saved, -, rfl⟩ := exists_of_map_eq_ok hsource
      exact absurd hholon (RelationshipMap.not_relates_empty r)
  | version id =>
    unfold promoted at hp
    obtain ⟨saved, -, hp⟩ := exists_of_bind_eq_ok hp
    obtain ⟨staged, hstage, hp⟩ := exists_of_bind_eq_ok hp
    cases hp
    exact absurd (Holon.relates_of_stage (h := .transient saved.newVersion) hstage hr)
      (RelationshipMap.not_relates_empty r)

theorem added_of_command {target : StagedReference} {ops : List Holon.Operation}
    (hcommand : s.command? session order = some (target, ops)) (hr : ∃ op ∈ ops, r ∈ op.related) :
    r ∈ order.added := by
  obtain ⟨op, hop, hr⟩ := hr
  cases order <;> cases hcommand
  case addRelated =>
    obtain rfl := List.mem_singleton.1 hop
    simpa [Holon.Operation.related, Edit.related, Order.added] using hr
  case removeProperties =>
    obtain ⟨name, -, rfl⟩ := List.mem_map.1 hop
    cases hr
  all_goals
    obtain rfl := List.mem_singleton.1 hop
    cases hr

/-- **No order brings a reference into the relationships of a session** but the one that adds it, apart from those that
bring in holons from elsewhere. -/
theorem Gives.relates (h : s.Gives embed session ids order served ids') (hstage : ∀ holon, order ≠ .stage holon)
    (hload : ∀ content, order ≠ .load content) (hr : served.session.Relates r) :
    session.Relates r ∨ r ∈ order.added := by
  cases h with
  | drafted properties =>
    rcases hr with hr | hr
    · rcases Pool.relates_of_insert hr with hnew | hr
      · exact absurd hnew (RelationshipMap.not_relates_empty r)
      · exact .inl (.inl hr)
    · exact .inl (.inr hr)
  | @staged g holon transient hp =>
    rcases hr with hr | hr
    · rcases promoted_transient hp with rfl | ⟨target, -, rfl⟩
      · exact .inl (.inl hr)
      · exact .inl (.inl (Pool.relates_of_remove hr))
    · rcases Pool.relates_of_insert hr with hnew | hr
      · exact .inl (relates_of_promoted hp (fun holon hg => hstage holon (congrArg Staging.order hg)) hnew)
      · exact .inl (.inr hr)
  | loaded content => exact absurd rfl (hload content)
  | commanded hcommand hget hperforms =>
    rcases hr with hr | hr
    · exact .inl (.inl hr)
    · rcases Pool.relates_of_insert hr with hnew | hr
      · rcases hperforms.relates hnew with hold | hadded
        · exact .inl (.inr ⟨_, _, (SessionState.getStaged_eq_ok_iff.1 hget).2, hold⟩)
        · exact .inr (added_of_command hcommand hadded)
      · exact .inl (.inr hr)
  | committed _ _ hcommits =>
    rw [hcommits.others] at hr
    rcases hr with hr | hr
    · exact .inl (.inl hr)
    · exact .inl (.inr (Pool.relates_of_filter hcommits.staged hr))
  | answered => exact .inl hr
  | deleted => exact .inl hr

/-- An order to edit a staged holon writes the edited holon in its place. -/
theorem Gives.edited {target : StagedReference} {e : Edit} (h : s.Gives embed session ids order served ids')
    (hcommand : s.command? session order = some (target, [.edit e])) :
    ∃ g g', session.getStaged target = .ok (.staged g) ∧ g.edit e = (.ok (), g') ∧
      served.session = session.withStaged (session.stagedHolons.insert target.id (.staged g')) := by
  cases h with
  | commanded hcommand' hget hperforms =>
    obtain ⟨rfl, rfl⟩ := Prod.mk.inj (Option.some.inj (hcommand'.symm.trans hcommand))
    obtain ⟨next, hedit, rfl⟩ := hperforms
    obtain ⟨hok, hnext⟩ := Prod.mk.inj (Option.some.inj hedit)
    exact ⟨_, _, hget, Prod.ext hok (Holon.staged.inj hnext), rfl⟩
  | drafted | loaded | deleted => cases hcommand
  | @staged g => cases g <;> cases hcommand
  | committed hcommits =>
    cases order with
    | commitAll | commitOne => cases hcommand
    | _ => cases hcommits
  | answered hreading =>
    cases order with
    | getAll | getById | getStagedByKey | query => cases hcommand
    | _ => cases hreading

/-- The holons that an order adds extend the collection of their relationship, each under the key of whatever holon has
its id in this session. -/
theorem Gives.addRelated {target : StagedReference} {relationship : RelationshipName} {holons : List Reference}
    (h : s.Gives embed session ids (.addRelated target relationship holons) served ids') :
    ∃ before after c, session.stagedHolons.get? target.id = some (.staged before) ∧
      served.session.stagedHolons.get? target.id = some (.staged after) ∧
      after.relationships.get? relationship = some c ∧
      ((before.relationships.get? relationship).getD (.new .staged)).addReferences
        (holons.map fun r => (r, s.referenceKey? session (r.issuedUnder session.txId))) = .ok c := by
  have hkey : ∀ r, s.referenceKey? session (r.issuedUnder session.txId) = s.referenceKey? session r := fun r => by
    cases r <;> rfl
  simp only [hkey]
  obtain ⟨before, after, hget, hedit, hsession⟩ := h.edited rfl
  obtain ⟨c, hadd, hc⟩ := StagedHolon.edit_addRelated_ok hedit
  refine ⟨before, after, c, (SessionState.getStaged_eq_ok_iff.1 hget).2, ?_, ?_, hadd⟩
  · rw [hsession]
    exact (Pool.get?_insert _ _ _ _).trans (if_pos rfl)
  · rw [hc, SortedMap.get?_insert, if_pos rfl]

end Store

variable {d : Dance} {space : SpaceId} {s : SessionState} {q : DanceRequest}

theorem Dance.added_order (d : Dance) : d.order.added = d.added := by
  cases d <;> rfl

/-- **What a success checks of the references in a request**: all those that the dance is about, and none of those that
it relates its holon to. -/
theorem Server.belongs_of_success {server : Server} {ids : IdSource} (hrequest : d.request space s = .ok q)
    (hok : (server.handle q ids).1.1.status.isSuccess = true) :
    ∀ r ∈ q.kind.references ++ q.body.references, r.Belongs s.txId := by
  by_cases hquery : ∃ sources relationship, d = .queryRelationships sources relationship
  · obtain ⟨sources, relationship, rfl⟩ := hquery
    obtain ⟨order, served, -, horder, hrun⟩ := isSuccess_handle_iff.1 hok
    cases (Dance.order_of_request hrequest server.space).symm.trans horder
    rw [runs, Dance.state_of_request hrequest] at hrun
    obtain ⟨members, hrelated, -⟩ := exists_of_map_eq_ok hrun
    rw [Dance.eq_of_request hrequest]
    intro r hr
    exact SessionState.belongs_of_related hrelated r ((List.mem_append.1 hr).resolve_right fun h => by cases h)
  · rw [Dance.eq_of_request hrequest]
    exact Dance.belongs_of_guard (Dance.guard_of_request hrequest) fun sources relationship hd =>
      hquery ⟨sources, relationship, hd⟩

/-- **No reference crosses transactions, but for the members of a body.**  If the client asks for a dance that names
holons by reference and the server answers it with success, then every temporary id that the dance is about, as its
target, its source or one of the sources of a query, was issued under the transaction of the session.  So all temporary
ids in the request were, just if those among the holons to be related or no longer related were, which nothing checks:
the reference that adding related holons brings into the relationships of the session is the one that was given,
whatever its transaction, and it stands under the key of whatever holon has its id here. -/
theorem no_reference_crosses_iff (hnames : d.namesHolons = true) (hrequest : d.request space s = .ok q)
    (server : Server) (ids : IdSource) (hok : (server.handle q ids).1.1.status.isSuccess = true) :
    (∀ r ∈ q.kind.references ++ q.body.references, r.Belongs s.txId) ∧
      ((∀ r ∈ q.references, r.Belongs s.txId) ↔ ∀ r ∈ q.body.related, r.Belongs s.txId) ∧
      ∃ s', (server.handle q ids).1.1.snapshot = some s' ∧
        (∀ r, ¬ s.Relates r → (s'.Relates r ↔ r ∈ d.added)) ∧
        ∀ target relationship holons, d = .addRelatedHolons target relationship holons →
          ∃ before after c, s.stagedHolons.get? target.id = some (.staged before) ∧
            s'.stagedHolons.get? target.id = some (.staged after) ∧ after.relationships.get? relationship = some c ∧
            ((before.relationships.get? relationship).getD (.new .staged)).addReferences
              (holons.map fun r => (r, server.store.referenceKey? s (r.issuedUnder s.txId))) = .ok c := by
  have hbelongs := Server.belongs_of_success hrequest hok
  obtain ⟨order, served, horder, hgives, hhandle⟩ := Server.gives_of_isSuccess hok
  cases (Dance.order_of_request hrequest server.space).symm.trans horder
  rw [Dance.state_of_request hrequest] at hgives
  refine ⟨hbelongs, ?_, served.session, ?_, fun r hr => ⟨fun h => ?_, fun h => ?_⟩, ?_⟩
  · exact ⟨fun h r hr => h r (List.mem_append_right _ hr), fun h r hr =>
      (List.mem_append.1 hr).elim (hbelongs r) (h r)⟩
  · rw [hhandle]
    rfl
  · have hadded := hgives.relates (r := r) (fun holon hd => ?_) (fun content hd => ?_) h
    · exact d.added_order ▸ hadded.resolve_left hr
    · cases d <;> cases hd
      cases hnames
    · cases d <;> cases hd
      cases hnames
  · cases d with
    | addRelatedHolons target relationship holons =>
      obtain ⟨before, after, c, -, hafter, hc, hadd⟩ := hgives.addRelated
      refine .inr ⟨target.id, _, hafter, relationship, c, hc, ?_⟩
      rw [Collection.members_addReferences hadd, List.map_map]
      exact List.mem_append_right _ (List.mem_map.2 ⟨r, h, rfl⟩)
    | _ => cases h
  · rintro target relationship holons rfl
    exact hgives.addRelated

/-- The first draft is to be a friend of the third, which is named by its id in another transaction. -/
def befriendStranger : Dance := .addRelatedHolons ⟨⟨1⟩, .numbered 1⟩ ⟨"friends"⟩ [.staged ⟨⟨2⟩, .numbered 3⟩]

/-- A friend of the same transaction is accepted, and is all that the drafts are then related to. -/
theorem no_reference_crosses_iff_of_befriending :
    let d := Dance.addRelatedHolons ⟨⟨1⟩, .numbered 1⟩ ⟨"friends"⟩ [.staged ⟨⟨1⟩, .numbered 3⟩]
    ∃ q, d.request ⟨"local"⟩ Server.drafts = .ok q ∧ (∀ r ∈ q.references, r.Belongs ⟨1⟩) ∧
      ∃ s', (Server.withOne.handle q (.ofPresets [])).1.1.snapshot = some s' ∧
        ∃ after c, s'.stagedHolons.get? (.numbered 1) = some (.staged after) ∧
          after.relationships.get? ⟨"friends"⟩ = some c ∧ c.members = [.staged ⟨⟨1⟩, .numbered 3⟩] := by
  intro d
  have hrequest : d.request ⟨"local"⟩ Server.drafts = .ok (.new d.name d.kind d.body ⟨"local"⟩ Server.drafts) := rfl
  obtain ⟨-, hbelong, s', hsnapshot, -, hadded⟩ :=
    no_reference_crosses_iff rfl hrequest Server.withOne (.ofPresets []) (by decide +kernel)
  obtain ⟨before, after, c, hbefore, hafter, hc, hadd⟩ := hadded _ _ _ rfl
  refine ⟨_, hrequest, hbelong.2 (by decide), s', hsnapshot, after, c, hafter, hc, ?_⟩
  cases hbefore
  exact Collection.members_addReferences hadd

/-- A reference can cross transactions: the client asks and the server agrees, and the draft then has a friend by an id
of the second transaction, under the key of the draft that has this id in the first. -/
theorem stranger_is_related_and_keyed :
    ∃ q s' after, befriendStranger.request ⟨"local"⟩ Server.drafts = .ok q ∧ q.context.txId = ⟨1⟩ ∧
      (Server.withOne.handle q (.ofPresets [])).1.1.status.isSuccess = true ∧
      (Server.withOne.handle q (.ofPresets [])).1.1.snapshot = some s' ∧
      s'.stagedHolons.get? (.numbered 1) = some (.staged after) ∧
      after.relationships.entries =
        [(⟨"friends"⟩, ⟨.staged, [.staged ⟨⟨2⟩, .numbered 3⟩], SortedMap.ofList [("third", 0)]⟩)] ∧
      ¬ ∀ r ∈ q.references, r.Belongs ⟨1⟩ :=
  ⟨_, _, _, rfl, rfl, by decide +kernel, rfl, rfl, by decide +kernel, by decide +kernel⟩

end Holarchy
