import Holarchy.Proofs.Collection.Entries
import Holarchy.Proofs.Server.Reading
import Holarchy.Proofs.Server.Transactions
/-!
# Relating holons and querying them

What a query finds is what the dances before it put there.  `SessionState.related` follows a relationship from each
source in turn; a dance that relates holons to a target, or takes them away from it, replaces one collection of one
holon.  So the next query from that holon finds the members of the new collection, and every other query finds what it
found before.
-/
namespace Holarchy

namespace SessionState

/-- The reference is of this transaction, and its holon is in the pool that it names. -/
def Resolves (s : SessionState) (r : Reference) : Prop := r.txId = s.txId ∧ (s.pooled? r).isSome = true

instance (s : SessionState) (r : Reference) : Decidable (s.Resolves r) := inferInstanceAs (Decidable (_ ∧ _))

/-- The collection that the holon behind a reference has under a name. -/
def collection? (s : SessionState) (r : Reference) (relationship : RelationshipName) : Option Collection :=
  (s.pooled? r).bind fun h => h.relationships.get? relationship

/-- The members that a relationship leads to from one source; none, where it has no such collection. -/
def membersOf (s : SessionState) (relationship : RelationshipName) (r : Reference) : List Reference :=
  match s.collection? r relationship with
  | some c => c.members
  | none => []

variable {s s' : SessionState} {relationship : RelationshipName} {sources members : List Reference} {r : Reference}

theorem collection?_of_pooled {h : Holon} (hget : s.pooled? r = some h) (name : RelationshipName) :
    s.collection? r name = h.relationships.get? name := by
  rw [collection?, hget]
  rfl

theorem membersOf_eq (s : SessionState) (relationship : RelationshipName) (r : Reference) :
    s.membersOf relationship r = ((s.collection? r relationship).getD (.new .staged)).members := by
  rw [membersOf]
  cases s.collection? r relationship <;> rfl

theorem pooled?_of_getStaged {target : StagedReference} {h : Holon} (hget : s.getStaged target = .ok h) :
    s.pooled? (.staged target) = some h := (getStaged_eq_ok_iff.1 hget).2

theorem querySource?_eq_ok_iff {found : Option Holon} :
    s.querySource? r = .ok found ↔ (r.isPooled = true → s.Resolves r) ∧ found = s.pooled? r := by
  have hmap {outcome : Except Refusal Holon} :
      outcome.map some = .ok found ↔ ∃ h, outcome = .ok h ∧ found = some h := by
    cases outcome <;> simp [Except.map, eq_comm]
  cases r with
  | smart r => simp [querySource?, Reference.isPooled, pooled?, eq_comm]
  | transient r =>
    simp only [querySource?, hmap, getTransient_eq_ok_iff, Reference.isPooled, forall_const, Resolves, Reference.txId,
      pooled?]
    cases s.transientHolons.get? r.id <;> simp
  | staged r =>
    simp only [querySource?, hmap, getStaged_eq_ok_iff, Reference.isPooled, forall_const, Resolves, Reference.txId,
      pooled?]
    cases s.stagedHolons.get? r.id <;> simp

/-- **A query follows the relationship from each source**, if it can resolve them all. -/
theorem related_eq_ok_iff :
    s.related relationship sources = .ok members ↔
      (∀ r ∈ sources, r.isPooled = true → s.Resolves r) ∧ members = sources.flatMap (s.membersOf relationship) := by
  induction sources generalizing members with
  | nil =>
    rw [related, List.flatMap_nil, Except.ok.injEq, eq_comm]
    exact (and_iff_right fun r hr => absurd hr List.not_mem_nil).symm
  | cons source sources ih =>
    rw [List.forall_mem_cons, List.flatMap_cons]
    constructor
    · intro h
      obtain ⟨found, hfound, h⟩ := exists_of_bind_eq_ok h
      obtain ⟨rest, hrest, h⟩ := exists_of_bind_eq_ok h
      obtain ⟨hsource, rfl⟩ := querySource?_eq_ok_iff.1 hfound
      obtain ⟨hsources, rfl⟩ := ih.1 hrest
      exact ⟨⟨hsource, hsources⟩, (Except.ok.inj h).symm⟩
    · rintro ⟨⟨hsource, hsources⟩, rfl⟩
      rw [related, querySource?_eq_ok_iff.2 ⟨hsource, rfl⟩, ih.2 ⟨hsources, rfl⟩]
      rfl

/-- The members of a relationship of one source. -/
theorem related_singleton (hresolves : s.Resolves r) :
    s.related relationship [r] = .ok (s.membersOf relationship r) := by
  refine related_eq_ok_iff.2 ⟨fun r' hr' _ => ?_, ?_⟩
  · rw [List.mem_singleton.1 hr']
    exact hresolves
  · rw [List.flatMap_cons, List.flatMap_nil, List.append_nil]

/-- The second session is the first with another collection of a staged holon under one name. -/
def Recollects (s s' : SessionState) (target : StagedReference) (relationship : RelationshipName) (c : Collection) :
    Prop :=
  ∃ g g', s.getStaged target = .ok (.staged g) ∧ g'.relationships = g.relationships.insert relationship c ∧
    s' = s.withStaged (s.stagedHolons.insert target.id (.staged g'))

variable {target : StagedReference} {c : Collection}

theorem Recollects.resolves (h : s.Recollects s' target relationship c) : s.Resolves (.staged target) := by
  obtain ⟨g, g', hget, -, -⟩ := h
  refine ⟨(getStaged_eq_ok_iff.1 hget).1, ?_⟩
  rw [pooled?_of_getStaged hget]
  rfl

theorem Recollects.resolves_iff (h : s.Recollects s' target relationship c) : s'.Resolves r ↔ s.Resolves r := by
  obtain ⟨g, g', hget, -, rfl⟩ := h
  obtain ⟨-, hget⟩ := getStaged_eq_ok_iff.1 hget
  refine and_congr_right fun _ => ?_
  cases r with
  | transient | smart => exact Iff.rfl
  | staged r =>
    simp only [pooled?, withStaged, Pool.get?_insert]
    by_cases hr : r.id = target.id
    · rw [if_pos hr, hr, hget]
      simp
    · rw [if_neg hr]

theorem Recollects.exists_pooled (h : s.Recollects s' target relationship c) :
    ∃ holon, s.pooled? (.staged target) = some holon := Option.isSome_iff_exists.1 h.resolves.2

theorem Recollects.exists_pooled_after (h : s.Recollects s' target relationship c) :
    ∃ holon, s'.pooled? (.staged target) = some holon :=
  Option.isSome_iff_exists.1 (h.resolves_iff.2 h.resolves).2

/-- The holon of the target has the new collection under the name, and the others as before. -/
theorem Recollects.relationships_eq (h : s.Recollects s' target relationship c) {holon holon' : Holon}
    (hget : s.pooled? (.staged target) = some holon) (hget' : s'.pooled? (.staged target) = some holon') :
    holon'.relationships = holon.relationships.insert relationship c := by
  obtain ⟨g, g', hstaged, hcollections, rfl⟩ := h
  cases hget.symm.trans (pooled?_of_getStaged hstaged)
  rw [pooled?, withStaged, Pool.get?_insert, if_pos rfl] at hget'
  cases hget'
  exact hcollections

theorem Recollects.collection?_self (h : s.Recollects s' target relationship c) (name : RelationshipName) :
    s'.collection? (.staged target) name =
      if name = relationship then some c else s.collection? (.staged target) name := by
  obtain ⟨holon, hget⟩ := h.exists_pooled
  obtain ⟨holon', hget'⟩ := h.exists_pooled_after
  rw [collection?_of_pooled hget', collection?_of_pooled hget, h.relationships_eq hget hget', SortedMap.get?_insert]

/-- Only the target has another collection, and only under this name. -/
theorem Recollects.collection?_of_ne (h : s.Recollects s' target relationship c) {name : RelationshipName}
    (hr : s.Resolves r) (hne : name ≠ relationship ∨ r ≠ .staged target) :
    s'.collection? r name = s.collection? r name := by
  by_cases htarget : r = .staged target
  · subst htarget
    rw [h.collection?_self, if_neg (hne.resolve_right (not_not_intro rfl))]
  · have htx := h.resolves.1
    obtain ⟨g, g', -, -, rfl⟩ := h
    cases r with
    | transient | smart => rfl
    | staged r =>
      -- Both references are of the transaction of the session, so it is their ids that differ.
      have hid : r.id ≠ target.id := by
        intro hid
        obtain ⟨txId, id⟩ := r
        obtain ⟨txId', id'⟩ := target
        obtain rfl : id = id' := hid
        obtain rfl : txId = txId' := hr.1.trans htx.symm
        exact htarget rfl
      simp only [collection?, pooled?, withStaged, Pool.get?_insert, if_neg hid]

/-- **A query from elsewhere or over another relationship finds what it found before**, or is refused as before. -/
theorem Recollects.related_iff (h : s.Recollects s' target relationship c) {name : RelationshipName}
    (hne : name ≠ relationship ∨ .staged target ∉ sources) :
    s'.related name sources = .ok members ↔ s.related name sources = .ok members := by
  simp only [related_eq_ok_iff, h.resolves_iff]
  refine and_congr_right fun hsources => ?_
  have hmembers : sources.flatMap (s'.membersOf name) = sources.flatMap (s.membersOf name) := by
    refine List.flatMap_congr fun r hr => ?_
    have hsame : s'.collection? r name = s.collection? r name := by
      by_cases hpooled : r.isPooled = true
      · refine h.collection?_of_ne (hsources r hr hpooled) (hne.imp_right fun hnot => ?_)
        rintro rfl
        exact hnot hr
      · cases r with
        | smart r => rfl
        | transient | staged => exact absurd rfl hpooled
    rw [membersOf, membersOf, hsame]
  rw [hmembers]

end SessionState

namespace StagedHolon

variable {h h' : StagedHolon} {name : RelationshipName} {references : List Reference}

/-- Related holons are taken out of the collection under a name, which is there. -/
theorem edit_removeRelated_ok (hedit : h.edit (.removeRelated name references) = (.ok (), h')) :
    ∃ c, h.relationships.get? name = some c ∧
      h'.relationships = h.relationships.insert name (c.removeReferences references) := by
  obtain ⟨content, happly, heq⟩ := edit_ok hedit
  simp only [Edit.apply, RelationshipMap.removeRelated] at happly
  cases hget : h.content.relationships.get? name with
  | none =>
    rw [hget] at happly
    cases happly
  | some c =>
    rw [hget] at happly
    cases happly
    exact ⟨c, hget, heq⟩

end StagedHolon

namespace Server

/-- A server that is not made to fail is asked to carry out an order against a session. -/
structure Asked (server : Server) (session : SessionState) (order : Order) (q : DanceRequest) : Prop where
  ready : server.failNext = none
  understood : q.order server.space = .ok order
  state : q.context.state = session

/-- A server carries out an order with success, and this is the session that it answers with. -/
def Turns (server : Server) (session : SessionState) (order : Order) (session' : SessionState) : Prop :=
  ∃ q ids, server.Asked session order q ∧ (server.handle q ids).1.1.status.isSuccess = true ∧
    (server.handle q ids).1.1.snapshot = some session'

variable {server : Server} {session session' : SessionState} {order : Order}

/-- The request that a dance makes asks for the order of the dance. -/
theorem asked_new (server : Server) (hready : server.failNext = none) (d : Dance) (space : SpaceId)
    (session : SessionState) : server.Asked session d.order (.new d.name d.kind d.body space session) :=
  ⟨hready, d.order_new space server.space session, rfl⟩

/-- A dance that edits a staged holon writes the edited holon in its place. -/
theorem edit_of_turns {target : StagedReference} {e : Edit} (h : server.Turns session order session')
    (hcommand : server.store.command? session order = some (target, [.edit e])) :
    ∃ g g', session.getStaged target = .ok (.staged g) ∧ g.edit e = (.ok (), g') ∧
      session' = session.withStaged (session.stagedHolons.insert target.id (.staged g')) := by
  obtain ⟨q, ids, hasked, hsuccess, hsnapshot⟩ := h
  obtain ⟨order', served, horder, hgives, hhandle⟩ := gives_of_isSuccess hsuccess
  obtain rfl : order = order' := Except.ok.inj (hasked.understood.symm.trans horder)
  obtain rfl : served.session = session' := by
    rw [hhandle] at hsnapshot
    exact Option.some.inj hsnapshot
  rw [hasked.state] at hgives
  exact hgives.edited hcommand

variable {target : StagedReference} {relationship : RelationshipName} {holons : List Reference}

/-- The batch that a server adds for some holons: each under the key that the session or the store knows for it. -/
def keyed (server : Server) (session : SessionState) (holons : List Reference) : List Collection.Entry :=
  holons.map fun r => (r, server.store.referenceKey? session r)

theorem map_fst_keyed (server : Server) (session : SessionState) (holons : List Reference) :
    (server.keyed session holons).map Prod.fst = holons := by
  rw [keyed, List.map_map]
  exact List.map_id _

/-- **Relating holons to a target** puts them behind the members that it has. -/
theorem adds_of_turns (h : server.Turns session (.addRelated target relationship holons) session') :
    ∃ c, ((session.collection? (.staged target) relationship).getD (.new .staged)).addReferences
        (server.keyed session holons) = .ok c ∧
      session.Recollects session' target relationship c := by
  obtain ⟨g, g', hget, hedit, rfl⟩ := edit_of_turns h rfl
  obtain ⟨c, hadd, hrelationships⟩ := StagedHolon.edit_addRelated_ok hedit
  refine ⟨c, ?_, g, g', hget, hrelationships, rfl⟩
  rw [SessionState.collection?_of_pooled (SessionState.pooled?_of_getStaged hget)]
  exact hadd

/-- **Taking holons away from a target** leaves the other members. -/
theorem removes_of_turns (h : server.Turns session (.removeRelated target relationship holons) session') :
    ∃ c, session.collection? (.staged target) relationship = some c ∧
      session.Recollects session' target relationship (c.removeReferences holons) := by
  obtain ⟨g, g', hget, hedit, rfl⟩ := edit_of_turns h rfl
  obtain ⟨c, hc, hrelationships⟩ := StagedHolon.edit_removeRelated_ok hedit
  refine ⟨c, ?_, g, g', hget, hrelationships, rfl⟩
  rw [SessionState.collection?_of_pooled (SessionState.pooled?_of_getStaged hget)]
  exact hc

/-- A query is answered with what its sources lead to, and the server is as it was. -/
theorem handle_query {sources : NodeCollection} {query : QueryExpression} {q : DanceRequest}
    (hasked : server.Asked session (.query sources query) q) (ids : IdSource) :
    (server.handle q ids).1 =
      match session.related query.relationship sources.members with
      | .ok members => (.ok server.space (.nodes ⟨members, some query⟩) session, server)
      | .error e => (.ofRefusal server.space e, server) := by
  cases hrelated : session.related query.relationship sources.members with
  | ok members =>
    have hreading : server.store.reading? server.embedProperties q.context.state (.query sources query) =
        some (.ok (.nodes ⟨members, some query⟩)) := by
      rw [hasked.state, Store.reading?, hrelated]
      rfl
    rw [handle_of_reading ids hasked.ready hasked.understood hreading, hasked.state]
  | error e =>
    simp only [handle, hasked.ready, hasked.understood, hasked.state, Store.run, hrelated]
    rfl

/-- **A query succeeds just if all its sources resolve**, and then answers with the members of each in turn. -/
theorem query_answers {sources : NodeCollection} {query : QueryExpression} {q : DanceRequest}
    (hasked : server.Asked session (.query sources query) q) (ids : IdSource) :
    ((server.handle q ids).1.1.status.isSuccess = true ↔
      ∀ r ∈ sources.members, r.isPooled = true → session.Resolves r) ∧
    ((server.handle q ids).1.1.status.isSuccess = true →
      (server.handle q ids).1.1 = .ok server.space
        (.nodes ⟨sources.members.flatMap (session.membersOf query.relationship), some query⟩) session) ∧
    (server.handle q ids).1.2 = server := by
  rw [handle_query hasked ids]
  cases hrelated : session.related query.relationship sources.members with
  | ok members =>
    obtain ⟨hresolves, rfl⟩ := SessionState.related_eq_ok_iff.1 hrelated
    exact ⟨⟨fun _ => hresolves, fun _ => rfl⟩, fun _ => rfl, rfl⟩
  | error e =>
    have hrefused : ¬ (DanceResponse.ofRefusal server.space e).status.isSuccess = true := by
      rw [DanceResponse.ofRefusal, Status.isSuccess_ofRefusal]
      exact Bool.false_ne_true
    refine ⟨⟨fun h => absurd h hrefused, fun hresolves => ?_⟩, fun h => absurd h hrefused, rfl⟩
    cases hrelated.symm.trans (SessionState.related_eq_ok_iff.2 ⟨hresolves, rfl⟩)

end Server

namespace SessionState

/-- Whichever server is asked, the sources lead to these members, and nothing has changed then. -/
def Finds (s : SessionState) (relationship : RelationshipName) (sources members : List Reference) : Prop :=
  ∀ (server : Server) (q : DanceRequest) (ids : IdSource) (query : Option QueryExpression),
    server.Asked s (.query ⟨sources, query⟩ ⟨relationship⟩) q →
      (server.handle q ids).1 = (.ok server.space (.nodes ⟨members, some ⟨relationship⟩⟩) s, server)

variable {s s' : SessionState} {relationship : RelationshipName} {sources members : List Reference}

theorem finds_iff_related : s.Finds relationship sources members ↔ s.related relationship sources = .ok members := by
  constructor
  · intro h
    let server := Server.new ⟨""⟩
    have hasked := Server.asked_new server rfl (.queryRelationships ⟨sources, none⟩ relationship) ⟨""⟩ s
    have hanswer := h server _ default none hasked
    rw [Server.handle_query hasked] at hanswer
    cases hrelated : s.related relationship sources with
    | ok found =>
      rw [hrelated] at hanswer
      cases hanswer
      rfl
    | error e =>
      rw [hrelated] at hanswer
      cases congrArg (fun answered => answered.1.snapshot) hanswer
  · intro h server q ids query hasked
    rw [Server.handle_query hasked ids, h]

/-- Every query that does not go over the relationship from the target is answered alike. -/
def AgreesBeside (s s' : SessionState) (target : StagedReference) (relationship : RelationshipName) : Prop :=
  ∀ name sources members, name ≠ relationship ∨ .staged target ∉ sources →
    (s'.Finds name sources members ↔ s.Finds name sources members)

variable {target : StagedReference} {c : Collection}

theorem Recollects.agreesBeside (h : s.Recollects s' target relationship c) :
    s.AgreesBeside s' target relationship := by
  intro name sources members hne
  rw [finds_iff_related, finds_iff_related, h.related_iff hne]

theorem Recollects.finds (h : s.Recollects s' target relationship c) :
    s'.Finds relationship [.staged target] c.members := by
  have hmembers : s'.membersOf relationship (.staged target) = c.members := by
    rw [membersOf, h.collection?_self, if_pos rfl]
  rw [finds_iff_related, related_singleton (h.resolves_iff.2 h.resolves), hmembers]

end SessionState

end Holarchy
