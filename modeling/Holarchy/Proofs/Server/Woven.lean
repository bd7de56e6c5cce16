import Holarchy.Proofs.Server.Related
/-!
# Relationships that dances have built

The relationships of a holon that nothing but dances has touched hold what was related to it and not taken away since,
each reference under the key that was known for it when it was added.  `Woven` follows such a holon from dance to dance;
the index of its collections never loses sight of a member.
-/
namespace Holarchy

/-- What stands under each relationship of a holon. -/
abbrev Web := RelationshipName → List Collection.Entry

namespace Web

def adding (web : Web) (relationship : RelationshipName) (batch : List Collection.Entry) : Web := fun name =>
  if name = relationship then web name ++ batch else web name

def removing (web : Web) (relationship : RelationshipName) (holons : List Reference) : Web := fun name =>
  if name = relationship then (web name).filter fun e => !holons.contains e.1 else web name

end Web

namespace SessionState

/-- The member that stands under a key in a relationship of a holon. -/
def memberUnder? (s : SessionState) (r : Reference) (relationship : RelationshipName) (key : String) :
    Option Reference :=
  (s.collection? r relationship).bind fun c => c.getByKey? key

/-- Whatever a web has under a key is found there. -/
def Keeps (s : SessionState) (r : Reference) (web : Web) : Prop :=
  ∀ name key member, (member, some key) ∈ web name → s.memberUnder? r name key = some member

theorem memberUnder?_eq (s : SessionState) (r : Reference) (relationship : RelationshipName) (key : String) :
    s.memberUnder? r relationship key = ((s.collection? r relationship).getD (.new .staged)).getByKey? key := by
  rw [memberUnder?]
  cases s.collection? r relationship <;> rfl

end SessionState

/-- The relationships of a holon were built by dances, and this is what they hold.  A copy of a holon has its
relationships in another state.  No collection has more members than there are positions; no list in memory is that
long. -/
inductive Woven : RelationshipMap → Web → Prop where
  | new : Woven ∅ fun _ => []
  | inState {relationships : RelationshipMap} {web : Web} (state : CollectionState) :
    Woven relationships web → Woven (relationships.withState state) web
  | added {server : Server} {session session' : SessionState} {target : StagedReference}
    {relationship : RelationshipName} {holons : List Reference} {h h' : Holon} {web : Web} :
    server.Turns session (.addRelated target relationship holons) session' →
    session.pooled? (.staged target) = some h → session'.pooled? (.staged target) = some h' →
    Woven h.relationships web → (web relationship).length + holons.length ≤ UInt64.size →
    Woven h'.relationships (web.adding relationship (server.keyed session holons))
  | removed {server : Server} {session session' : SessionState} {target : StagedReference}
    {relationship : RelationshipName} {holons : List Reference} {h h' : Holon} {web : Web} :
    server.Turns session (.removeRelated target relationship holons) session' →
    session.pooled? (.staged target) = some h → session'.pooled? (.staged target) = some h' →
    Woven h.relationships web → Woven h'.relationships (web.removing relationship holons)

/-- Every collection of the map lists what the web has under its name. -/
def RelationshipMap.Holds (relationships : RelationshipMap) (web : Web) : Prop :=
  ∀ name, (web name).length ≤ UInt64.size ∧
    ∃ state, ((relationships.get? name).getD (.new .staged)).Lists state (web name)

namespace RelationshipMap

variable {relationships relationships' : RelationshipMap} {web web' : Web} {name : RelationshipName} {c : Collection}

/-- One collection is replaced, and the others are what they were. -/
theorem Holds.insert (h : relationships.Holds web) (hothers : ∀ other, other ≠ name → web' other = web other)
    (hfits : (web' name).length ≤ UInt64.size) (hlists : ∃ state, c.Lists state (web' name)) :
    Holds (SortedMap.insert relationships name c) web' := by
  intro other
  rw [SortedMap.get?_insert]
  by_cases hother : other = name
  · subst hother
    rw [if_pos rfl]
    exact ⟨hfits, hlists⟩
  · rw [if_neg hother, hothers other hother]
    exact h other

theorem Holds.withState (h : relationships.Holds web) (state : CollectionState) :
    (relationships.withState state).Holds web := by
  intro name
  obtain ⟨hfits, state', hlists⟩ := h name
  refine ⟨hfits, ?_⟩
  rw [RelationshipMap.withState, SortedMap.get?_mapValues]
  cases hget : relationships.get? name with
  | none =>
    rw [hget] at hlists
    exact ⟨state', hlists⟩
  | some c =>
    rw [hget] at hlists
    exact ⟨state, hlists.withState state⟩

end RelationshipMap

namespace Woven

variable {s : SessionState} {r member : Reference} {h : Holon} {relationships : RelationshipMap} {web : Web}
  {name : RelationshipName} {key : String}

/-- **What was woven is what is there.** -/
theorem holds (hwoven : Woven relationships web) : relationships.Holds web := by
  induction hwoven with
  | new => exact fun name => ⟨Nat.zero_le _, .staged, Collection.lists_new .staged⟩
  | inState state _ ih => exact ih.withState state
  | @added server session _ _ relationship holons _ _ web hturns hget hget' _ hfits ih =>
    obtain ⟨c, hadd, hrecollects⟩ := Server.adds_of_turns hturns
    rw [SessionState.collection?_of_pooled hget] at hadd
    obtain ⟨hsize, state, hlists⟩ := ih relationship
    have hweb : web.adding relationship (server.keyed session holons) relationship =
        web relationship ++ server.keyed session holons := if_pos rfl
    rw [hrecollects.relationships_eq hget hget']
    refine ih.insert (fun other hother => if_neg hother) ?_ ⟨state, ?_⟩
    · rw [hweb, List.length_append, Server.keyed, List.length_map]
      exact hfits
    · rw [hweb]
      exact hlists.add (hlists.size_eq ▸ hsize) hadd
  | @removed _ _ _ _ relationship holons _ _ web hturns hget hget' _ ih =>
    obtain ⟨c, hc, hrecollects⟩ := Server.removes_of_turns hturns
    rw [SessionState.collection?_of_pooled hget] at hc
    obtain ⟨hsize, state, hlists⟩ := ih relationship
    have hweb : web.removing relationship holons relationship =
        (web relationship).filter fun e => !holons.contains e.1 := if_pos rfl
    rw [hc, Option.getD_some] at hlists
    rw [hrecollects.relationships_eq hget hget']
    refine ih.insert (fun other hother => if_neg hother) ?_ ⟨state, ?_⟩
    · rw [hweb]
      exact Nat.le_trans (List.length_filter_le _ _) hsize
    · rw [hweb]
      exact hlists.step (hlists.size_eq ▸ hsize) (.remove holons)

/-- The members that a query finds are those of the web. -/
theorem members_eq (hwoven : Woven h.relationships web) (hget : s.pooled? r = some h) :
    s.membersOf name r = (web name).map Prod.fst := by
  obtain ⟨-, state, hlists⟩ := hwoven.holds name
  rw [s.membersOf_eq, SessionState.collection?_of_pooled hget, hlists.image, Collection.members_ofEntries]

/-- **What the web has under a key is found under it.** -/
theorem keeps (hwoven : Woven h.relationships web) (hget : s.pooled? r = some h) : s.Keeps r web := by
  intro name key member hmem
  obtain ⟨hsize, state, hlists⟩ := hwoven.holds name
  rw [s.memberUnder?_eq, SessionState.collection?_of_pooled hget]
  exact hlists.getByKey?_eq_some hsize hmem

end Woven

/-- **Relationship dances and queries agree.**  A query succeeds just if every source from a pool is of the transaction
and in its pool; then it answers with the members that the relationship has at each source in turn, and the session and
the server are as they were.  Once holons have been related to a target, the query from it finds them behind the members
that it found before; once they have been taken away again, it finds the earlier members that are none of them.  No
other query is answered differently.  Where the relationships were built by dances alone, the earlier members are those
that the dances added and did not take away, and whatever was added under a key and is still there is found under it. -/
theorem relations_follow_dances :
    (∀ {server : Server} {session : SessionState} {sources : NodeCollection} {query : QueryExpression}
        {q : DanceRequest} (ids : IdSource), server.Asked session (.query sources query) q →
      ((server.handle q ids).1.1.status.isSuccess = true ↔
        ∀ r ∈ sources.members, r.isPooled = true → session.Resolves r) ∧
      ((server.handle q ids).1.1.status.isSuccess = true →
        (server.handle q ids).1.1 = .ok server.space
          (.nodes ⟨sources.members.flatMap (session.membersOf query.relationship), some query⟩) session) ∧
      (server.handle q ids).1.2 = server) ∧
    ∀ {server : Server} {session session' : SessionState} {target : StagedReference}
      {relationship : RelationshipName} {holons : List Reference},
      server.Turns session (.addRelated target relationship holons) session' →
      ∃ earlier, session.Finds relationship [.staged target] earlier ∧
        session'.Finds relationship [.staged target] (earlier ++ holons) ∧
        session.AgreesBeside session' target relationship ∧
        (∀ {server' : Server} {session'' : SessionState},
          server'.Turns session' (.removeRelated target relationship holons) session'' →
          session''.Finds relationship [.staged target] (earlier.filter fun r => !holons.contains r) ∧
            session'.AgreesBeside session'' target relationship) ∧
        ∀ {h : Holon} {web : Web}, session.pooled? (.staged target) = some h → Woven h.relationships web →
          (web relationship).length + holons.length ≤ UInt64.size →
          let batch := server.keyed session holons
          earlier = (web relationship).map Prod.fst ∧
            session'.Keeps (.staged target) (web.adding relationship batch) ∧
            ∀ {server' : Server} {session'' : SessionState},
              server'.Turns session' (.removeRelated target relationship holons) session'' →
              session''.Keeps (.staged target) ((web.adding relationship batch).removing relationship holons) := by
  refine ⟨fun ids hasked => Server.query_answers hasked ids, fun {server session session' target relationship holons}
    hadds => ?_⟩
  obtain ⟨c, hadd, hafter⟩ := Server.adds_of_turns hadds
  obtain ⟨h', hget'⟩ := hafter.exists_pooled_after
  have hmembers : c.members = session.membersOf relationship (.staged target) ++ holons := by
    rw [Collection.members_addReferences hadd, server.map_fst_keyed, session.membersOf_eq]
  refine ⟨session.membersOf relationship (.staged target), ?_, hmembers ▸ hafter.finds, hafter.agreesBeside,
    fun hremoves => ?_, fun {h web} hget hwoven hfits => ?_⟩
  · exact SessionState.finds_iff_related.2 (SessionState.related_singleton hafter.resolves)
  · obtain ⟨c', hc', hthen⟩ := Server.removes_of_turns hremoves
    obtain rfl : c = c' := by
      rw [hafter.collection?_self, if_pos rfl] at hc'
      exact Option.some.inj hc'
    have hrest : (c.removeReferences holons).members =
        (session.membersOf relationship (.staged target)).filter fun r => !holons.contains r := by
      have hnone : (holons.filter fun r => !holons.contains r) = [] := by simp
      rw [Collection.members_removeReferences, hmembers, List.filter_append, hnone, List.append_nil]
    exact ⟨hrest ▸ hthen.finds, hthen.agreesBeside⟩
  · have hadded : Woven h'.relationships (web.adding relationship (server.keyed session holons)) :=
      .added hadds hget hget' hwoven hfits
    refine ⟨hwoven.members_eq hget, hadded.keeps hget', fun hremoves => ?_⟩
    obtain ⟨c', -, hthen⟩ := Server.removes_of_turns hremoves
    obtain ⟨h'', hget''⟩ := hthen.exists_pooled_after
    exact (Woven.removed hremoves hget' hget'' hadded).keeps hget''

namespace Server

/-- A persisted holon, which has no key. -/
def stranger : Reference := .smart ⟨⟨1⟩, .local (.numbered 1), none⟩

def draftNamed (n : Nat) : Reference := .staged ⟨⟨1⟩, .numbered n⟩

/-- What the first draft is asked to do about its friends, and the session then. -/
def befriending (session : SessionState) (order : StagedReference → RelationshipName → List Reference → Dance)
    (friends : List Reference) : SessionState :=
  let d := order ⟨⟨1⟩, .numbered 1⟩ ⟨"friends"⟩ friends
  ((withOne.handle (.new d.name d.kind d.body ⟨"local"⟩ session) default).1.1.snapshot).getD session

/-- The first draft has two friends. -/
def befriended : SessionState := befriending drafts .addRelatedHolons [stranger, draftNamed 2]

/-- It has three more, of whom one is new. -/
def sociable : SessionState := befriending befriended .addRelatedHolons [stranger, draftNamed 3, stranger]

/-- It has none of the three any more. -/
def withdrawn : SessionState := befriending sociable .removeRelatedHolons [stranger, draftNamed 3, stranger]

end Server

/-- The friend that came twice and was there before goes altogether; the one that stays has another place and is found
under its key. -/
theorem relations_follow_dances_of_befriending :
    Server.sociable.Finds ⟨"friends"⟩ [Server.draftNamed 1]
        [Server.stranger, Server.draftNamed 2, Server.stranger, Server.draftNamed 3, Server.stranger] ∧
      Server.sociable.memberUnder? (Server.draftNamed 1) ⟨"friends"⟩ "third" = some (Server.draftNamed 3) ∧
      Server.withdrawn.Finds ⟨"friends"⟩ [Server.draftNamed 1] [Server.draftNamed 2] ∧
      Server.withdrawn.memberUnder? (Server.draftNamed 1) ⟨"friends"⟩ "second" = some (Server.draftNamed 2) ∧
      (Server.withOne.handle (.new "query_relationships"
          (.query ⟨[Server.draftNamed 1, Server.stranger, Server.draftNamed 3, Server.draftNamed 1], none⟩)
          (.queryExpression ⟨⟨"friends"⟩⟩) ⟨"local"⟩ Server.withdrawn) default).1 =
        (.ok ⟨"local"⟩ (.nodes ⟨[Server.draftNamed 2, Server.draftNamed 2], some ⟨⟨"friends"⟩⟩⟩) Server.withdrawn,
          Server.withOne) := by
  have hfirst : Server.withOne.Turns Server.drafts
      (.addRelated ⟨⟨1⟩, .numbered 1⟩ ⟨"friends"⟩ [Server.stranger, Server.draftNamed 2]) Server.befriended :=
    ⟨_, default, Server.asked_new _ rfl (.addRelatedHolons ..) ⟨"local"⟩ _, by decide +kernel, by decide +kernel⟩
  have hsecond : Server.withOne.Turns Server.befriended
      (.addRelated ⟨⟨1⟩, .numbered 1⟩ ⟨"friends"⟩ [Server.stranger, Server.draftNamed 3, Server.stranger])
      Server.sociable :=
    ⟨_, default, Server.asked_new _ rfl (.addRelatedHolons ..) ⟨"local"⟩ _, by decide +kernel, by decide +kernel⟩
  have hthird : Server.withOne.Turns Server.sociable
      (.removeRelated ⟨⟨1⟩, .numbered 1⟩ ⟨"friends"⟩ [Server.stranger, Server.draftNamed 3, Server.stranger])
      Server.withdrawn :=
    ⟨_, default, Server.asked_new _ rfl (.removeRelatedHolons ..) ⟨"local"⟩ _, by decide +kernel, by decide +kernel⟩
  obtain ⟨hqueries, hdances⟩ := relations_follow_dances
  obtain ⟨h, hget⟩ : ∃ h, Server.befriended.pooled? (Server.draftNamed 1) = some h :=
    Option.isSome_iff_exists.1 (by decide +kernel)
  -- The draft had no relationships when it was staged.
  have hwoven : Woven h.relationships _ :=
    .added hfirst (h := .staged (Server.draft "first" .forCreate)) (by decide +kernel) hget .new (by decide)
  obtain ⟨earlier, -, hfound, -, hremoved, hkeys⟩ := hdances hsecond
  obtain ⟨rfl, hkept, hleft⟩ := hkeys hget hwoven (by decide +kernel)
  obtain ⟨hrest, -⟩ := hremoved hthird
  have hasked := Server.asked_new .withOne rfl (.queryRelationships ⟨[Server.draftNamed 1,
    Server.stranger, Server.draftNamed 3, Server.draftNamed 1], none⟩ ⟨"friends"⟩) ⟨"local"⟩ Server.withdrawn
  obtain ⟨hsuccess, hanswer, hserver⟩ := hqueries default hasked
  refine ⟨hfound, hkept _ _ _ (by decide +kernel), hrest, hleft hthird _ _ _ (by decide +kernel), ?_⟩
  exact Prod.ext ((hanswer (hsuccess.2 (by decide +kernel))).trans (by decide +kernel)) hserver

end Holarchy
