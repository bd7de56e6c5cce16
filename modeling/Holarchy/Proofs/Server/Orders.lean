import Holarchy.Proofs.Server.Draws
import Holarchy.Proofs.Server.Effects
import Holarchy.Proofs.Server.Overwriting
/-!
# What an order gives

An order that is not refused gives one of eight things, and `Store.Gives` lists them: the answer, the session and the
store after it, and how far it has gone in the source of ids.  What an order may change is read off this list.
-/
namespace Holarchy

namespace Holon

/-- Operations one after the other, none of them refused, lead from one holon to another. -/
def Performs : Holon → List Operation → Holon → Prop
  | h, [], h' => h' = h
  | h, op :: ops, h' => ∃ next, h.perform? op = some (.ok (), next) ∧ next.Performs ops h'

theorem Performs.append {h h' h'' : Holon} {ops ops' : List Operation} (hfirst : h.Performs ops h')
    (hthen : h'.Performs ops' h'') : h.Performs (ops ++ ops') h'' := by
  induction ops generalizing h with
  | nil => cases hfirst; exact hthen
  | cons op ops ih =>
    obtain ⟨next, hop, hrest⟩ := hfirst
    exact ⟨next, hop, ih hrest⟩

theorem performs_singleton {h h' : Holon} {op : Operation} (hop : h.perform? op = some (.ok (), h')) :
    h.Performs [op] h' := ⟨h', hop, rfl⟩

end Holon

namespace StagedHolon

theorem performs_of_edited {h h' : StagedHolon} {e : Edit} (hedit : h.edited e = .ok h') :
    (Holon.staged h).Performs [.edit e] (.staged h') := by
  refine Holon.performs_singleton ?_
  unfold edited at hedit
  split at hedit
  · rename_i hok
    cases hedit
    simp only [Holon.perform?, hok]
  · cases hedit

theorem performs_of_withoutProperties {h h' : StagedHolon} {names : List PropertyName}
    (hwithout : h.withoutProperties names = .ok h') :
    (Holon.staged h).Performs (names.map fun name => .edit (.removeProperty name)) (.staged h') := by
  induction names generalizing h with
  | nil => cases hwithout; rfl
  | cons name names ih =>
    rw [withoutProperties] at hwithout
    obtain ⟨next, hedit, hrest⟩ := exists_of_bind_eq_ok hwithout
    exact (performs_of_edited hedit).append (ih hrest)

theorem performs_of_abandon {h h' : StagedHolon} (habandon : h.abandon = .ok h') :
    (Holon.staged h).Performs [.abandon] (.staged h') := by
  refine Holon.performs_singleton ?_
  simp only [Holon.perform?, habandon, Except.map, Holon.settle]

end StagedHolon

theorem SessionState.updateStaged_ok {s s' : SessionState} {target : StagedReference} {body : ResponseBody}
    {change : StagedHolon → Except Refusal StagedHolon} (h : s.updateStaged target change = .ok (body, s')) :
    ∃ g g', s.getStaged target = .ok (.staged g) ∧ change g = .ok g' ∧ body = .reference (.staged target) ∧
      s' = s.withStaged (s.stagedHolons.insert target.id (.staged g')) := by
  unfold updateStaged at h
  obtain ⟨holon, hstaged, h⟩ := exists_of_bind_eq_ok h
  obtain ⟨⟨pool, _⟩, hupdate, h⟩ := exists_of_bind_eq_ok h
  cases h
  simp only [Pool.update, (getStaged_eq_ok_iff.1 hstaged).2] at hupdate
  cases holon with
  | staged g =>
    simp only at hupdate
    cases hchange : change g with
    | error e => rw [hchange] at hupdate; cases hupdate
    | ok g' =>
      rw [hchange] at hupdate
      cases hupdate
      exact ⟨g, g', hstaged, hchange, rfl, rfl⟩
  | _ => cases hupdate

namespace Store

/-- The staged holon that an order commands, and the operations that are done to it.  A holon that is related stands
under the key that the session or the store knows for it at that moment. -/
def command? (s : Store) (session : SessionState) : Order → Option (StagedReference × List Holon.Operation)
  | .withProperties target properties => some (target, [.edit (.updateProperties properties)])
  | .removeProperties target named => some (target, named.keys.map fun name => .edit (.removeProperty name))
  | .addRelated target relationship holons =>
    some (target, [.edit (.addRelated relationship (holons.map fun r => (r, s.referenceKey? session r)))])
  | .removeRelated target relationship holons => some (target, [.edit (.removeRelated relationship holons)])
  | .abandon target => some (target, [.abandon])
  | _ => none

/-- What is answered to an order that only reads. -/
def reading? (s : Store) (embed : Bool) (session : SessionState) : Order → Option (Except Refusal ResponseBody)
  | .getAll => some (.ok (.collection (s.allHolons embed session.txId)))
  | .getById id => some ((s.find id.localId).map fun h => .holon (.saved h))
  | .getStagedByKey properties => some ((findStaged session properties).map fun r => .reference (.staged r))
  | .query sources query =>
    some ((session.related query.relationship sources.members).map fun members => .nodes ⟨members, some query⟩)
  | _ => none

/-- The holons that a commit is about, if an order is one. -/
def committing? (session : SessionState) : Order → Option (List (TemporaryId × StagedHolon))
  | .commitAll => some (session.chosen .standalone)
  | .commitOne target => some (session.chosen (.command target))
  | _ => none

/-- What an order can give when it is not refused. -/
inductive Gives (s : Store) (embed : Bool) (session : SessionState) (ids : IdSource) :
    Order → Served → IdSource → Prop where
  | drafted (properties : PropertyMap) :
    Gives s embed session ids (.newHolon properties)
      ⟨.reference (.transient (session.transientReference ids.next)),
        { session with
          transientHolons := session.transientHolons.insert ids.next (.transient (.new properties)) }, s⟩ ids.advance
  | staged {g : Staging} {h : StagedHolon} {transient : Pool} : s.promoted session g = .ok (h, transient) →
    Gives s embed session ids g.order
      ⟨.reference (.staged (session.stagedReference (s.stagingId g ids).1)),
        session.gaining (s.stagingId g ids).1 h transient, s⟩ (s.stagingId g ids).2
  | loaded (content : ContentSet) (hs : List StagedHolon) :
    Gives s embed session ids (.load content)
      ⟨.holons (hs.map .staged), session.withStaged (session.stagedHolons.insertDrawn ids hs), s⟩ (ids.past hs.length)
  | commanded {order : Order} {target : StagedReference} {ops : List Holon.Operation} {g h : StagedHolon} :
    s.command? session order = some (target, ops) → session.getStaged target = .ok (.staged g) →
    (Holon.staged g).Performs ops (.staged h) →
    Gives s embed session ids order
      ⟨.reference (.staged target), session.withStaged (session.stagedHolons.insert target.id (.staged h)), s⟩ ids
  | committed {order : Order} {es : List (TemporaryId × StagedHolon)} {served : Served} :
    committing? session order = some es → (∀ target, order = .commitOne target → es ≠ []) →
    s.Commits session es served → Gives s embed session ids order served ids
  | answered {order : Order} {body : ResponseBody} : s.reading? embed session order = some (.ok body) →
    Gives s embed session ids order ⟨body, session, s⟩ ids
  | deleted {id : LocalId} {h : SavedHolon} : s.saved.get? id = some h →
    Gives s embed session ids (.delete id) ⟨.none, session, { s with saved := s.saved.erase id }⟩ ids

theorem find_eq_ok_iff {s : Store} {id : LocalId} {h : SavedHolon} : s.find id = .ok h ↔ s.saved.get? id = some h := by
  unfold find
  cases s.saved.get? id <;> simp

variable {s : Store} {embed : Bool} {session : SessionState} {ids ids' : IdSource} {served : Served} {order : Order}

theorem gives_staging (g : Staging) (h : s.run embed session g.order ids = (.ok served, ids')) :
    s.Gives embed session ids g.order served ids' := by
  rw [run_staging] at h
  cases hp : s.promoted session g with
  | error e => rw [hp] at h; cases h
  | ok p =>
    rw [hp] at h
    cases h
    exact .staged hp

theorem gives_command {target : StagedReference} {change : StagedHolon → Except Refusal StagedHolon}
    {ops : List Holon.Operation} (hcommand : s.command? session order = some (target, ops))
    (hchange : ∀ {g g'}, change g = .ok g' → (Holon.staged g).Performs ops (.staged g'))
    (h : (s.answering (session.updateStaged target change), ids) = (.ok served, ids')) :
    s.Gives embed session ids order served ids' := by
  obtain ⟨hserved, rfl⟩ := Prod.mk.inj h
  obtain ⟨⟨body, session'⟩, hupdate, rfl⟩ := exists_of_map_eq_ok hserved
  obtain ⟨g, g', hget, hg, rfl, rfl⟩ := SessionState.updateStaged_ok hupdate
  exact .commanded hcommand hget (hchange hg)

theorem gives_reading {outcome : Except Refusal ResponseBody} (hreading : s.reading? embed session order = some outcome)
    (h : (outcome.map fun body => (⟨body, session, s⟩ : Served), ids) = (.ok served, ids')) :
    s.Gives embed session ids order served ids' := by
  obtain ⟨hserved, rfl⟩ := Prod.mk.inj h
  obtain ⟨body, rfl, rfl⟩ := exists_of_map_eq_ok hserved
  exact .answered hreading

/-- **The list is complete**: an order that is not refused gives one of these things. -/
theorem gives_of_run (h : s.run embed session order ids = (.ok served, ids')) :
    s.Gives embed session ids order served ids' := by
  cases order with
  | newHolon properties => cases h; exact .drafted properties
  | stage holon => exact gives_staging (.holon holon) h
  | stageTransient target => exact gives_staging (.pooled target) h
  | clone source => exact gives_staging (.clone source) h
  | newVersion id => exact gives_staging (.version id) h
  | withProperties target properties => exact gives_command rfl StagedHolon.performs_of_edited h
  | removeProperties target named => exact gives_command rfl StagedHolon.performs_of_withoutProperties h
  | addRelated target relationship holons => exact gives_command rfl StagedHolon.performs_of_edited h
  | removeRelated target relationship holons => exact gives_command rfl StagedHolon.performs_of_edited h
  | abandon target => exact gives_command rfl StagedHolon.performs_of_abandon h
  | commitAll =>
    obtain ⟨served', hrun, hcommits⟩ := s.run_commitAll embed session ids
    obtain rfl : ids' = ids := (Prod.mk.inj h).2.symm
    rw [h] at hrun
    cases hrun
    exact .committed rfl (fun target htarget => by cases htarget) hcommits
  | commitOne target =>
    obtain ⟨htx, g, hget, hpending⟩ := run_commitOne_ok (congrArg Prod.fst h)
    obtain ⟨served', hrun, hcommits⟩ := s.run_commitOne embed htx hget hpending ids
    have hids : ids' = ids := by
      have hsnd := congrArg Prod.snd h
      simp only [run, SessionState.getStaged_eq_ok_iff.2 ⟨htx, hget⟩] at hsnd
      exact hsnd.symm
    rw [hids]
    rw [h] at hrun
    cases hrun
    refine .committed rfl (fun _ _ hnil => ?_) hcommits
    simp only [SessionState.chosen, hget] at hnil
    cases hnil
  | getAll => exact gives_reading rfl h
  | getById id =>
    refine gives_reading rfl ?_
    rw [← h, run]
    cases s.find id.localId <;> rfl
  | getStagedByKey properties =>
    refine gives_reading rfl ?_
    rw [← h, run]
    cases findStaged session properties <;> rfl
  | query sources query =>
    refine gives_reading rfl ?_
    rw [← h, run]
    cases session.related query.relationship sources.members <;> rfl
  | delete id =>
    obtain ⟨hserved, rfl⟩ := Prod.mk.inj h
    obtain ⟨holon, hfind, rfl⟩ := exists_of_map_eq_ok hserved
    exact .deleted (find_eq_ok_iff.1 hfind)
  | load content =>
    rw [run] at h
    obtain ⟨described, -, hload⟩ | ⟨e, n, -, hload⟩ := loadFiles_cases session content.files ids
    · rw [hload] at h
      cases h
      have hloaded : s.Gives embed session ids (.load content) _ _ := .loaded content (described.flatten.map .created)
      rw [List.length_map] at hloaded
      exact hloaded
    · rw [hload] at h
      cases h

end Store

namespace IdSource

/-- The id is among those drawn on the way from one source to another. -/
def Draws (ids ids' : IdSource) (id : TemporaryId) : Prop :=
  ∃ n, ids.drawn ≤ n ∧ n < ids'.drawn ∧ ids.stream n = id

theorem draws_advance_iff {ids : IdSource} {id : TemporaryId} : ids.Draws ids.advance id ↔ id = ids.next := by
  constructor
  · rintro ⟨n, hle, hlt, rfl⟩
    have hn : n = ids.drawn := Nat.le_antisymm (Nat.le_of_lt_succ hlt) hle
    rw [hn]
    rfl
  · rintro rfl
    exact ⟨ids.drawn, Nat.le_refl _, Nat.lt_succ_self _, rfl⟩

theorem not_draws_self (ids : IdSource) (id : TemporaryId) : ¬ ids.Draws ids id := by
  rintro ⟨n, hle, hlt, -⟩
  omega

end IdSource

namespace Pool

theorem get?_insertDrawn (p : Pool) {ids : IdSource} {hs : List StagedHolon} {id : TemporaryId}
    (h : ¬ ids.Draws (ids.past hs.length) id) : (p.insertDrawn ids hs).get? id = p.get? id := by
  induction hs generalizing p ids with
  | nil => rfl
  | cons holon hs ih =>
    have hne : id ≠ ids.next := by
      rintro rfl
      exact h ⟨ids.drawn, Nat.le_refl _, Nat.lt_add_of_pos_right (Nat.succ_pos _), rfl⟩
    have hrest : ¬ ids.advance.Draws (ids.advance.past hs.length) id := by
      rintro ⟨n, hle, hlt, hn⟩
      rw [ids.past_succ] at hlt
      exact h ⟨n, Nat.le_of_succ_le hle, hlt, hn⟩
    rw [insertDrawn, ih _ hrest, get?_insert, if_neg hne]

theorem get?_insertDrawn_of_draws (p : Pool) {ids : IdSource} {hs : List StagedHolon} {id : TemporaryId}
    (h : ids.Draws (ids.past hs.length) id) : ∃ holon, (p.insertDrawn ids hs).get? id = some (.staged holon) := by
  induction hs generalizing p ids with
  | nil => exact absurd h (ids.not_draws_self id)
  | cons holon hs ih =>
    by_cases hrest : ids.advance.Draws (ids.advance.past hs.length) id
    · exact ih _ hrest
    · -- It is the first one that was drawn, and not drawn again.
      obtain ⟨n, hle, hlt, rfl⟩ := h
      have hfirst : n = ids.drawn := by
        refine Nat.le_antisymm (Nat.le_of_not_lt fun hlater => hrest ⟨n, hlater, ?_, rfl⟩) hle
        rw [ids.past_succ]
        exact hlt
      refine ⟨holon, ?_⟩
      have hnext : ids.stream n = ids.next := by rw [hfirst]; rfl
      rw [insertDrawn, get?_insertDrawn _ hrest, get?_insert, if_pos hnext]
      rfl

theorem Indexed.insertDrawn {p : Pool} (h : p.Indexed) (ids : IdSource) (hs : List StagedHolon) :
    (p.insertDrawn ids hs).Indexed := by
  induction hs generalizing p ids with
  | nil => exact h
  | cons holon hs ih => exact ih (h.insert ids.next _) ids.advance

theorem contains_insert {p : Pool} {id j : TemporaryId} {h : Holon} :
    (p.insert id h).contains j = true ↔ j = id ∨ p.contains j = true := by
  rw [contains_iff, contains_iff, get?_insert]
  by_cases hj : j = id <;> simp [hj]

theorem contains_of_remove {p : Pool} {id j : TemporaryId} (h : (p.remove id).contains j = true) :
    p.contains j = true := by
  rw [contains_iff] at h ⊢
  obtain ⟨holon, hget⟩ := h
  rw [get?_remove] at hget
  split at hget
  · cases hget
  · exact ⟨holon, hget⟩

end Pool

namespace Store

variable {s : Store} {embed : Bool} {session : SessionState} {ids ids' : IdSource} {served : Served} {order : Order}

/-- A successor may be staged under an id that its key names; every other holon is staged under a fresh one. -/
theorem stagingId_cases (s : Store) (g : Staging) (ids : IdSource) :
    (∃ id key, g = .version id ∧ s.stagingId g ids = (.ofKey key, ids)) ∨
      s.stagingId g ids = (ids.next, ids.advance) := by
  cases g with
  | version id =>
    simp only [stagingId]
    cases hv : s.versionId? id with
    | none => exact .inr rfl
    | some t =>
      simp only [versionId?, Option.bind_eq_some_iff, Option.map_eq_some_iff] at hv
      obtain ⟨h, -, key, -, rfl⟩ := hv
      exact .inl ⟨id, _, rfl, rfl⟩
  | _ => exact .inr rfl

/-- Only the staging of a pooled holon takes something out of the transient pool. -/
theorem promoted_transient {g : Staging} {h : StagedHolon} {transient : Pool}
    (hp : s.promoted session g = .ok (h, transient)) :
    transient = session.transientHolons ∨
      ∃ target, g = .pooled target ∧ transient = session.transientHolons.remove target.id := by
  cases g with
  | holon holon =>
    simp only [promoted] at hp
    cases hstage : holon.stage with
    | error e => rw [hstage] at hp; cases hp
    | ok staged => rw [hstage] at hp; cases hp; exact .inl rfl
  | pooled target =>
    simp only [promoted] at hp
    cases htake : takeTransient session target with
    | error e => rw [htake] at hp; cases hp
    | ok taken =>
      rw [htake] at hp
      cases hp
      unfold takeTransient at htake
      obtain ⟨holon, -, htake⟩ := exists_of_bind_eq_ok htake
      obtain ⟨staged, -, htake⟩ := exists_of_bind_eq_ok htake
      cases htake
      exact .inr ⟨target, rfl, rfl⟩
  | clone source =>
    unfold promoted at hp
    obtain ⟨-, -, hp⟩ := exists_of_bind_eq_ok hp
    obtain ⟨holon, -, hp⟩ := exists_of_bind_eq_ok hp
    obtain ⟨copy, -, hp⟩ := exists_of_bind_eq_ok hp
    obtain ⟨staged, -, hp⟩ := exists_of_bind_eq_ok hp
    cases hp
    exact .inl rfl
  | version id =>
    unfold promoted at hp
    obtain ⟨holon, -, hp⟩ := exists_of_bind_eq_ok hp
    obtain ⟨staged, -, hp⟩ := exists_of_bind_eq_ok hp
    cases hp
    exact .inl rfl

/-- **No order changes the transaction or the space.** -/
theorem Gives.scope (h : s.Gives embed session ids order served ids') :
    served.session.txId = session.txId ∧ served.session.localHolonSpace = session.localHolonSpace := by
  cases h with
  | committed _ _ hcommits => rw [hcommits.others]; exact ⟨rfl, rfl⟩
  | _ => exact ⟨rfl, rfl⟩

/-- **Two orders change the transient pool**: one drafts a holon there, the other takes one out. -/
theorem Gives.transient (h : s.Gives embed session ids order served ids') :
    served.session.transientHolons = session.transientHolons ∨
      (∃ properties, order = .newHolon properties ∧ ids' = ids.advance ∧
        served.session.transientHolons = session.transientHolons.insert ids.next (.transient (.new properties))) ∨
      ∃ target, order = .stageTransient target ∧
        served.session.transientHolons = session.transientHolons.remove target.id := by
  cases h with
  | drafted properties => exact .inr (.inl ⟨properties, rfl, rfl, rfl⟩)
  | staged hp =>
    rcases promoted_transient hp with heq | ⟨target, rfl, heq⟩
    · exact .inl heq
    · exact .inr (.inr ⟨target, rfl, heq⟩)
  | committed _ _ hcommits => rw [hcommits.others]; exact .inl rfl
  | _ => exact .inl rfl

/-- **Every order keeps a sound session sound**, if what it draws is in neither pool and no transient holon stands under
an id that a key names. -/
theorem Gives.sound (h : s.Gives embed session ids order served ids') (hsound : session.Sound)
    (hfresh : ∀ id, ids.Draws ids' id → session.uses id = false)
    (hkeys : ∀ key, session.transientHolons.contains (.ofKey key) = false) : served.session.Sound := by
  have hfree {id : TemporaryId} (hid : ids.Draws ids' id) :
      session.transientHolons.contains id = false ∧ session.stagedHolons.contains id = false :=
    SessionState.uses_eq_false_iff.1 (hfresh id hid)
  cases h with
  | drafted properties =>
    refine ⟨hsound.transient.insert _ _, hsound.staged, fun id hid => ?_⟩
    rcases Pool.contains_insert.1 hid with rfl | hid
    · exact (hfree (IdSource.draws_advance_iff.2 rfl)).2
    · exact hsound.apart id hid
  | @staged g holon transient hp =>
    have hunused : session.transientHolons.contains (s.stagingId g ids).1 = false := by
      rcases s.stagingId_cases g ids with ⟨_, key, -, hid⟩ | hid
      · rw [hid]
        exact hkeys key
      · rw [hid] at hfree ⊢
        exact (hfree (IdSource.draws_advance_iff.2 rfl)).1
    have hpool : transient.Indexed ∧
        ∀ id, transient.contains id = true → session.transientHolons.contains id = true := by
      rcases promoted_transient hp with rfl | ⟨target, -, rfl⟩
      · exact ⟨hsound.transient, fun _ hid => hid⟩
      · exact ⟨hsound.transient.remove _, fun _ hid => Pool.contains_of_remove hid⟩
    refine ⟨hpool.1, hsound.staged.insert _ _, fun id hid => Bool.eq_false_iff.2 fun hstaged => ?_⟩
    have hid' := hpool.2 id hid
    rcases Pool.contains_insert.1 hstaged with rfl | hstaged
    · rw [hunused] at hid'
      cases hid'
    · rw [hsound.apart id hid'] at hstaged
      cases hstaged
  | loaded content hs =>
    refine ⟨hsound.transient, hsound.staged.insertDrawn ids hs, fun id hid => Bool.eq_false_iff.2 fun hstaged => ?_⟩
    by_cases hdrawn : ids.Draws (ids.past hs.length) id
    · exact Bool.eq_false_iff.1 (hfree hdrawn).1 hid
    · obtain ⟨holon, hget⟩ := Pool.contains_iff.1 hstaged
      have hget' := (session.stagedHolons.get?_insertDrawn hdrawn).symm.trans hget
      exact Bool.eq_false_iff.1 (hsound.apart id hid) (Pool.contains_iff.2 ⟨holon, hget'⟩)
  | commanded hcommand hget =>
    refine ⟨hsound.transient, hsound.staged.insert _ _, fun id hid => Bool.eq_false_iff.2 fun hstaged => ?_⟩
    have hstaged' : session.stagedHolons.contains id = true := by
      rcases Pool.contains_insert.1 hstaged with rfl | hstaged
      · exact Pool.contains_iff.2 ⟨_, (SessionState.getStaged_eq_ok_iff.1 hget).2⟩
      · exact hstaged
    exact Bool.eq_false_iff.1 (hsound.apart id hid) hstaged'
  | committed _ _ hcommits => exact hcommits.sound hsound
  | answered => exact hsound
  | deleted => exact hsound

/-- What an order draws is an id that it stages a holon under, unless it drafts one. -/
theorem Gives.staged_of_draws (h : s.Gives embed session ids order served ids')
    (hdraft : ∀ properties, order ≠ .newHolon properties) {id : TemporaryId} (hdrawn : ids.Draws ids' id) :
    ∃ holon, served.session.stagedHolons.get? id = some (.staged holon) := by
  cases h with
  | drafted properties => exact absurd rfl (hdraft properties)
  | @staged g holon =>
    refine ⟨holon, ?_⟩
    rcases s.stagingId_cases g ids with ⟨_, key, -, hid⟩ | hid
    · rw [hid] at hdrawn
      exact absurd hdrawn (ids.not_draws_self id)
    · rw [hid] at hdrawn
      rw [SessionState.get?_gaining, hid, if_pos (IdSource.draws_advance_iff.1 hdrawn)]
  | loaded content hs => exact session.stagedHolons.get?_insertDrawn_of_draws hdrawn
  | commanded => exact absurd hdrawn (ids.not_draws_self id)
  | committed => exact absurd hdrawn (ids.not_draws_self id)
  | answered => exact absurd hdrawn (ids.not_draws_self id)
  | deleted => exact absurd hdrawn (ids.not_draws_self id)

/-- The operations that an order does to the holon under an id: none unless it commands that one. -/
def operationsOn (s : Store) (session : SessionState) (id : TemporaryId) (order : Order) : List Holon.Operation :=
  match s.command? session order with
  | some (target, ops) => if target.id = id then ops else []
  | none => []

theorem operationsOn_of_command?_eq_none (h : s.command? session order = none) (id : TemporaryId) :
    s.operationsOn session id order = [] := by
  simp only [operationsOn, h]

theorem command?_staging (s : Store) (session : SessionState) (g : Staging) : s.command? session g.order = none := by
  cases g <;> rfl

/-- **What stands under an id after an order** stood there before, and has come through the operations that the order
does to it; unless it was staged then and there. -/
theorem Gives.performs (h : s.Gives embed session ids order served ids') {id : TemporaryId}
    (hdrawn : ¬ ids.Draws ids' id) (hkey : ∀ source, order = .newVersion source → ∀ key, id ≠ .ofKey key)
    {holon : Holon} (hget : served.session.stagedHolons.get? id = some holon) :
    ∃ before, session.stagedHolons.get? id = some before ∧
      before.Performs (s.operationsOn session id order) holon := by
  cases h with
  | drafted properties => exact ⟨holon, hget, rfl⟩
  | @staged g staged transient hp =>
    have hne : id ≠ (s.stagingId g ids).1 := by
      rcases s.stagingId_cases g ids with ⟨source, key, rfl, hid⟩ | hid
      · rw [hid]
        exact hkey source rfl key
      · rw [hid] at hdrawn ⊢
        exact fun heq => hdrawn (IdSource.draws_advance_iff.2 heq)
    rw [SessionState.get?_gaining, if_neg hne] at hget
    refine ⟨holon, hget, ?_⟩
    rw [operationsOn_of_command?_eq_none (s.command?_staging session g)]
    rfl
  | loaded content hs =>
    have hget' := (session.stagedHolons.get?_insertDrawn hdrawn).symm.trans hget
    exact ⟨holon, hget', rfl⟩
  | @commanded _ target ops g g' hcommand hstaged hperforms =>
    have hbefore := (SessionState.getStaged_eq_ok_iff.1 hstaged).2
    simp only [operationsOn, hcommand]
    have hentry := Pool.get?_insert session.stagedHolons target.id id (.staged g')
    by_cases hid : target.id = id
    · subst hid
      rw [if_pos rfl] at hentry ⊢
      cases hentry.symm.trans hget
      exact ⟨_, hbefore, hperforms⟩
    · rw [if_neg (Ne.symm hid)] at hentry
      rw [if_neg hid]
      exact ⟨holon, hentry.symm.trans hget, rfl⟩
  | committed hcommitting _ hcommits =>
    rw [Pool.get?, hcommits.staged, SortedMap.get?_filter_eq_some_iff] at hget
    refine ⟨holon, hget.1, ?_⟩
    have hnone : s.command? session order = none := by
      cases order <;> first | rfl | cases hcommitting
    rw [operationsOn_of_command?_eq_none hnone]
    rfl
  | answered hreading =>
    refine ⟨holon, hget, ?_⟩
    have hnone : s.command? session order = none := by
      cases order <;> first | rfl | cases hreading
    rw [operationsOn_of_command?_eq_none hnone]
    rfl
  | deleted => exact ⟨holon, hget, rfl⟩

end Store

/-- **What an answer of success is**: an order was run, and the answer and the server are what it gives. -/
theorem Server.gives_of_isSuccess {s : Server} {r : DanceRequest} {ids : IdSource}
    (h : (s.handle r ids).1.1.status.isSuccess = true) :
    ∃ order served, r.order s.space = .ok order ∧
      s.store.Gives s.embedProperties r.context.state ids order served (s.handle r ids).2 ∧
      (s.handle r ids).1 = (.ok s.space served.body served.session, { s with store := served.store }) := by
  obtain ⟨order, served, hready, horder, hrun⟩ := isSuccess_handle_iff.1 h
  refine ⟨order, served, horder, Store.gives_of_run ?_, handle_of_runs hready horder hrun⟩
  have hids : (s.handle r ids).2 = (s.runs r ids order).2 := by
    rw [runs] at hrun ⊢
    simp only [handle, hready, horder]
    generalize s.store.run s.embedProperties r.context.state order ids = ran at hrun ⊢
    obtain ⟨outcome, ids'⟩ := ran
    cases hrun
    rfl
  rw [hids, ← hrun]
  rfl

end Holarchy
