import Holarchy.Holon
import Holarchy.Proofs.Collection
import Holarchy.Proofs.SortedMap
/-!
# The life of a holon

A holon is made transient, edited, staged, edited again, and in the end abandoned or committed.  Each operation keeps
the fields of the holon in agreement with each other, also one that is refused after it has done part of its work.
-/
namespace Holarchy

namespace RelationshipMap

/-- Every collection is in the given state. -/
def AllIn (relationships : RelationshipMap) (state : CollectionState) : Prop :=
  ∀ name c, relationships.get? name = some c → c.state = state

variable {relationships : RelationshipMap} {state : CollectionState} {name : RelationshipName}

theorem allIn_empty (state : CollectionState) : AllIn ∅ state := fun _ _ h => by cases h

theorem allIn_withState (relationships : RelationshipMap) (state : CollectionState) :
    (relationships.withState state).AllIn state := by
  intro name c hget
  rw [RelationshipMap.withState, SortedMap.get?_mapValues] at hget
  obtain ⟨c', -, rfl⟩ := Option.map_eq_some_iff.1 hget
  rfl

theorem AllIn.insert (h : relationships.AllIn state) {c : Collection} (hc : c.state = state) :
    AllIn (SortedMap.insert relationships name c) state := by
  intro name' c' hget
  rw [SortedMap.get?_insert] at hget
  split at hget
  · cases hget
    exact hc
  · exact h name' c' hget

/-- A collection that is not there yet starts in the state of the others. -/
theorem AllIn.getD (h : relationships.AllIn state) :
    ((relationships.get? name).getD (.new state)).state = state := by
  cases hget : relationships.get? name with
  | none => rfl
  | some c => exact h name c hget

/-- Whether or not the batch is refused, the collection that it was meant for is there and in the right state. -/
theorem AllIn.addRelated (h : relationships.AllIn state) (name : RelationshipName)
    (batch : List (Reference × Option String)) : (relationships.addRelated name batch state).2.AllIn state := by
  unfold RelationshipMap.addRelated
  split
  · exact h
  · simp only
    split
    · rename_i hadd
      exact h.insert ((Collection.state_addReferences hadd).trans h.getD)
    · exact h.insert h.getD

theorem AllIn.removeRelated (h : relationships.AllIn state) {references : List Reference}
    {relationships' : RelationshipMap} (hremove : relationships.removeRelated name references = .ok relationships') :
    relationships'.AllIn state := by
  unfold RelationshipMap.removeRelated at hremove
  split at hremove
  · rename_i c hget
    cases hremove
    exact h.insert ((c.state_removeReferences references).trans (h name c hget))
  · cases hremove

end RelationshipMap

/-- An edit leaves every collection in the state it gives to new ones. -/
theorem Edit.allIn_apply {state : CollectionState} {c : Content} (h : c.relationships.AllIn state) (e : Edit) :
    (e.apply state c).2.relationships.AllIn state := by
  cases e with
  | setProperty | removeProperty | updateProperties => exact h
  | addRelated name batch => exact h.addRelated name batch
  | removeRelated name references =>
    simp only [apply]
    split
    · rename_i hremove
      exact h.removeRelated hremove
    · exact h

namespace TransientHolon

theorem allIn_edit {h : TransientHolon} (hpending : h.relationships.AllIn .pending) (e : Edit) :
    (h.edit e).2.relationships.AllIn .pending := by
  have happly := e.allIn_apply (c := h.content) hpending
  unfold edit
  split
  · exact hpending
  · split <;> (rename_i hcase; rw [hcase] at happly; exact happly)

theorem predecessorId_edit (h : TransientHolon) (e : Edit) : (h.edit e).2.predecessorId = h.predecessorId := by
  unfold edit
  split
  · rfl
  · split <;> rfl

theorem predecessorId_stage {h : TransientHolon} {staged : StagedHolon} (hstage : h.stage = .ok staged) :
    staged.predecessorId = h.predecessorId := by
  unfold stage at hstage
  split at hstage <;> cases hstage
  rfl

end TransientHolon

/-- The state of the collections of a holon that is in a staged state. -/
def StagedState.collectionState : StagedState → CollectionState
  | .forCreate | .forUpdate | .forUpdateChanged => .staged
  | .abandoned => .abandoned
  | .committed _ => .saved

namespace StagedHolon

variable {h h' : StagedHolon}

theorem checkAccess_write_eq_ok_iff :
    h.checkAccess .write = .ok () ↔ h.isPending = true ∧ h.holonState = .mutable := by
  rcases h with ⟨_, state, staged, _, _, _, _, _⟩
  cases staged <;> cases state <;> simp [checkAccess, isAccessible, isPending, StagedState.isPending,
    HolonState.allows, Access.isPassive]

/-- A pending holon can be marked as changed, and is pending and as mutable as it was then. -/
theorem markChanged_of_isPending (h : StagedHolon) (hpending : h.isPending = true) :
    ∃ h', h.markChanged = .ok h' ∧ h'.isPending = true ∧ h'.holonState = h.holonState := by
  rcases h with ⟨_, _, staged, _, _, _, _, _⟩
  cases staged <;> first | exact ⟨_, rfl, rfl, rfl⟩ | cases hpending

theorem predecessorId_markChanged (hmark : h.markChanged = .ok h') : h'.predecessorId = h.predecessorId := by
  unfold markChanged at hmark
  split at hmark <;> cases hmark <;> rfl

theorem predecessorId_abandon (habandon : h.abandon = .ok h') : h'.predecessorId = h.predecessorId := by
  unfold abandon at habandon
  split at habandon <;> cases habandon
  rfl

theorem predecessorId_commit {id : LocalId} (hcommit : h.commit id = .ok h') :
    h'.predecessorId = h.predecessorId := by
  unfold commit at hcommit
  split at hcommit <;> cases hcommit
  rfl

theorem predecessorId_edit (h : StagedHolon) (e : Edit) : (h.edit e).2.predecessorId = h.predecessorId := by
  unfold edit
  split
  · rfl
  · split
    · rfl
    · simp only
      split
      · rename_i hmark
        exact (predecessorId_markChanged hmark).trans rfl
      · rfl

/-- What the fields of a staged holon say of each other. -/
structure Consistent (h : StagedHolon) : Prop where
  /-- It is frozen just when its staging has ended. -/
  frozen_iff : h.holonState = .immutable ↔ h.stagedState = .abandoned ∨ ∃ id, h.stagedState = .committed id
  created : h.stagedState = .forCreate → h.predecessorId = none
  updated : h.stagedState = .forUpdate ∨ h.stagedState = .forUpdateChanged → h.predecessorId ≠ none
  collections : h.relationships.AllIn h.stagedState.collectionState

/-- A change of the content alone leaves the other fields in agreement. -/
theorem Consistent.withContent (hc : h.Consistent) {c : Content}
    (hcollections : c.relationships.AllIn h.stagedState.collectionState) (version : UInt64) :
    Consistent { h.withContent c with version := version } where
  frozen_iff := hc.frozen_iff
  created := hc.created
  updated := hc.updated
  collections := hcollections

theorem Consistent.markChanged (hc : h.Consistent) (hmark : h.markChanged = .ok h') : h'.Consistent := by
  unfold StagedHolon.markChanged at hmark
  split at hmark
  · rename_i hstate
    cases hmark
    have hcollections := hc.collections
    rw [hstate] at hcollections
    refine ⟨?_, fun hcreate => (by cases hcreate), fun _ => hc.updated (.inl hstate), hcollections⟩
    rw [hc.frozen_iff, hstate]
    simp
  · cases hmark
    exact hc
  · cases hmark
    exact hc
  · cases hmark
  · cases hmark

theorem Consistent.edit (hc : h.Consistent) (e : Edit) : (h.edit e).2.Consistent := by
  unfold StagedHolon.edit
  split
  · exact hc
  · rename_i haccess
    -- Only a pending holon can be written, so its collections are in the state that an edit gives to new ones.
    have hstate : h.stagedState.collectionState = .staged := by
      obtain ⟨hpending, -⟩ := checkAccess_write_eq_ok_iff.1 haccess
      cases hs : h.stagedState <;> first | rfl | (rw [isPending, hs] at hpending; cases hpending)
    have happly := e.allIn_apply (c := h.content) (hstate ▸ hc.collections)
    split
    · rename_i hcase
      rw [hcase] at happly
      exact hc.withContent (hstate ▸ happly) h.version
    · rename_i hcase
      rw [hcase] at happly
      have hedited := hc.withContent (hstate ▸ happly) (h.version + 1)
      simp only
      split
      · rename_i hmark
        exact hedited.markChanged hmark
      · exact hedited

theorem consistent_abandon (habandon : h.abandon = .ok h') : h'.Consistent := by
  unfold abandon at habandon
  split at habandon <;> cases habandon
  exact ⟨by simp, fun hcreate => (by cases hcreate), fun hupdate => (by rcases hupdate with h | h <;> cases h),
    h.relationships.allIn_withState .abandoned⟩

theorem consistent_commit {id : LocalId} (hcommit : h.commit id = .ok h') : h'.Consistent := by
  unfold commit at hcommit
  split at hcommit <;> cases hcommit
  exact ⟨by simp, fun hcreate => (by cases hcreate), fun hupdate => (by rcases hupdate with h | h <;> cases h),
    h.relationships.allIn_withState .saved⟩

/-- **What a committed holon is in its store**: the holon as it is, under the id of the commit. -/
theorem toSaved?_eq_some_iff {saved : SavedHolon} :
    h.toSaved? = some saved ↔ ∃ id, h.stagedState = .committed id ∧
      saved = ⟨.immutable, h.validationState, id, h.version, .fetched, h.properties, h.predecessorId⟩ := by
  unfold toSaved? committedId? StagedState.committedId?
  cases h.stagedState <;> simp [eq_comm]

end StagedHolon

theorem TransientHolon.consistent_stage {h : TransientHolon} {staged : StagedHolon} (hstage : h.stage = .ok staged) :
    staged.Consistent := by
  unfold stage at hstage
  split at hstage <;> cases hstage
  have hcollections := h.relationships.allIn_withState .staged
  cases hp : h.predecessorId with
  | none => exact ⟨by simp, fun _ => rfl, fun hupdate => (by rcases hupdate with h | h <;> cases h), hcollections⟩
  | some id => exact ⟨by simp, fun hcreate => (by cases hcreate), fun _ => (by simp), hcollections⟩

namespace Holon

/-- What the fields of a holon that is not yet persisted say of each other. -/
def Consistent : Holon → Prop
  | .transient h => h.relationships.AllIn .pending
  | .staged h => h.Consistent
  | .saved _ => False

/-- The holon after operations in that order: one that is refused leaves what it leaves, one that this kind of holon
does not have leaves the holon as it is. -/
def after (h : Holon) : List Operation → Holon
  | [] => h
  | op :: ops =>
    match h.perform? op with
    | some (_, next) => next.after ops
    | none => h.after ops

variable {h h' : Holon} {op : Operation} {outcome : Except Refusal Unit}

theorem eq_snd_of_some {result : Except Refusal Unit × Holon} (h : some result = some (outcome, h')) :
    h' = result.2 := by
  cases h
  rfl

theorem Consistent.settle (hc : h.Consistent) {result : Except Refusal StagedHolon}
    (hresult : ∀ {staged}, result = .ok staged → staged.Consistent) :
    (h.settle (result.map .staged)).2.Consistent := by
  cases result with
  | error e => exact hc
  | ok staged => exact hresult rfl

/-- **Every operation keeps a holon consistent**, whether or not it is refused. -/
theorem Consistent.perform (hc : h.Consistent) (hop : h.perform? op = some (outcome, h')) : h'.Consistent := by
  cases h with
  | saved h => cases hc
  | transient t =>
    cases op with
    | edit e => rw [eq_snd_of_some hop]; exact t.allIn_edit hc e
    | freeze => rw [eq_snd_of_some hop]; exact hc
    | namePredecessor id => rw [eq_snd_of_some hop]; exact hc
    | stage => rw [eq_snd_of_some hop]; exact hc.settle TransientHolon.consistent_stage
    | markChanged | abandon | commit | recordError => cases hop
  | staged s =>
    have hs : s.Consistent := hc
    cases op with
    | edit e => rw [eq_snd_of_some hop]; exact hs.edit e
    | stage => rw [eq_snd_of_some hop]; exact hc
    | markChanged => rw [eq_snd_of_some hop]; exact hc.settle hs.markChanged
    | abandon => rw [eq_snd_of_some hop]; exact hc.settle StagedHolon.consistent_abandon
    | commit id => rw [eq_snd_of_some hop]; exact hc.settle StagedHolon.consistent_commit
    | recordError e => rw [eq_snd_of_some hop]; exact ⟨hs.frozen_iff, hs.created, hs.updated, hs.collections⟩
    | freeze | namePredecessor => cases hop

theorem Consistent.after (hc : h.Consistent) (ops : List Operation) : (h.after ops).Consistent := by
  induction ops generalizing h with
  | nil => exact hc
  | cons op ops ih =>
    unfold Holon.after
    split
    · rename_i hop
      exact ih (hc.perform hop)
    · exact ih hc

theorem staged_settle {h : StagedHolon} (result : Except Refusal StagedHolon) :
    ∃ staged, ((Holon.staged h).settle (result.map .staged)).2 = .staged staged := by
  cases result with
  | error e => exact ⟨h, rfl⟩
  | ok staged => exact ⟨staged, rfl⟩

/-- A staged holon stays staged. -/
theorem staged_perform {h : StagedHolon} (hop : (Holon.staged h).perform? op = some (outcome, h')) :
    ∃ staged, h' = .staged staged := by
  cases op with
  | edit | stage | recordError => rw [eq_snd_of_some hop]; exact ⟨_, rfl⟩
  | markChanged | abandon | commit => rw [eq_snd_of_some hop]; exact staged_settle _
  | freeze | namePredecessor => cases hop

theorem predecessorId_settle {result : Except Refusal StagedHolon}
    (hresult : ∀ {staged}, result = .ok staged → staged.predecessorId = h.predecessorId) :
    (h.settle (result.map .staged)).2.predecessorId = h.predecessorId := by
  cases result with
  | error e => rfl
  | ok staged => exact hresult rfl

/-- No operation but the one that names a predecessor changes what a holon succeeds. -/
theorem predecessorId_perform (hop : h.perform? op = some (outcome, h')) (hname : ∀ id, op ≠ .namePredecessor id) :
    h'.predecessorId = h.predecessorId := by
  cases h with
  | saved h =>
    cases op with
    | stage => rw [eq_snd_of_some hop]; rfl
    | _ => cases hop
  | transient t =>
    cases op with
    | edit e => rw [eq_snd_of_some hop]; exact t.predecessorId_edit e
    | freeze => rw [eq_snd_of_some hop]; rfl
    | namePredecessor id => exact absurd rfl (hname id)
    | stage => rw [eq_snd_of_some hop]; exact predecessorId_settle TransientHolon.predecessorId_stage
    | markChanged | abandon | commit | recordError => cases hop
  | staged s =>
    cases op with
    | edit e => rw [eq_snd_of_some hop]; exact s.predecessorId_edit e
    | stage => rw [eq_snd_of_some hop]; rfl
    | markChanged => rw [eq_snd_of_some hop]; exact predecessorId_settle StagedHolon.predecessorId_markChanged
    | abandon => rw [eq_snd_of_some hop]; exact predecessorId_settle StagedHolon.predecessorId_abandon
    | commit id => rw [eq_snd_of_some hop]; exact predecessorId_settle StagedHolon.predecessorId_commit
    | recordError e => rw [eq_snd_of_some hop]; rfl
    | freeze | namePredecessor => cases hop

theorem predecessorId_after {ops : List Operation} (hops : ∀ id, .namePredecessor id ∉ ops) :
    (h.after ops).predecessorId = h.predecessorId := by
  induction ops generalizing h with
  | nil => rfl
  | cons op ops ih =>
    have hrest : ∀ id, .namePredecessor id ∉ ops := fun id hid => hops id (List.mem_cons_of_mem _ hid)
    unfold after
    split
    · rename_i hop
      refine (ih hrest).trans (predecessorId_perform hop fun id hname => hops id ?_)
      rw [hname]
      exact List.mem_cons_self
    · exact ih hrest

/-- **The fields of a holon agree for life.**  Whatever is done to a new holon, refused or not: it succeeds what it was
made to succeed; while it is transient its collections are pending; once it is staged it is frozen just when it has been
abandoned or committed, it is an update just if it succeeds something, its collections are in the state that goes with
its own, and it has a saved form just when it is committed, with the id of the commit and all else as it is. -/
theorem holon_agrees_with_itself_for_life (properties : PropertyMap) (predecessor : Option LocalId)
    (ops : List Operation) (hops : ∀ id, .namePredecessor id ∉ ops) :
    let start := predecessor.elim (TransientHolon.new properties) (TransientHolon.new properties).succeeding
    let h := (Holon.transient start).after ops
    h.predecessorId = predecessor ∧
      (∀ t : TransientHolon, h = .transient t → t.relationships.AllIn .pending) ∧
      (∀ s : StagedHolon, h = .staged s →
        (s.holonState = .immutable ↔ s.stagedState = .abandoned ∨ ∃ id, s.stagedState = .committed id) ∧
        (s.stagedState = .forCreate → s.predecessorId = none) ∧
        (s.stagedState = .forUpdate ∨ s.stagedState = .forUpdateChanged → s.predecessorId ≠ none) ∧
        s.relationships.AllIn s.stagedState.collectionState ∧
        ∀ saved, s.toSaved? = some saved ↔ ∃ id, s.stagedState = .committed id ∧
          saved = ⟨.immutable, s.validationState, id, s.version, .fetched, s.properties, predecessor⟩) ∧
      ∀ saved, h ≠ .saved saved := by
  intro start h
  have hstart : start.relationships.AllIn .pending ∧ start.predecessorId = predecessor := by
    cases predecessor with
    | none => exact ⟨RelationshipMap.allIn_empty .pending, rfl⟩
    | some id => exact ⟨RelationshipMap.allIn_empty .pending, rfl⟩
  have hconsistent : h.Consistent := Consistent.after (h := .transient start) hstart.1 ops
  have hpredecessor : h.predecessorId = predecessor := (predecessorId_after hops).trans hstart.2
  refine ⟨hpredecessor, fun t ht => ?_, fun s hs => ?_, fun saved hsaved => ?_⟩
  · rw [ht] at hconsistent
    exact hconsistent
  · rw [hs] at hconsistent hpredecessor
    obtain ⟨hfrozen, hcreated, hupdated, hcollections⟩ : s.Consistent := hconsistent
    refine ⟨hfrozen, hcreated, hupdated, hcollections, fun saved => ?_⟩
    rw [StagedHolon.toSaved?_eq_some_iff, show s.predecessorId = predecessor from hpredecessor]
  · rw [hsaved] at hconsistent
    exact hconsistent

def friend : Reference := .staged ⟨⟨1⟩, .numbered 9⟩

/-- A batch that is refused for a key that comes twice, and leaves an empty collection; then a staging, a change, a
commit, and an abandoning that is refused. -/
def eventful : List Operation :=
  [.edit (.addRelated ⟨"friends"⟩ [(friend, some "ann"), (friend, some "ann")]), .stage,
    .edit (.setProperty ⟨"title"⟩ none), .commit (.numbered 2), .abandon]

/-- A friend, a staging, an abandoning, and a commit that is refused. -/
def forsaken : List Operation :=
  [.edit (.addRelated ⟨"friends"⟩ [(friend, some "ann")]), .stage, .abandon, .commit (.numbered 2)]

/-- The new version of a holon is saved under the id of its commit, and the collection of the refused batch with it; a
holon that was abandoned is frozen with its collection, and has no saved form. -/
theorem holon_agrees_with_itself_for_life_when_eventful :
    (∃ s : StagedHolon,
      (Holon.transient ((TransientHolon.new ∅).succeeding (.numbered 1))).after eventful = .staged s ∧
        s.toSaved? = some ⟨.immutable, .required, .numbered 2, 2, .fetched, SortedMap.ofList [(⟨"title"⟩, none)],
          some (.numbered 1)⟩ ∧
        (s.relationships.get? ⟨"friends"⟩).map Collection.state = some .saved) ∧
    ∃ s : StagedHolon, (Holon.transient (TransientHolon.new ∅)).after forsaken = .staged s ∧
      s.stagedState = .abandoned ∧ s.holonState = .immutable ∧ s.toSaved? = none ∧
      (s.relationships.get? ⟨"friends"⟩).map (fun c => (c.state, c.members)) = some (.abandoned, [friend]) := by
  constructor
  · obtain ⟨-, -, hstaged, -⟩ := holon_agrees_with_itself_for_life ∅ (some (.numbered 1)) eventful
      (by intro id hid; simp [eventful] at hid)
    refine ⟨_, rfl, ?_⟩
    obtain ⟨-, -, -, hcollections, hsaved⟩ := hstaged _ rfl
    refine ⟨(hsaved _).2 ⟨.numbered 2, rfl, rfl⟩, ?_⟩
    exact congrArg some (hcollections ⟨"friends"⟩ (.new .saved) rfl)
  · obtain ⟨-, -, hstaged, -⟩ := holon_agrees_with_itself_for_life ∅ none forsaken
      (by intro id hid; simp [forsaken] at hid)
    refine ⟨_, rfl, ?_⟩
    obtain ⟨hfrozen, -, -, hcollections, hsaved⟩ := hstaged _ rfl
    refine ⟨rfl, hfrozen.2 (.inl rfl), ?_, ?_⟩
    · rw [Option.eq_none_iff_forall_ne_some]
      intro saved h
      obtain ⟨id, hid, -⟩ := (hsaved saved).1 h
      cases hid
    · exact congrArg some (Prod.ext (hcollections ⟨"friends"⟩ _ rfl) rfl)

end Holon

end Holarchy
