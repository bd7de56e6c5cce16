import Holarchy.Proofs.Holon.Lifecycle
import Holarchy.Proofs.Server.Orders
/-!
# Who is related to whom

The references in the relationships of a holon come from nowhere but the batches that were added to it.
-/
namespace Holarchy

namespace RelationshipMap

/-- The reference is a member of a collection of the map. -/
def Relates (relationships : RelationshipMap) (r : Reference) : Prop :=
  ∃ name c, relationships.get? name = some c ∧ r ∈ c.members

variable {relationships relationships' : RelationshipMap} {name : RelationshipName} {r : Reference}

theorem not_relates_empty (r : Reference) : ¬ Relates ∅ r := by
  rintro ⟨name, c, hget, -⟩
  cases hget

@[simp] theorem relates_withState_iff {state : CollectionState} :
    (relationships.withState state).Relates r ↔ relationships.Relates r := by
  constructor
  · rintro ⟨name, c, hget, hr⟩
    rw [withState, SortedMap.get?_mapValues] at hget
    obtain ⟨c', hget', rfl⟩ := Option.map_eq_some_iff.1 hget
    exact ⟨name, c', hget', hr⟩
  · rintro ⟨name, c, hget, hr⟩
    refine ⟨name, c.withState state, ?_, hr⟩
    rw [withState, SortedMap.get?_mapValues, hget]
    rfl

theorem relates_of_insert {c : Collection} (h : Relates (SortedMap.insert relationships name c) r) :
    relationships.Relates r ∨ r ∈ c.members := by
  obtain ⟨name', c', hget, hr⟩ := h
  rw [SortedMap.get?_insert] at hget
  split at hget
  · cases hget
    exact .inr hr
  · exact .inl ⟨name', c', hget, hr⟩

theorem addRelated_ok {batch : List (Reference × Option String)} {state : CollectionState}
    (h : relationships.addRelated name batch state = (.ok (), relationships')) :
    ∃ c, ((relationships.get? name).getD (.new state)).addReferences batch = .ok c ∧
      relationships' = relationships.insert name c := by
  unfold addRelated at h
  split at h
  · cases h
  · simp only at h
    split at h
    · rename_i c hadd
      cases h
      exact ⟨c, hadd, rfl⟩
    · cases h

theorem relates_of_addRelated {batch : List (Reference × Option String)} {state : CollectionState}
    (hadd : relationships.addRelated name batch state = (.ok (), relationships')) (h : relationships'.Relates r) :
    relationships.Relates r ∨ r ∈ batch.map Prod.fst := by
  obtain ⟨c, hc, rfl⟩ := addRelated_ok hadd
  rcases relates_of_insert h with h | hr
  · exact .inl h
  · rw [Collection.members_addReferences hc] at hr
    rcases List.mem_append.1 hr with hr | hr
    · cases hget : relationships.get? name with
      | none => rw [hget] at hr; cases hr
      | some c' => rw [hget] at hr; exact .inl ⟨name, c', hget, hr⟩
    · exact .inr hr

theorem relates_of_removeRelated {references : List Reference}
    (hremove : relationships.removeRelated name references = .ok relationships') (h : relationships'.Relates r) :
    relationships.Relates r := by
  unfold removeRelated at hremove
  split at hremove
  · rename_i c hget
    cases hremove
    rcases relates_of_insert h with h | hr
    · exact h
    · rw [Collection.members_removeReferences] at hr
      exact ⟨name, c, hget, (List.mem_filter.1 hr).1⟩
  · cases hremove

end RelationshipMap

/-- The references that an edit adds. -/
def Edit.related : Edit → List Reference
  | .addRelated _ batch => batch.map Prod.fst
  | _ => []

theorem Edit.relates_of_apply {e : Edit} {state : CollectionState} {c c' : Content} {r : Reference}
    (happly : e.apply state c = (.ok (), c')) (h : c'.relationships.Relates r) :
    c.relationships.Relates r ∨ r ∈ e.related := by
  cases e with
  | setProperty | removeProperty | updateProperties => cases happly; exact .inl h
  | addRelated name batch =>
    cases hadd : c.relationships.addRelated name batch state with
    | mk outcome relationships =>
      simp only [apply, hadd, Prod.mk.injEq] at happly
      obtain ⟨rfl, rfl⟩ := happly
      exact RelationshipMap.relates_of_addRelated hadd h
  | removeRelated name references =>
    simp only [apply] at happly
    split at happly
    · rename_i hremove
      cases happly
      exact .inl (RelationshipMap.relates_of_removeRelated hremove h)
    · cases happly

namespace Holon

/-- The reference is a member of a collection of the holon. -/
def Relates (h : Holon) (r : Reference) : Prop := h.relationships.Relates r

/-- The references that an operation adds. -/
def Operation.related : Operation → List Reference
  | .edit e => e.related
  | _ => []

variable {h h' : Holon} {op : Operation} {r : Reference}

theorem relates_of_stage {staged : StagedHolon} (hstage : h.stage = .ok staged) (hr : staged.relationships.Relates r) :
    h.Relates r := by
  cases h with
  | transient t =>
    simp only [stage, TransientHolon.stage] at hstage
    split at hstage <;> cases hstage
    exact RelationshipMap.relates_withState_iff.1 hr
  | staged | saved => cases hstage

theorem relates_of_copy {t : TransientHolon} (hcopy : h.copy = .ok t) (hr : t.relationships.Relates r) :
    h.Relates r := by
  unfold copy at hcopy
  split at hcopy <;> cases hcopy
  exact RelationshipMap.relates_withState_iff.1 hr

theorem relates_of_settle {result : Except Refusal StagedHolon} (hsettle : h.settle (result.map .staged) = (.ok (), h'))
    (hr : h'.Relates r)
    (hresult : ∀ {staged}, result = .ok staged → staged.relationships.Relates r → h.Relates r) : h.Relates r := by
  cases result with
  | ok staged => cases hsettle; exact hresult rfl hr
  | error e => cases hsettle

end Holon

namespace StagedHolon

variable {h h' : StagedHolon} {r : Reference}

theorem relationships_markChanged (hmark : h.markChanged = .ok h') : h'.relationships = h.relationships := by
  unfold markChanged at hmark
  split at hmark <;> cases hmark <;> rfl

theorem relates_of_markChanged (hmark : h.markChanged = .ok h') (hr : h'.relationships.Relates r) :
    h.relationships.Relates r := by
  rw [← relationships_markChanged hmark]
  exact hr

theorem relates_of_abandon (habandon : h.abandon = .ok h') (hr : h'.relationships.Relates r) :
    h.relationships.Relates r := by
  unfold abandon at habandon
  split at habandon <;> cases habandon
  exact RelationshipMap.relates_withState_iff.1 hr

theorem relates_of_commit {id : LocalId} (hcommit : h.commit id = .ok h') (hr : h'.relationships.Relates r) :
    h.relationships.Relates r := by
  unfold commit at hcommit
  split at hcommit <;> cases hcommit
  exact RelationshipMap.relates_withState_iff.1 hr

theorem edit_ok {e : Edit} (hedit : h.edit e = (.ok (), h')) :
    ∃ c, e.apply .staged h.content = (.ok (), c) ∧ h'.relationships = c.relationships := by
  unfold edit at hedit
  split at hedit
  · cases hedit
  · split at hedit
    · cases hedit
    · rename_i c happly
      simp only at hedit
      split at hedit
      · rename_i hmark
        cases hedit
        exact ⟨c, happly, relationships_markChanged hmark⟩
      · cases hedit

theorem relates_of_edit {e : Edit} (hedit : h.edit e = (.ok (), h')) (hr : h'.relationships.Relates r) :
    h.relationships.Relates r ∨ r ∈ e.related := by
  obtain ⟨c, happly, heq⟩ := edit_ok hedit
  rw [heq] at hr
  exact Edit.relates_of_apply (c := h.content) happly hr

/-- Related holons that are added extend the collection under their name, or a new one. -/
theorem edit_addRelated_ok {name : RelationshipName} {batch : List (Reference × Option String)}
    (hedit : h.edit (.addRelated name batch) = (.ok (), h')) :
    ∃ c, ((h.relationships.get? name).getD (.new .staged)).addReferences batch = .ok c ∧
      h'.relationships = h.relationships.insert name c := by
  obtain ⟨content, happly, heq⟩ := edit_ok hedit
  rcases hadd : h.content.relationships.addRelated name batch .staged with ⟨outcome, relationships⟩
  simp only [Edit.apply, hadd, Prod.mk.injEq] at happly
  obtain ⟨rfl, rfl⟩ := happly
  obtain ⟨c, hc, rfl⟩ := RelationshipMap.addRelated_ok hadd
  exact ⟨c, hc, heq⟩

end StagedHolon

theorem TransientHolon.relates_of_edit {h h' : TransientHolon} {e : Edit} {r : Reference}
    (hedit : h.edit e = (.ok (), h')) (hr : h'.relationships.Relates r) :
    h.relationships.Relates r ∨ r ∈ e.related := by
  unfold edit at hedit
  split at hedit
  · cases hedit
  · split at hedit
    · cases hedit
    · rename_i happly
      cases hedit
      exact Edit.relates_of_apply (c := h.content) happly hr

namespace Holon

variable {h h' : Holon} {op : Operation} {r : Reference}

/-- **An operation relates a holon to nothing but what it adds.** -/
theorem relates_of_perform (hop : h.perform? op = some (.ok (), h')) (hr : h'.Relates r) :
    h.Relates r ∨ r ∈ op.related := by
  cases h with
  | saved s =>
    cases op with
    | stage => exact .inl (relates_of_settle (Option.some.inj hop) hr relates_of_stage)
    | _ => cases hop
  | transient t =>
    cases op with
    | edit e =>
      obtain ⟨hok, rfl⟩ := Prod.mk.inj (Option.some.inj hop)
      exact TransientHolon.relates_of_edit (Prod.ext hok rfl) hr
    | freeze | namePredecessor => cases hop; exact .inl hr
    | stage => exact .inl (relates_of_settle (Option.some.inj hop) hr relates_of_stage)
    | markChanged | abandon | commit | recordError => cases hop
  | staged s =>
    cases op with
    | edit e =>
      obtain ⟨hok, rfl⟩ := Prod.mk.inj (Option.some.inj hop)
      exact StagedHolon.relates_of_edit (Prod.ext hok rfl) hr
    | markChanged => exact .inl (relates_of_settle (Option.some.inj hop) hr StagedHolon.relates_of_markChanged)
    | abandon => exact .inl (relates_of_settle (Option.some.inj hop) hr StagedHolon.relates_of_abandon)
    | commit id => exact .inl (relates_of_settle (Option.some.inj hop) hr StagedHolon.relates_of_commit)
    | recordError e => cases hop; exact .inl hr
    | stage => exact .inl (relates_of_settle (Option.some.inj hop) hr relates_of_stage)
    | freeze | namePredecessor => cases hop

theorem Performs.relates {ops : List Operation} (hops : h.Performs ops h') (hr : h'.Relates r) :
    h.Relates r ∨ ∃ op ∈ ops, r ∈ op.related := by
  induction ops generalizing h with
  | nil =>
    cases hops
    exact .inl hr
  | cons op ops ih =>
    obtain ⟨next, hop, hrest⟩ := hops
    rcases ih hrest with hnext | ⟨op', hmem, hr'⟩
    · rcases relates_of_perform hop hnext with hfirst | hr'
      · exact .inl hfirst
      · exact .inr ⟨op, List.mem_cons_self, hr'⟩
    · exact .inr ⟨op', List.mem_cons_of_mem _ hmem, hr'⟩

end Holon

end Holarchy
