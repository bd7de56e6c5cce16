import Holarchy.Proofs.Holon.Lifecycle
/-!
# What a refused operation leaves behind

An operation looks at all that could refuse it before it writes, with one exception: adding related holons makes the
collection for a new name first and looks at the keys of the batch then.
-/
namespace Holarchy

namespace RelationshipMap

/-- A batch that is refused only after its name has been given a collection: the name is a proper one that has none
yet, and a key comes twice in the batch. -/
structure OpensInVain (relationships : RelationshipMap) (name : RelationshipName)
    (batch : List (Reference × Option String)) : Prop where
  named : name.text.isEmpty = false
  unused : relationships.get? name = none
  repeated : ¬ (Collection.batchKeys batch).Nodup

variable {relationships relationships' : RelationshipMap} {name : RelationshipName}
  {batch : List (Reference × Option String)} {state : CollectionState} {e : Refusal}

theorem OpensInVain.addRelated (h : relationships.OpensInVain name batch) (state : CollectionState) :
    ∃ key, relationships.addRelated name batch state =
      (.error (.duplicate "key" key), relationships.insert name (.new state)) := by
  unfold RelationshipMap.addRelated
  rw [h.named, h.unused]
  cases hadd : (Collection.new state).addReferences batch with
  | ok c => exact absurd (Collection.addReferences_eq_ok_iff.1 hadd).1 h.repeated
  | error e =>
    obtain ⟨key, rfl⟩ := Collection.exists_of_addReferences_eq_error hadd
    exact ⟨key, by simp [hadd]⟩

/-- Any other batch that is refused leaves the relationships as they are. -/
theorem eq_of_addRelated_refused (hvain : ¬ relationships.OpensInVain name batch)
    (h : relationships.addRelated name batch state = (.error e, relationships')) : relationships' = relationships := by
  unfold RelationshipMap.addRelated at h
  split at h
  · exact (congrArg Prod.snd h).symm
  · rename_i hname
    cases hget : relationships.get? name with
    | none =>
      refine absurd ⟨by simpa using hname, hget, fun hnodup => ?_⟩ hvain
      obtain ⟨c, hadd⟩ : ∃ c, (Collection.new state).addReferences batch = .ok c :=
        Collection.exists_addReferences_new_iff.2 hnodup
      rw [hget] at h
      simp [hadd] at h
    | some c =>
      rw [hget] at h
      simp only [Option.getD_some] at h
      split at h
      · cases h
      · exact (congrArg Prod.snd h).symm.trans (SortedMap.insert_of_get? hget)

end RelationshipMap

namespace Edit

/-- A refused edit changes the content only if it adds related holons and opens a collection in vain. -/
theorem eq_of_apply_refused {e : Edit} {state : CollectionState} {c c' : Content} {err : Refusal}
    (hvain : ∀ name batch, e = .addRelated name batch → ¬ c.relationships.OpensInVain name batch)
    (h : e.apply state c = (.error err, c')) : c' = c := by
  cases e with
  | setProperty | removeProperty | updateProperties => cases h
  | addRelated name batch =>
    cases hadd : c.relationships.addRelated name batch state with
    | mk outcome relationships =>
      simp only [apply, hadd, Prod.mk.injEq] at h
      obtain ⟨rfl, rfl⟩ := h
      rw [RelationshipMap.eq_of_addRelated_refused (hvain name batch rfl) hadd]
  | removeRelated name references =>
    simp only [apply] at h
    split at h <;> cases h
    rfl

theorem apply_addRelated_in_vain {c : Content} {name : RelationshipName} {batch : List (Reference × Option String)}
    (h : c.relationships.OpensInVain name batch) (state : CollectionState) :
    ∃ key, (addRelated name batch).apply state c =
      (.error (.duplicate "key" key), { c with relationships := c.relationships.insert name (.new state) }) := by
  obtain ⟨key, hadd⟩ := h.addRelated state
  exact ⟨key, by simp only [apply, hadd]⟩

end Edit

namespace TransientHolon

theorem eq_of_edit_refused {h : TransientHolon} {e : Edit} {err : Refusal}
    (hvain : h.checkAccess .write = .ok () → ∀ name batch, e = .addRelated name batch →
      ¬ h.relationships.OpensInVain name batch)
    (hedit : (h.edit e).1 = .error err) : (h.edit e).2 = h := by
  unfold edit at hedit ⊢
  split
  · rfl
  · rename_i haccess
    split
    · rename_i happly
      rw [Edit.eq_of_apply_refused (c := h.content) (hvain haccess) happly]
      rfl
    · rename_i happly
      simp [haccess, happly] at hedit

theorem edit_addRelated_in_vain {h : TransientHolon} {name : RelationshipName}
    {batch : List (Reference × Option String)} (haccess : h.checkAccess .write = .ok ())
    (hvain : h.relationships.OpensInVain name batch) :
    ∃ key, h.edit (.addRelated name batch) =
      (.error (.duplicate "key" key), { h with relationships := h.relationships.insert name (.new .pending) }) := by
  obtain ⟨key, happly⟩ := Edit.apply_addRelated_in_vain (c := h.content) hvain .pending
  refine ⟨key, ?_⟩
  unfold edit
  rw [haccess]
  simp only [happly]
  rfl

end TransientHolon

namespace StagedHolon

theorem eq_of_edit_refused {h : StagedHolon} {e : Edit} {err : Refusal}
    (hvain : h.checkAccess .write = .ok () → ∀ name batch, e = .addRelated name batch →
      ¬ h.relationships.OpensInVain name batch)
    (hedit : (h.edit e).1 = .error err) : (h.edit e).2 = h := by
  unfold edit at hedit ⊢
  split
  · rfl
  · rename_i haccess
    split
    · rename_i happly
      rw [Edit.eq_of_apply_refused (c := h.content) (hvain haccess) happly]
      rfl
    · rename_i c happly
      -- The version is up already, but a holon that can be written can always be marked as changed.
      obtain ⟨hpending, -⟩ := checkAccess_write_eq_ok_iff.1 haccess
      obtain ⟨marked, hmark, -, -⟩ :=
        markChanged_of_isPending { h.withContent c with version := h.version + 1 } hpending
      simp [haccess, happly, hmark] at hedit

theorem edit_addRelated_in_vain {h : StagedHolon} {name : RelationshipName}
    {batch : List (Reference × Option String)} (haccess : h.checkAccess .write = .ok ())
    (hvain : h.relationships.OpensInVain name batch) :
    ∃ key, h.edit (.addRelated name batch) =
      (.error (.duplicate "key" key), { h with relationships := h.relationships.insert name (.new .staged) }) := by
  obtain ⟨key, happly⟩ := Edit.apply_addRelated_in_vain (c := h.content) hvain .staged
  refine ⟨key, ?_⟩
  unfold edit
  rw [haccess]
  simp only [happly]
  rfl

end StagedHolon

namespace Holon

/-- The holon with an empty collection under a name, in the state of a collection that is new in such a holon. -/
def opening (h : Holon) (name : RelationshipName) : Holon :=
  match h with
  | .transient t => .transient { t with relationships := t.relationships.insert name (.new .pending) }
  | .staged s => .staged { s with relationships := s.relationships.insert name (.new .staged) }
  | .saved s => .saved s

/-- A holon that can be written is given related holons that open a collection in vain. -/
structure OpensInVain (h : Holon) (name : RelationshipName) (batch : List (Reference × Option String)) : Prop where
  writable : h.checkAccess .write = .ok ()
  inVain : h.relationships.OpensInVain name batch

variable {h h' : Holon} {op : Operation} {e : Refusal}

theorem OpensInVain.perform {name : RelationshipName} {batch : List (Reference × Option String)}
    (hvain : h.OpensInVain name batch) :
    ∃ key, h.perform? (.edit (.addRelated name batch)) = some (.error (.duplicate "key" key), h.opening name) := by
  obtain ⟨haccess, hvain⟩ := hvain
  cases h with
  | transient t =>
    obtain ⟨key, hedit⟩ := t.edit_addRelated_in_vain haccess hvain
    exact ⟨key, by simp only [perform?, hedit, opening]⟩
  | staged s =>
    obtain ⟨key, hedit⟩ := s.edit_addRelated_in_vain haccess hvain
    exact ⟨key, by simp only [perform?, hedit, opening]⟩
  | saved s => cases haccess

theorem OpensInVain.opening_ne {name : RelationshipName} {batch : List (Reference × Option String)}
    (hvain : h.OpensInVain name batch) : h.opening name ≠ h := by
  intro heq
  have hget : (h.opening name).relationships.get? name = none := by
    rw [heq]
    exact hvain.inVain.unused
  cases h with
  | transient t => simp [opening, relationships, SortedMap.get?_insert] at hget
  | staged s => simp [opening, relationships, SortedMap.get?_insert] at hget
  | saved s => cases hvain.writable

theorem eq_of_settle_refused {result : Except Refusal Holon} (hsettle : h.settle result = (.error e, h')) :
    h' = h := by
  cases result with
  | ok after => cases hsettle
  | error err => exact (congrArg Prod.snd hsettle).symm

theorem eq_of_perform_refused (hop : h.perform? op = some (.error e, h'))
    (hvain : ∀ name batch, op = .edit (.addRelated name batch) → ¬ h.OpensInVain name batch) : h' = h := by
  cases h with
  | saved s =>
    cases op with
    | stage => exact eq_of_settle_refused (Option.some.inj hop)
    | _ => cases hop
  | transient t =>
    cases op with
    | edit e =>
      obtain ⟨hrefused, rfl⟩ := Prod.mk.inj (Option.some.inj hop)
      rw [t.eq_of_edit_refused (fun haccess name batch he hopens => ?_) hrefused]
      exact hvain name batch (congrArg Operation.edit he) ⟨haccess, hopens⟩
    | stage => exact eq_of_settle_refused (Option.some.inj hop)
    | freeze | namePredecessor | markChanged | abandon | commit | recordError => cases hop
  | staged s =>
    cases op with
    | edit e =>
      obtain ⟨hrefused, rfl⟩ := Prod.mk.inj (Option.some.inj hop)
      rw [s.eq_of_edit_refused (fun haccess name batch he hopens => ?_) hrefused]
      exact hvain name batch (congrArg Operation.edit he) ⟨haccess, hopens⟩
    | stage | markChanged | abandon | commit => exact eq_of_settle_refused (Option.some.inj hop)
    | freeze | namePredecessor | recordError => cases hop

/-- **What a refused operation leaves behind.**  A refused operation leaves the holon, whatever it is like, exactly as
it was, unless it adds related holons to a holon that can be written, under a proper name that has no collection yet,
and a key comes twice among them.  Then it is always refused, for such a key, and the holon is not what it was: it is
left with an empty collection under the name, and with nothing else changed. -/
theorem refused_leaves_no_trace_iff (h : Holon) (op : Operation) :
    (∀ e h', h.perform? op = some (.error e, h') →
      (h' = h ↔ ¬ ∃ name batch, op = .edit (.addRelated name batch) ∧ h.OpensInVain name batch)) ∧
    ∀ name batch, op = .edit (.addRelated name batch) → h.OpensInVain name batch →
      ∃ key, h.perform? op = some (.error (.duplicate "key" key), h.opening name) ∧ h.opening name ≠ h := by
  refine ⟨fun e h' hop => ⟨?_, fun hnone => ?_⟩, ?_⟩
  · rintro rfl ⟨name, batch, rfl, hvain⟩
    obtain ⟨key, hperform⟩ := hvain.perform
    rw [hperform] at hop
    exact hvain.opening_ne (Prod.mk.inj (Option.some.inj hop)).2
  · exact eq_of_perform_refused hop fun name batch hadd hvain => hnone ⟨name, batch, hadd, hvain⟩
  · rintro name batch rfl hvain
    obtain ⟨key, hperform⟩ := hvain.perform
    exact ⟨key, hperform, hvain.opening_ne⟩

/-- Two holons under one key. -/
def namesakes : List (Reference × Option String) :=
  [(.staged ⟨⟨1⟩, .numbered 1⟩, some "ann"), (.staged ⟨⟨1⟩, .numbered 2⟩, some "ann")]

def befriendNamesakes : Operation := .edit (.addRelated ⟨"friends"⟩ namesakes)

/-- A new holon that is given them is left with a collection of no friends; with that collection in place, the same
refusal leaves no trace. -/
theorem refused_leaves_no_trace_iff_of_namesakes :
    let alone := Holon.transient (.new ∅)
    let opened := alone.opening ⟨"friends"⟩
    (∃ key, alone.perform? befriendNamesakes = some (.error (.duplicate "key" key), opened) ∧ opened ≠ alone) ∧
      ∃ e h', opened.perform? befriendNamesakes = some (.error e, h') ∧ h' = opened := by
  intro alone opened
  have hvain : alone.OpensInVain ⟨"friends"⟩ namesakes := ⟨rfl, by decide, rfl, by decide⟩
  refine ⟨(refused_leaves_no_trace_iff alone befriendNamesakes).2 _ _ rfl hvain, _, _, rfl, ?_⟩
  refine ((refused_leaves_no_trace_iff opened befriendNamesakes).1 _ _ rfl).2 ?_
  rintro ⟨name, batch, hadd, hopens⟩
  cases hadd
  cases hopens.inVain.unused

/-- A refused operation can leave a trace: the holon has a collection that it did not have, of no friends. -/
theorem namesakes_leave_a_collection :
    ∃ h', (Holon.transient (.new ∅)).perform? befriendNamesakes = some (.error (.duplicate "key" "ann"), h') ∧
      h'.version = 1 ∧ h'.relationships.entries = [(⟨"friends"⟩, .new .pending)] ∧
      h' ≠ Holon.transient (.new ∅) :=
  ⟨_, rfl, rfl, rfl, by decide⟩

end Holon

end Holarchy
