import Mathlib.Data.List.Forall2
import Holarchy.Proofs.Call
import Holarchy.Proofs.SessionState
import Holarchy.Proofs.SortedMap
/-!
# What a response means

The specification of a reconciliation, as relations that do not say how it is computed.  A response is taken over or the
first fault in it is named; what its body tells follows from the holons that it lists, or from one reading of each
member of its collection.  Holons and placeholders come from the same readings, so that a holon stands in for every id
that is missing, in the same order.
-/
namespace Holarchy

/-- What is read of a member of a collection. -/
inductive Reading where
  | nothing
  | content (h : SavedHolon)
  | missing (id : LocalId)

namespace Reading

/-- The holon that is read; an empty one stands in for what is missing. -/
def fetched? : Reading → Option SavedHolon
  | .nothing => none
  | .content h => some h
  | .missing id => some (.placeholder id)

def missing? : Reading → Option LocalId
  | .missing id => some id
  | _ => none

theorem placeholders_sublist (readings : List Reading) :
    ((readings.filterMap missing?).map .placeholder).Sublist (readings.filterMap fetched?) := by
  induction readings with
  | nil => exact .slnil
  | cons reading readings ih =>
    cases reading with
    | nothing => exact ih
    | content h => exact ih.cons h
    | missing id => exact ih.cons_cons (.placeholder id)

end Reading

/-- There is a holon under the temporary id, and it succeeds a persisted one. -/
def Pool.Succeeds (p : Pool) (id : TemporaryId) (h : Holon) (predecessor : LocalId) : Prop :=
  p.get? id = some h ∧ h.predecessorId = some predecessor

/-- **How a member is read.**  A persisted holon is read from the reference, else from the first holon of the pool that
succeeds it, else it is missing.  A transient holon is read under the id of the persisted one that it succeeds. -/
inductive Reads (pool : Pool) : Reference → Reading → Prop
  | cached {r : SmartReference} {properties : PropertyMap} : r.cached = some properties →
    Reads pool (.smart r) (.content (.fetched r.holonId.localId properties none 1))
  | pooled {r : SmartReference} {id : TemporaryId} {h : Holon} : r.cached = none →
    pool.Succeeds id h r.holonId.localId →
    (∀ j h', KeyOrder.before j id = true → ¬ pool.Succeeds j h' r.holonId.localId) →
    Reads pool (.smart r) (.content (.fetched r.holonId.localId h.properties none h.version))
  | missed {r : SmartReference} : r.cached = none → (∀ id h, ¬ pool.Succeeds id h r.holonId.localId) →
    Reads pool (.smart r) (.missing r.holonId.localId)
  | succeeding {r : TransientReference} {h : Holon} {predecessor : LocalId} : pool.Succeeds r.id h predecessor →
    Reads pool (.transient r) (.content (.fetched predecessor h.properties none h.version))
  | unsaved {r : TransientReference} : (∀ h predecessor, ¬ pool.Succeeds r.id h predecessor) →
    Reads pool (.transient r) .nothing
  | staged (r : StagedReference) : Reads pool (.staged r) .nothing

/-- **What a body tells** next to a session. -/
inductive Tells (s : SessionState) : ResponseBody → Findings → Prop
  | listing {b : ResponseBody} : (∀ c, b ≠ .collection c) →
    Tells s b ⟨b.committedViews, b.listed.filterMap Holon.asSaved?, []⟩
  | members {c : Collection} {readings : List Reading} :
    List.Forall₂ (Reads s.transientHolons) c.members readings →
    Tells s (.collection c) ⟨[], readings.filterMap Reading.fetched?, readings.filterMap Reading.missing?⟩

namespace Findings

variable {pool : Pool} {r : Reference} {reading : Reading}

theorem find?_succeeding_eq_some_iff {id : LocalId} {h : Holon} :
    (pool.holons.values.find? fun h => h.predecessorId = some id) = some h ↔
      ∃ k, pool.Succeeds k h id ∧ ∀ j h', KeyOrder.before j k = true → ¬ pool.Succeeds j h' id := by
  rw [SortedMap.find?_values_eq_some_iff]
  simp only [decide_eq_true_eq, decide_eq_false_iff_not]
  refine exists_congr fun k => ?_
  unfold Pool.Succeeds
  constructor
  · rintro ⟨hget, hsucceeds, hfirst⟩
    exact ⟨⟨hget, hsucceeds⟩, fun j h' hj hother => hfirst j h' hj hother.1 hother.2⟩
  · rintro ⟨⟨hget, hsucceeds⟩, hfirst⟩
    exact ⟨hget, hsucceeds, fun j h' hj hget' hother => hfirst j h' hj ⟨hget', hother⟩⟩

theorem find?_succeeding_eq_none_iff {id : LocalId} :
    (pool.holons.values.find? fun h => h.predecessorId = some id) = .none ↔ ∀ k h, ¬ pool.Succeeds k h id := by
  rw [SortedMap.find?_values_eq_none_iff]
  simp only [decide_eq_false_iff_not, Pool.Succeeds, not_and]
  rfl

theorem ofMember_of_reads (h : Reads pool r reading) :
    ofMember pool r = ⟨[], reading.fetched?.toList, reading.missing?.toList⟩ := by
  cases h with
  | cached hcached => simp only [ofMember, content?, hcached]; rfl
  | pooled hcached hsucceeds hfirst =>
    have hfind := find?_succeeding_eq_some_iff.2 ⟨_, hsucceeds, hfirst⟩
    simp only [ofMember, content?, hcached, hfind]
    rfl
  | missed hcached hnone =>
    have hfind := find?_succeeding_eq_none_iff.2 hnone
    simp only [ofMember, content?, hcached, hfind]
    rfl
  | succeeding hsucceeds => simp only [ofMember, hsucceeds.1, hsucceeds.2]; rfl
  | @unsaved r hnone =>
    cases hget : pool.get? r.id with
    | none => simp only [ofMember, hget]; rfl
    | some h =>
      have hnew : h.predecessorId = .none :=
        Option.eq_none_iff_forall_ne_some.2 fun predecessor hsome => hnone h predecessor ⟨hget, hsome⟩
      simp only [ofMember, hget, hnew]
      rfl
  | staged r => rfl

/-- **Every member is read in some way.** -/
theorem exists_reads (pool : Pool) (r : Reference) : ∃ reading, Reads pool r reading := by
  cases r with
  | staged r => exact ⟨_, .staged r⟩
  | transient r =>
    by_cases h : ∃ h predecessor, pool.Succeeds r.id h predecessor
    · obtain ⟨h, predecessor, hsucceeds⟩ := h
      exact ⟨_, .succeeding hsucceeds⟩
    · exact ⟨_, .unsaved fun h' predecessor hsucceeds => h ⟨h', predecessor, hsucceeds⟩⟩
  | smart r =>
    cases hcached : r.cached with
    | some properties => exact ⟨_, .cached hcached⟩
    | none =>
      cases hfind : pool.holons.values.find? fun h => h.predecessorId = some r.holonId.localId with
      | none => exact ⟨_, .missed hcached (find?_succeeding_eq_none_iff.1 hfind)⟩
      | some h =>
        obtain ⟨id, hsucceeds, hfirst⟩ := find?_succeeding_eq_some_iff.1 hfind
        exact ⟨_, .pooled hcached hsucceeds hfirst⟩

theorem exists_forall₂_reads (pool : Pool) : ∀ members : List Reference,
    ∃ readings, List.Forall₂ (Reads pool) members readings
  | [] => ⟨[], .nil⟩
  | r :: members => by
    obtain ⟨reading, hreads⟩ := exists_reads pool r
    obtain ⟨readings, hrest⟩ := exists_forall₂_reads pool members
    exact ⟨reading :: readings, .cons hreads hrest⟩

theorem concat_ofMember {members : List Reference} {readings : List Reading}
    (h : List.Forall₂ (Reads pool) members readings) :
    concat (members.map (ofMember pool)) =
      ⟨[], readings.filterMap Reading.fetched?, readings.filterMap Reading.missing?⟩ := by
  induction h with
  | nil => rfl
  | @cons r reading members readings hreads _ ih =>
    rw [List.map_cons, concat, List.foldr_cons, ← concat, ih, ofMember_of_reads hreads]
    cases reading <;> rfl

theorem concat_ofHolon (hs : List Holon) :
    concat (hs.map ofHolon) = ⟨(ResponseBody.holons hs).committedViews, hs.filterMap Holon.asSaved?, []⟩ := by
  induction hs with
  | nil => rfl
  | cons h hs ih =>
    rw [List.map_cons, concat, List.foldr_cons, ← concat, ih]
    cases h with
    | staged h =>
      have hviews : (ResponseBody.holons (.staged h :: hs)).committedViews =
          h.toSaved?.toList ++ (ResponseBody.holons hs).committedViews := by
        unfold ResponseBody.committedViews ResponseBody.listed
        rw [List.filterMap_cons, Holon.asStaged?, Option.bind_some]
        cases h.toSaved? <;> rfl
      rw [hviews]
      rfl
    | transient h => rfl
    | saved h => rfl

theorem ofHolon_eq (h : Holon) :
    ofHolon h = ⟨(ResponseBody.holon h).committedViews, [h].filterMap Holon.asSaved?, []⟩ := by
  have hone : concat ([h].map ofHolon) = ofHolon h := by simp [concat, append, none]
  exact hone.symm.trans (concat_ofHolon [h])

theorem ofBody_of_tells {s : SessionState} {b : ResponseBody} {f : Findings} (h : Tells s b f) : ofBody s b = f := by
  cases h with
  | members hreads => exact concat_ofMember hreads
  | listing hlists =>
    cases b with
    | holon h => exact ofHolon_eq h
    | holons hs => exact concat_ofHolon hs
    | collection c => exact absurd rfl (hlists c)
    | _ => rfl

theorem tells_ofBody (s : SessionState) (b : ResponseBody) : Tells s b (ofBody s b) := by
  by_cases h : ∃ c, b = .collection c
  · obtain ⟨c, rfl⟩ := h
    obtain ⟨readings, hreads⟩ := exists_forall₂_reads s.transientHolons c.members
    have htells : Tells s (.collection c) _ := .members hreads
    rw [ofBody_of_tells htells]
    exact htells
  · have htells : Tells s b _ := .listing fun c hc => h ⟨c, hc⟩
    rw [ofBody_of_tells htells]
    exact htells

end Findings

variable {dance : String} {seq : UInt64} {current : SessionState} {response : DanceResponse}

/-- The reconciliation that a response comes to if nothing is wrong with it. -/
structure TakenOver (seq : UInt64) (current : SessionState) (response : DanceResponse) (r : Reconciliation) : Prop where
  status : response.status = .ok ∨ response.status = .accepted
  snapshot : response.snapshot = some r.state
  transaction : r.state.txId = current.txId
  sound : r.state.checkInvariants = .ok ()
  number : r.seq = seq
  outcome : r.status = response.status
  body : r.body = response.body
  findings : Tells r.state response.body r.findings

/-- **The first fault of a response**, as the caller is told of it. -/
inductive Refuses (dance : String) (current : SessionState) (response : DanceResponse) : CallError → Prop
  | failure : ¬ (response.status = .ok ∨ response.status = .accepted) →
    Refuses dance current response (.rejected dance response.status response.description)
  | bare : response.status = .ok ∨ response.status = .accepted → response.snapshot = none →
    Refuses dance current response (.missingSnapshot dance)
  | foreign {s : SessionState} : response.status = .ok ∨ response.status = .accepted → response.snapshot = some s →
    s.txId ≠ current.txId → Refuses dance current response (.refused (.crossTransaction current.txId s.txId))
  | unsound {s : SessionState} {why : String} : response.status = .ok ∨ response.status = .accepted →
    response.snapshot = some s → s.txId = current.txId → s.checkInvariants = .error (.invalidWireFormat why) →
    Refuses dance current response (.refused (.invalidWireFormat why))

theorem Status.isSuccess_eq_true_iff {status : Status} :
    status.isSuccess = true ↔ status = .ok ∨ status = .accepted := by
  cases status <;> simp [isSuccess]

theorem Pool.exists_of_checkIndex_eq_error {p : Pool} {e : Refusal} (h : p.checkIndex = .error e) :
    ∃ why, e = .invalidWireFormat why := by
  unfold checkIndex at h
  cases hfault : p.keyedIndex.entries.findSome? p.indexFault? with
  | none => rw [hfault] at h; cases h
  | some fault =>
    rw [hfault] at h
    cases h
    obtain ⟨entry, -, hentry⟩ := List.exists_of_findSome?_eq_some hfault
    unfold indexFault? at hentry
    split at hentry
    · cases hentry
      exact ⟨_, rfl⟩
    · split at hentry
      · cases hentry
      · cases hentry
        exact ⟨_, rfl⟩

theorem SessionState.exists_of_checkInvariants_eq_error {s : SessionState} {e : Refusal}
    (h : s.checkInvariants = .error e) : ∃ why, e = .invalidWireFormat why := by
  simp only [checkInvariants, bind, Except.bind] at h
  cases htransient : s.transientHolons.checkIndex with
  | error e' =>
    rw [htransient] at h
    cases h
    exact Pool.exists_of_checkIndex_eq_error htransient
  | ok u =>
    cases hstaged : s.stagedHolons.checkIndex with
    | error e' =>
      rw [htransient, hstaged] at h
      cases h
      exact Pool.exists_of_checkIndex_eq_error hstaged
    | ok u' =>
      rw [htransient, hstaged] at h
      simp only at h
      split at h
      · cases h
        exact ⟨_, rfl⟩
      · cases h

/-- **Every response is taken over or refused** for its first fault. -/
theorem reconcile_cases (dance : String) (seq : UInt64) (current : SessionState) (response : DanceResponse) :
    (∃ r, reconcile dance seq current response = .ok r ∧ TakenOver seq current response r) ∨
      ∃ e, reconcile dance seq current response = .error e ∧ Refuses dance current response e := by
  unfold reconcile
  by_cases hstatus : response.status.isSuccess = true
  · have hgood := Status.isSuccess_eq_true_iff.1 hstatus
    rw [if_pos hstatus]
    cases hsnapshot : response.snapshot with
    | none => exact .inr ⟨_, rfl, .bare hgood hsnapshot⟩
    | some s =>
      simp only
      by_cases htx : s.txId = current.txId
      · rw [if_pos htx]
        cases hcheck : s.checkInvariants with
        | error e =>
          obtain ⟨why, rfl⟩ := SessionState.exists_of_checkInvariants_eq_error hcheck
          exact .inr ⟨_, rfl, .unsound hgood hsnapshot htx hcheck⟩
        | ok u =>
          have htells := Findings.tells_ofBody s response.body
          exact .inl ⟨_, rfl, hgood, hsnapshot, htx, hcheck, rfl, rfl, rfl, htells⟩
      · rw [if_neg htx]
        exact .inr ⟨_, rfl, .foreign hgood hsnapshot htx⟩
  · rw [if_neg hstatus]
    exact .inr ⟨_, rfl, .failure fun hgood => hstatus (Status.isSuccess_eq_true_iff.2 hgood)⟩

theorem TakenOver.reconcile_eq {r : Reconciliation} (h : TakenOver seq current response r) (dance : String) :
    reconcile dance seq current response = .ok r := by
  obtain ⟨seq', status', state, findings, body'⟩ := r
  obtain ⟨hgood, hsnapshot, htx, hsound, rfl, rfl, rfl, htells⟩ := h
  simp only at hsnapshot htx hsound htells
  simp only [reconcile, Status.isSuccess_eq_true_iff.2 hgood, if_true, hsnapshot, htx, hsound]
  rw [Findings.ofBody_of_tells htells]

theorem Refuses.reconcile_eq {e : CallError} (h : Refuses dance current response e) (seq : UInt64) :
    reconcile dance seq current response = .error e := by
  have hsuccess (hgood : response.status = .ok ∨ response.status = .accepted) : response.status.isSuccess = true :=
    Status.isSuccess_eq_true_iff.2 hgood
  cases h with
  | failure hbad =>
    have hfailure : ¬ response.status.isSuccess = true := fun h => hbad (Status.isSuccess_eq_true_iff.1 h)
    exact reconcile_of_failure dance seq current (Bool.eq_false_iff.2 hfailure)
  | bare hgood hnone => simp only [reconcile, hsuccess hgood, if_true, hnone]
  | foreign hgood hsnapshot htx => simp only [reconcile, hsuccess hgood, if_true, hsnapshot, if_neg htx]
  | unsound hgood hsnapshot htx hcheck => simp only [reconcile, hsuccess hgood, if_true, hsnapshot, htx, hcheck]

/-- **Reconciliation is its specification.**  A response is taken over exactly if it reports a success and carries a
session of the current transaction that passes the check; what comes of it then, and which fault is named otherwise, is
determined.  A placeholder stands among the holons that were read for every id that is missing, in the same order. -/
theorem reconciliation_is_its_specification (dance : String) (seq : UInt64) (current : SessionState)
    (response : DanceResponse) :
    let outcome := reconcile dance seq current response
    ((∃ r, outcome = .ok r) ↔ (response.status = .ok ∨ response.status = .accepted) ∧
      ∃ s, response.snapshot = some s ∧ s.txId = current.txId ∧ s.checkInvariants = .ok ()) ∧
      (∀ r, outcome = .ok r ↔ TakenOver seq current response r) ∧
      (∀ e, outcome = .error e ↔ Refuses dance current response e) ∧
      ∀ r, outcome = .ok r → (r.findings.placeholders.map .placeholder).Sublist r.findings.fetched := by
  intro outcome
  have hok (r : Reconciliation) : outcome = .ok r ↔ TakenOver seq current response r := by
    refine ⟨fun h => ?_, fun h => h.reconcile_eq dance⟩
    rcases reconcile_cases dance seq current response with ⟨r', hr', htaken⟩ | ⟨e, he, -⟩
    · cases h.symm.trans hr'
      exact htaken
    · cases h.symm.trans he
  have herror (e : CallError) : outcome = .error e ↔ Refuses dance current response e := by
    refine ⟨fun h => ?_, fun h => h.reconcile_eq seq⟩
    rcases reconcile_cases dance seq current response with ⟨r, hr, -⟩ | ⟨e', he', hrefuses⟩
    · cases h.symm.trans hr
    · cases h.symm.trans he'
      exact hrefuses
  refine ⟨⟨?_, ?_⟩, hok, herror, fun r hr => ?_⟩
  · rintro ⟨r, hr⟩
    have htaken := (hok r).1 hr
    exact ⟨htaken.status, r.state, htaken.snapshot, htaken.transaction, htaken.sound⟩
  · rintro ⟨hgood, s, hsnapshot, htx, hsound⟩
    exact ⟨⟨seq, response.status, s, .ofBody s response.body, response.body⟩,
      (hok _).2 ⟨hgood, hsnapshot, htx, hsound, rfl, rfl, rfl, Findings.tells_ofBody s response.body⟩⟩
  · have htells := ((hok r).1 hr).findings
    generalize r.findings = findings at htells ⊢
    generalize response.body = body at htells
    cases htells with
    | listing hlists => exact List.nil_sublist _
    | members hreads => exact Reading.placeholders_sublist _

/-- A session with two successors of the fifth holon, of which one has a title. -/
def twoSuccessors : SessionState :=
  let fifth := (TransientHolon.new (.ofValues [(⟨"title"⟩, .string "Holons")])).succeeding (.numbered 5)
  let pool := (∅ : Pool).insert (.numbered 2) (.transient ((TransientHolon.new ∅).succeeding (.numbered 5)))
  { SessionState.new ⟨1⟩ with transientHolons := pool.insert (.numbered 1) (.transient fifth) }

def fiveMembers : Collection :=
  { Collection.new .fetched with
    members := [.smart ⟨⟨1⟩, .local (.numbered 7), none⟩, .smart ⟨⟨1⟩, .local (.numbered 5), none⟩,
      .staged ⟨⟨1⟩, .numbered 1⟩, .transient ⟨⟨1⟩, .numbered 2⟩, .smart ⟨⟨1⟩, .local (.numbered 6), some ∅⟩] }

-- The seventh holon is missing; the sixth looks the same and is not.
example : (Findings.ofBody twoSuccessors (.collection fiveMembers)).placeholders = [.numbered 7] ∧
    (Findings.ofBody twoSuccessors (.collection fiveMembers)).fetched =
      [.placeholder (.numbered 7), .fetched (.numbered 5) (.ofValues [(⟨"title"⟩, .string "Holons")]) none 1,
        .fetched (.numbered 5) ∅ none 1, .placeholder (.numbered 6)] := by
  decide +kernel

end Holarchy
