import Holarchy.Proofs.Server.Orders
/-!
# Who may change what

A server starts empty; then it is seeded and asked.  The record of a run is what the server persisted in it, in that
order.  Of all that it can be asked only a commit and a deletion touch the store, and only two dances the transient pool.
-/
namespace Holarchy

namespace Order

def name : Order → String
  | .newHolon _ => "new_holon"
  | .stage _ | .stageTransient _ => "stage_new_holon"
  | .withProperties .. => "with_properties"
  | .removeProperties .. => "remove_properties"
  | .addRelated .. => "add_related_holons"
  | .removeRelated .. => "remove_related_holons"
  | .abandon _ => "abandon_staged_changes"
  | .commitAll | .commitOne _ => "commit"
  | .getAll => "get_all_holons"
  | .getById _ => "get_holon_by_id"
  | .getStagedByKey _ => "get_staged_holon_by_key"
  | .clone _ => "stage_new_from_clone"
  | .newVersion _ => "stage_new_version"
  | .delete _ => "delete_holon"
  | .query .. => "query_relationships"
  | .load _ => "load_holons"

def kind : Order → DanceType
  | .withProperties target _ | .removeProperties target _ | .addRelated target _ _ | .removeRelated target _ _
  | .abandon target | .commitOne target => .command target
  | .clone source => .clone source
  | .newVersion id => .newVersion id
  | .delete id => .delete id
  | .query sources _ => .query sources
  | _ => .standalone

def body : Order → RequestBody
  | .newHolon properties | .withProperties _ properties | .removeProperties _ properties
  | .getStagedByKey properties => .parameterValues properties
  | .stage holon => .holon holon
  | .stageTransient target => .transientReference target
  | .addRelated _ relationship holons | .removeRelated _ relationship holons => .targetHolons relationship holons
  | .getById id => .holonId id
  | .query _ q => .queryExpression q
  | .load content => .loadHolons content
  | _ => .none

/-- A read: its answer carries the session as the request did. -/
def isRead : Order → Bool
  | .getAll | .getById _ | .getStagedByKey _ | .query .. => true
  | _ => false

end Order

theorem DanceRequest.order_eq_ok_iff {r : DanceRequest} {space : SpaceId} {o : Order} :
    r.order space = .ok o ↔ r.name = o.name ∧ r.kind = o.kind ∧ r.body = o.body := by
  obtain ⟨name, kind, body, context⟩ := r
  constructor
  · intro h
    simp only [order] at h
    split at h
    · rename_i o' hnamed
      cases h
      unfold orderNamed? at hnamed
      split at hnamed
      all_goals first | cases hnamed | skip
      all_goals
        simp only [Option.some.injEq] at hnamed
        split at hnamed
        all_goals cases hnamed
        all_goals exact ⟨rfl, rfl, rfl⟩
    · cases h
    · cases h
  · rintro ⟨hname, hkind, hbody⟩
    simp only at hname hkind hbody
    subst hname hkind hbody
    cases o <;> rfl

namespace Store

variable {s : Store} {embed : Bool} {session : SessionState} {ids ids' : IdSource} {served : Served} {order : Order}

theorem committing?_eq_some_iff {es : List (TemporaryId × StagedHolon)} :
    committing? session order = some es ↔ order.name = "commit" ∧ session.chosen order.kind = es := by
  cases order <;> simp [committing?, Order.name, Order.kind]

theorem name_of_command {target : StagedReference} {ops : List Holon.Operation}
    (h : s.command? session order = some (target, ops)) : order.name ≠ "commit" ∧ order.name ≠ "delete_holon" := by
  cases order <;> simp [command?, Order.name] at h ⊢

theorem name_of_reading {outcome : Except Refusal ResponseBody} (h : s.reading? embed session order = some outcome) :
    order.name ≠ "commit" ∧ order.name ≠ "delete_holon" := by
  cases order <;> simp [reading?, Order.name] at h ⊢

theorem name_of_staging (g : Staging) : g.order.name ≠ "commit" ∧ g.order.name ≠ "delete_holon" := by
  cases g <;> simp [Staging.order, Order.name]

/-- **Who changes the store**: a commit adds to it, a deletion takes away what is there. -/
theorem Gives.store (h : s.Gives embed session ids order served ids') :
    (order.name = "commit" ∧ s.Commits session (session.chosen order.kind) served) ∨
      ((order.name ≠ "commit" ∧ order.name ≠ "delete_holon") ∧ served.store = s) ∨
      ∃ id holon, order = .delete id ∧ s.saved.get? id = some holon ∧
        served.store = { s with saved := s.saved.erase id } := by
  cases h with
  | drafted => exact .inr (.inl ⟨by simp [Order.name], rfl⟩)
  | @staged g => exact .inr (.inl ⟨name_of_staging g, rfl⟩)
  | loaded => exact .inr (.inl ⟨by simp [Order.name], rfl⟩)
  | commanded hcommand => exact .inr (.inl ⟨name_of_command hcommand, rfl⟩)
  | committed hcommitting _ hcommits =>
    obtain ⟨hname, rfl⟩ := committing?_eq_some_iff.1 hcommitting
    exact .inl ⟨hname, hcommits⟩
  | answered hreading => exact .inr (.inl ⟨name_of_reading hreading, rfl⟩)
  | deleted hget => exact .inr (.inr ⟨_, _, rfl, hget, rfl⟩)

/-- A read and a deletion give the session back as it came. -/
theorem Gives.echo (h : s.Gives embed session ids order served ids')
    (horder : order.isRead = true ∨ order.name = "delete_holon") : served.session = session := by
  cases h with
  | drafted => simp [Order.isRead, Order.name] at horder
  | @staged g => cases g <;> simp [Staging.order, Order.isRead, Order.name] at horder
  | loaded => simp [Order.isRead, Order.name] at horder
  | commanded hcommand => cases order <;> simp [command?, Order.isRead, Order.name] at hcommand horder
  | committed hcommitting => cases order <;> simp [committing?, Order.isRead, Order.name] at hcommitting horder
  | answered => rfl
  | deleted => rfl

end Store

namespace Server

variable {s : Server} {r : DanceRequest} {ids : IdSource}

/-- **What a request does to the store, and what is recorded of it.** -/
theorem handle_store (s : Server) (r : DanceRequest) (ids : IdSource) :
    (((s.handle r ids).1.1.status.isSuccess = true → r.name ≠ "commit" ∧ r.name ≠ "delete_holon") ∧
        (s.handle r ids).1.2.store = s.store ∧ s.persisted r ids = []) ∨
      (r.name = "commit" ∧ (s.handle r ids).1.1.status.isSuccess = true ∧
        (s.handle r ids).1.1.body.committedViews = s.persisted r ids ∧ ∃ hs : List StagedHolon,
          (s.handle r ids).1.2.store = s.store.gaining hs ∧ s.persisted r ids = s.store.additions hs) ∨
      ∃ id holon, r.name = "delete_holon" ∧ r.kind = .delete id ∧ (s.handle r ids).1.1.status.isSuccess = true ∧
        s.store.saved.get? id = some holon ∧ s.persisted r ids = [] ∧
        (s.handle r ids).1.2.store = { s.store with saved := s.store.saved.erase id } := by
  cases hok : (s.handle r ids).1.1.status.isSuccess with
  | false =>
    refine .inl ⟨nofun, (handle_refused hok).1, ?_⟩
    rw [persisted, if_neg (fun h => by rw [hok] at h; cases h.2)]
  | true =>
    obtain ⟨order, served, horder, hgives, hhandle⟩ := gives_of_isSuccess hok
    obtain ⟨hname, hkind, -⟩ := DanceRequest.order_eq_ok_iff.1 horder
    have hstore : (s.handle r ids).1.2.store = served.store := by rw [hhandle]
    rcases hgives.store with ⟨hcommit, hcommits⟩ | ⟨hnot, hsame⟩ | ⟨id, holon, rfl, hget, herased⟩
    · have hpersisted : s.persisted r ids =
          s.store.additions ((r.context.state.chosen order.kind).map Prod.snd) := by
        rw [persisted, if_pos ⟨hname.trans hcommit, hok⟩, hkind]
      refine .inr (.inl ⟨hname.trans hcommit, rfl, ?_, _, hstore.trans hcommits.store, hpersisted⟩)
      rw [hhandle, hpersisted]
      exact hcommits.views
    · refine .inl ⟨fun _ => hname ▸ hnot, hstore.trans hsame, ?_⟩
      rw [persisted, if_neg (fun h => hnot.1 (hname.symm.trans h.1))]
    · refine .inr (.inr ⟨id, holon, hname, hkind, rfl, hget, ?_, hstore.trans herased⟩)
      rw [persisted, if_neg (fun h => by simp [hname, Order.name] at h)]

/-- **What a request does to the session that it carries.** -/
theorem handle_snapshot (hok : (s.handle r ids).1.1.status.isSuccess = true) :
    ∃ s', (s.handle r ids).1.1.snapshot = some s' ∧ s'.txId = r.context.state.txId ∧
      s'.localHolonSpace = r.context.state.localHolonSpace ∧
      (s'.transientHolons ≠ r.context.state.transientHolons →
        r.name = "new_holon" ∨ r.name = "stage_new_holon" ∧ ∃ target, r.body = .transientReference target) ∧
      (r.name ∈ ["get_all_holons", "get_holon_by_id", "get_staged_holon_by_key", "query_relationships",
        "delete_holon"] → s' = r.context.state) := by
  obtain ⟨order, served, horder, hgives, hhandle⟩ := gives_of_isSuccess hok
  obtain ⟨hname, -, hbody⟩ := DanceRequest.order_eq_ok_iff.1 horder
  refine ⟨served.session, by rw [hhandle]; rfl, hgives.scope.1, hgives.scope.2, fun hchange => ?_, fun hread => ?_⟩
  · rcases hgives.transient with hsame | ⟨properties, rfl, -⟩ | ⟨target, rfl, -⟩
    · exact absurd hsame hchange
    · exact .inl hname
    · exact .inr ⟨hname, target, hbody⟩
  · refine hgives.echo ?_
    rw [hname] at hread
    cases order <;> simp [Order.isRead, Order.name] at hread ⊢

/-- A failure that was injected is the answer to one request, whatever this is. -/
theorem handle_injected {e : Refusal} (h : s.failNext = some e) :
    s.handle r ids = ((.ofRefusal s.space e, { s with failNext := none }), ids) := by
  simp only [handle, h]

end Server

/-- A server and the source of the ids that it draws. -/
structure Running where
  server : Server
  ids : IdSource

namespace Running

/-- What can happen to a server. -/
inductive Event where
  | seed (properties : PropertyMap)
  /-- The next request is to be answered with a refusal. -/
  | failNext (e : Refusal)
  | wait (delay : Option Nat)
  | embed (on : Bool)
  | receive (r : DanceRequest)
  | handle (r : DanceRequest)

def start (space : SpaceId) (ids : IdSource) : Running := ⟨.new space, ids⟩

def step (x : Running) : Event → Running
  | .seed properties => { x with server := (x.server.seed properties).1 }
  | .failNext e => { x with server := { x.server with failNext := some e } }
  | .wait delay => { x with server := { x.server with delay } }
  | .embed on => { x with server := { x.server with embedProperties := on } }
  | .receive r => { x with server := x.server.receive r }
  | .handle r => ⟨(x.server.handle r x.ids).1.2, (x.server.handle r x.ids).2⟩

def run (x : Running) (es : List Event) : Running := es.foldl step x

/-- What the server persists as something happens. -/
def persists (x : Running) : Event → List SavedHolon
  | .seed properties => [.fetched x.server.store.nextId properties none 1]
  | .handle r => x.server.persisted r x.ids
  | _ => []

def record (x : Running) : List Event → List SavedHolon
  | [] => []
  | e :: es => x.persists e ++ (x.step e).record es

/-- The counter of the store has counted what is on record, and the record is in its order. -/
structure Recorded (x : Running) (log : List SavedHolon) : Prop where
  follows : x.server.store.Follows log
  counter : x.server.store.lastId = .ofNat log.length

variable {x : Running} {log : List SavedHolon}

theorem Recorded.hasRoom (h : x.Recorded log) {n : Nat} (hroom : log.length + n < UInt64.size) :
    x.server.store.HasRoom n := by
  have hlast : x.server.store.lastId.toNat = log.length := by
    rw [h.counter]
    exact UInt64.toNat_ofNat_of_lt' (Nat.lt_of_le_of_lt (Nat.le_add_right _ _) hroom)
  rw [Store.HasRoom, hlast]
  exact hroom

/-- **What becomes of the store** as something happens to the server: nothing, or a holon is seeded, some holons are
committed, or one is deleted. -/
theorem store_cases (x : Running) (e : Event) :
    ((x.step e).server.store = x.server.store ∧ x.persists e = []) ∨
    (∃ holon, (x.step e).server.store = x.server.store.adding holon ∧ holon.savedId = x.server.store.nextId ∧
      x.persists e = [holon]) ∨
    (∃ hs, (x.step e).server.store = x.server.store.gaining hs ∧ x.persists e = x.server.store.additions hs) ∨
    ∃ id, (x.step e).server.store = { x.server.store with saved := x.server.store.saved.erase id } ∧
      x.persists e = [] := by
  cases e with
  | seed properties => exact .inr (.inl ⟨_, rfl, rfl, rfl⟩)
  | handle r =>
    rcases x.server.handle_store r x.ids with ⟨-, hstore, hnone⟩ | ⟨-, -, -, hs, hstore, hpersisted⟩ |
      ⟨id, holon, -, -, -, -, hnone, hstore⟩
    · exact .inl ⟨hstore, hnone⟩
    · exact .inr (.inr (.inl ⟨hs, hstore, hpersisted⟩))
    · exact .inr (.inr (.inr ⟨id, hstore, hnone⟩))
  | failNext | wait | embed | receive => exact .inl ⟨rfl, rfl⟩

/-- **What happens to a server keeps the record**, as long as there are numbers for it. -/
theorem Recorded.step (h : x.Recorded log) (e : Event) (hroom : log.length + (x.persists e).length < UInt64.size) :
    (x.step e).Recorded (log ++ x.persists e) := by
  rcases x.store_cases e with ⟨hstore, hnone⟩ | ⟨holon, hstore, hid, hone⟩ | ⟨hs, hstore, hmany⟩ |
    ⟨id, hstore, hnone⟩
  · rw [hnone, List.append_nil]
    exact ⟨hstore ▸ h.follows, hstore ▸ h.counter⟩
  · rw [hone] at hroom ⊢
    have hroom' : x.server.store.HasRoom (0 + 1) := h.hasRoom hroom
    refine ⟨hstore ▸ h.follows.recording hroom' hid, ?_⟩
    rw [hstore, Store.adding, List.length_append, List.length_singleton, UInt64.ofNat_add, h.counter]
    rfl
  · rw [hmany, Store.length_additions] at hroom
    rw [hmany]
    refine ⟨hstore ▸ h.follows.gaining (h.hasRoom hroom), ?_⟩
    rw [hstore, Store.gaining, List.length_append, Store.length_additions, UInt64.ofNat_add, h.counter]
  · rw [hnone, List.append_nil]
    exact ⟨hstore ▸ h.follows.erasing id, hstore ▸ h.counter⟩

/-- What every event keeps of a server and its record, a run keeps, as long as there are numbers for the record. -/
theorem run_of_step {P : Running → List SavedHolon → Prop}
    (hstep : ∀ {x log} (e : Event), P x log → log.length + (x.persists e).length < UInt64.size →
      P (x.step e) (log ++ x.persists e))
    {es : List Event} (h : P x log) (hroom : log.length + (x.record es).length < UInt64.size) :
    P (x.run es) (log ++ x.record es) := by
  induction es generalizing x log with
  | nil => exact (List.append_nil log).symm ▸ h
  | cons e es ih =>
    rw [record, List.length_append, ← Nat.add_assoc] at hroom
    have hnext := hstep e h (Nat.lt_of_le_of_lt (Nat.le_add_right _ _) hroom)
    have hrest := ih hnext (by rw [List.length_append]; exact hroom)
    rw [List.append_assoc] at hrest
    exact hrest

theorem Recorded.run {es : List Event} (h : x.Recorded log) (hroom : log.length + (x.record es).length < UInt64.size) :
    (x.run es).Recorded (log ++ x.record es) :=
  run_of_step (fun e h => h.step e) h hroom

theorem recorded_start (space : SpaceId) (ids : IdSource) : (start space ids).Recorded [] :=
  ⟨⟨Store.counted_empty, fun _ h => (by cases h), .nil⟩, rfl⟩

/-- Neither a request that is run nor an injected failure. -/
def Event.isQuiet : Event → Bool
  | .handle _ | .failNext _ => false
  | _ => true

/-- An injected failure waits, and what else happens is as if it had not been injected. -/
theorem run_quiet {es : List Event} (hquiet : ∀ e ∈ es, e.isQuiet = true) (x : Running) (e : Option Refusal) :
    run { x with server := { x.server with failNext := e } } es =
      { x.run es with server := { (x.run es).server with failNext := e } } := by
  induction es generalizing x with
  | nil => rfl
  | cons event es ih =>
    have hrest := ih (fun e he => hquiet e (List.mem_cons_of_mem _ he)) (x.step event)
    have hevent := hquiet event List.mem_cons_self
    cases event with
    | handle | failNext => cases hevent
    | _ => exact hrest

/-- The same server without an injected failure. -/
def ready (x : Running) : Running := { x with server := { x.server with failNext := none } }

/-- **Who may change what.**  Of a server that was seeded and asked in any way, and any next request: the request changes
the store only if it succeeds, and only if it is a commit, which adds what it lists as committed and nothing else, or a
deletion, which takes away the holon that it names and that was there.  An answer of success carries the session of the
request: in the same transaction and space, with the same transient holons unless one was drafted or staged, and as it
came if the dance reads or deletes.  A refused request changes nothing and gets no session back.  An injected failure is
the answer to the next request, and otherwise it is as if neither of the two had been. -/
theorem who_may_change_what (space : SpaceId) (ids : IdSource) (es : List Event) (r : DanceRequest) :
    let x := (start space ids).run es
    let answer := (x.server.handle r x.ids).1.1
    let store := x.server.store
    let store' := (x.step (.handle r)).server.store
    (answer.status.isSuccess = false → store' = store ∧ answer.snapshot = none) ∧
      (store' ≠ store → answer.status.isSuccess = true ∧ (r.name = "commit" ∨ r.name = "delete_holon")) ∧
      (r.name = "commit" → answer.status.isSuccess = true →
        let new := answer.body.committedViews
        (∀ id, (∀ h ∈ new, h.savedId ≠ id) → store'.saved.get? id = store.saved.get? id) ∧
          (((start space ids).record es).length + new.length < UInt64.size →
            store'.saved.entries = store.saved.entries ++ new.map fun h => (h.savedId, h))) ∧
      (r.name = "delete_holon" → answer.status.isSuccess = true →
        ∃ id, r.kind = .delete id ∧ (store.saved.get? id).isSome = true ∧ store'.lastId = store.lastId ∧
          ∀ j, store'.saved.get? j = if j = id then none else store.saved.get? j) ∧
      (answer.status.isSuccess = true → ∃ s', answer.snapshot = some s' ∧ s'.txId = r.context.state.txId ∧
        s'.localHolonSpace = r.context.state.localHolonSpace ∧
        (s'.transientHolons ≠ r.context.state.transientHolons →
          r.name = "new_holon" ∨ r.name = "stage_new_holon" ∧ ∃ target, r.body = .transientReference target) ∧
        (r.name ∈ ["get_all_holons", "get_holon_by_id", "get_staged_holon_by_key", "query_relationships",
          "delete_holon"] → s' = r.context.state)) ∧
      ∀ (e : Refusal) (quiet : List Event), (∀ event ∈ quiet, event.isQuiet = true) →
        let y := x.run (.failNext e :: quiet)
        (y.server.handle r y.ids).1.1 = .ofRefusal y.server.space e ∧ y.step (.handle r) = x.ready.run quiet ∧
          (x.ready.run quiet).server.failNext = none := by
  intro x answer store store'
  have hrecorded (hroom : ((start space ids).record es).length < UInt64.size) :
      x.Recorded ((start space ids).record es) := by
    rw [← Nat.zero_add ((start space ids).record es).length] at hroom
    exact (recorded_start space ids).run hroom
  refine ⟨Server.handle_refused, fun hchange => ?_, fun hname hok => ?_, fun hname hok => ?_, Server.handle_snapshot,
    fun e quiet hquiet => ?_⟩
  · rcases x.server.handle_store r x.ids with ⟨-, hsame, -⟩ | ⟨hname, hok, -⟩ | ⟨id, holon, hname, -, hok, -⟩
    · exact absurd hsame hchange
    · exact ⟨hok, .inl hname⟩
    · exact ⟨hok, .inr hname⟩
  · rcases x.server.handle_store r x.ids with ⟨hnot, -⟩ | ⟨-, -, hviews, hs, hstore, hpersisted⟩ | ⟨_, _, hdelete, -⟩
    · exact absurd hname (hnot hok).1
    · have hnew : answer.body.committedViews = store.additions hs := hviews.trans hpersisted
      have hstore' : store' = store.gaining hs := hstore
      simp only [hnew, hstore']
      refine ⟨fun id hid => ?_, fun hroom => ?_⟩
      · refine SortedMap.get?_insertMany_of_forall fun e he => ?_
        obtain ⟨h, hmem, rfl⟩ := List.mem_map.1 he
        exact hid h hmem
      · rw [Store.length_additions] at hroom
        have hrun := hrecorded (Nat.lt_of_le_of_lt (Nat.le_add_right _ _) hroom)
        exact hrun.follows.counted.entries_gaining (hrun.hasRoom hroom)
    · exact absurd (hname.symm.trans hdelete) (by decide)
  · rcases x.server.handle_store r x.ids with ⟨hnot, -⟩ | ⟨hcommit, -⟩ | ⟨id, holon, -, hkind, -, hget, -, hstore⟩
    · exact absurd hname (hnot hok).2
    · exact absurd (hcommit.symm.trans hname) (by decide)
    · have hstore' : store' = { store with saved := store.saved.erase id } := hstore
      refine ⟨id, hkind, by rw [hget]; rfl, by rw [hstore'], fun j => ?_⟩
      rw [hstore']
      exact SortedMap.get?_erase _ _ _
  · intro y
    have hy : y = { x.ready.run quiet with server := { (x.ready.run quiet).server with failNext := some e } } :=
      run_quiet hquiet x.ready (some e)
    have hready : (x.ready.run quiet).server.failNext = none := by
      have hnone : x.ready.run quiet =
          { x.ready.run quiet with server := { (x.ready.run quiet).server with failNext := none } } :=
        run_quiet hquiet x.ready none
      rw [hnone]
    have hhandle : y.server.handle r y.ids =
        ((.ofRefusal y.server.space e, { y.server with failNext := none }), y.ids) :=
      Server.handle_injected (by rw [hy])
    have hstep : y.step (.handle r) = ⟨{ y.server with failNext := none }, y.ids⟩ := by simp only [step, hhandle]
    refine ⟨by rw [hhandle], ?_, hready⟩
    rw [hstep, hy]
    simp only [← hready]

def library : Running := (start ⟨"local"⟩ (.ofPresets [])).run [.seed ∅, .seed ∅]

def deletion (id : LocalId) : DanceRequest := .new "delete_holon" (.delete id) .none ⟨"local"⟩ (.new ⟨1⟩)

/-- The two drafts go behind the two holons that are there; then one of these is taken away; and a commit that is made
to fail leaves the server as it was. -/
theorem who_may_change_what_in_library :
    let committed := library.step (.handle (Server.commitDrafts .standalone))
    let deleted := library.step (.handle (deletion (.numbered 1)))
    committed.server.store.saved.entries.map (fun e => (e.1, e.2.properties.key?)) =
        [(.numbered 1, none), (.numbered 2, none), (.numbered 3, some "first"), (.numbered 4, some "third")] ∧
      deleted.server.store.saved.get? (.numbered 1) = none ∧
      (deleted.server.store.saved.get? (.numbered 2)).isSome = true ∧
      (library.run [.failNext (.notImplemented "commit"), .wait none]).step
        (.handle (Server.commitDrafts .standalone)) = library.run [.wait none] := by
  obtain ⟨-, -, hadds, -, -, hinjected⟩ := who_may_change_what ⟨"local"⟩ (.ofPresets []) [.seed ∅, .seed ∅]
    (Server.commitDrafts .standalone)
  obtain ⟨-, -, -, htakes, -⟩ := who_may_change_what ⟨"local"⟩ (.ofPresets []) [.seed ∅, .seed ∅]
    (deletion (.numbered 1))
  obtain ⟨id, hkind, -, -, hget⟩ := htakes rfl (by decide +kernel)
  cases hkind
  have hother : (library.step (.handle (deletion (.numbered 1)))).server.store.saved.get? (.numbered 2) =
      library.server.store.saved.get? (.numbered 2) := (hget _).trans (if_neg (by decide +kernel))
  refine ⟨?_, (hget _).trans (if_pos rfl), ?_, (hinjected _ [.wait none] (by decide)).2.1⟩
  · refine (congrArg _ ((hadds rfl (by decide +kernel)).2 (by decide +kernel))).trans ?_
    decide +kernel
  · rw [hother]
    decide +kernel

end Running

end Holarchy
