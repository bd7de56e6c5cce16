import Holarchy.Proofs.Client.Acceptance
import Holarchy.Proofs.Client.Alone
import Holarchy.Proofs.Server.Reading
/-!
# Reading everything

A list of all persisted holons comes with their properties or with placeholders, and then every placeholder is read by
its id.  For the result to be what the store has, three things must hold that no single step shows: a holon stands in
the store under its own id, no transient holon of the session passes for a persisted one, and a holon that is read goes
into the places of its placeholder and no other.
-/
namespace Holarchy

namespace Exchange

variable {x : Exchange} {log : List SavedHolon}

theorem Agrees.original_step (h : x.Agrees log) (horiginal : x.state.Original) (e : Event) :
    (x.step e).state.Original := by
  cases horder : x.order? e with
  | none =>
    rw [h.state_of_order?_eq_none horder]
    exact horiginal
  | some order =>
    obtain ⟨served, hgives, hstate⟩ := h.gives_of_order? horder
    rw [hstate]
    exact hgives.original horiginal

theorem Agrees.original_run {es : List Event} (hask : ∀ caller call, .ask caller call ∈ es → ∃ d, call = .typed d)
    (h : x.Agrees log) (horiginal : x.state.Original) : (x.run es).state.Original := by
  induction es generalizing x log with
  | nil => exact horiginal
  | cons e es ih =>
    have hstep := h.step fun caller call he => hask caller call (he ▸ List.mem_cons_self)
    have hrest : ∀ caller call, .ask caller call ∈ es → ∃ d, call = .typed d := fun caller call he =>
      hask caller call (List.mem_cons_of_mem _ he)
    exact ih hrest hstep (h.original_step horiginal e)

end Exchange

namespace Remote

variable {r : Remote} {s : Server}

@[simp] theorem server?_mapServer (r : Remote) (f : Server → Server) : (r.mapServer f).server? = r.server?.map f := by
  cases r <;> rfl

theorem receive_of_server (h : r.server? = some s) (q : DanceRequest) :
    r.receive q = (.ok q, r.mapServer fun s => s.receive q) := by
  cases r with
  | direct s => rfl
  | encoded s => exact receive_encoded s q
  | _ => cases h

theorem answer_of_server (h : r.server? = some s) (q : DanceRequest) (ids : IdSource) :
    r.answer q ids =
      ((.ok (s.handle q ids).1.1, r.mapServer fun _ => (s.handle q ids).1.2), (s.handle q ids).2) := by
  cases r with
  | direct s' =>
    cases h
    rfl
  | encoded s' =>
    cases h
    exact answer_encoded s q ids
  | _ => cases h

end Remote

/-- The request that a client makes for a dance, unless the dance is refused. -/
def Client.requestFor (c : Client) (d : Dance) : DanceRequest := .new d.name d.kind d.body c.space c.state

theorem Client.launch_of_guard {c : Client} {d : Dance} (h : d.guard c.state = .ok ()) :
    c.launch (.typed d) = .ok (⟨.typed d, c.session.issued + 1, c.state, c.requestFor d⟩,
      { c with session := { c.session with issued := c.session.issued + 1 } }) := by
  have hrequest : (Call.typed d).build c.session.space c.session.state = .ok (c.requestFor d) :=
    Dance.request_of_guard h c.space
  simp only [launch, Session.launch, hrequest]
  rfl

/-- A success that carries the session as it was is taken over, whatever was read. -/
theorem reconcile_of_same {s : SessionState} (h : s.Sound) (dance : String) (seq : UInt64) (space : SpaceId)
    (body : ResponseBody) : reconcile dance seq s (.ok space body s) = .ok ⟨seq, .ok, s, .ofBody s body, body⟩ := by
  have hcheck := SessionState.checkInvariants_eq_ok_iff.2 h
  simp only [reconcile, DanceResponse.ok, Status.isSuccess, hcheck, if_true]

namespace Connection

/-- A sound session next to a server that has its holons under their own ids and is not made to fail. -/
structure Readable (k : Connection) (server : Server) : Prop where
  reached : k.remote.server? = some server
  ready : server.failNext = none
  filed : server.store.Filed
  sound : k.client.state.Sound

/-- What reading does to a connection: its server has noted the requests and is as it was otherwise, and so is the
session. -/
structure Consults (k : Connection) (server : Server) (ds : List Dance) (k' : Connection) : Prop where
  state : k'.client.state = k.client.state
  space : k'.client.space = k.client.space
  server : k'.remote.server? = some { server with requests := server.requests ++ ds.map k.client.requestFor }

variable {k k' k'' : Connection} {server : Server} {d : Dance} {ds : List Dance}

theorem Consults.refl (h : k.Readable server) : k.Consults server [] k :=
  ⟨rfl, rfl, by rw [h.reached, List.map_nil, List.append_nil]⟩

theorem Consults.cons (h : k.Consults server [d] k')
    (h' : k'.Consults (server.receive (k.client.requestFor d)) ds k'') : k.Consults server (d :: ds) k'' := by
  have hrequests : k'.client.requestFor = k.client.requestFor := by
    funext d
    rw [Client.requestFor, Client.requestFor, h.state, h.space]
  refine ⟨h'.state.trans h.state, h'.space.trans h.space, ?_⟩
  rw [h'.server, hrequests, Server.receive, List.append_assoc, List.map_cons, List.singleton_append]

theorem Readable.consults (h : k.Readable server) (hread : k.Consults server [d] k') :
    k'.Readable (server.receive (k.client.requestFor d)) :=
  ⟨hread.server, h.ready, h.filed, hread.state ▸ h.sound⟩

/-- **A read that finds something gives it to its caller.** -/
theorem Readable.call (h : k.Readable server) {body : ResponseBody} {answer : Answer}
    (hguard : d.guard k.client.state = .ok ())
    (hreading : server.store.reading? server.embedProperties k.client.state d.order = some (.ok body))
    (hanswer : ∀ seq, Answer.ofDance? d ⟨seq, .ok, k.client.state, .ofBody k.client.state body, body⟩ = some answer) :
    ∃ r k', k.call (.typed d) = (.ok (r, answer), k') ∧ k.Consults server [d] k' := by
  let q := k.client.requestFor d
  let f : Flight := ⟨.typed d, k.client.session.issued + 1, k.client.state, q⟩
  let launched : Client := { k.client with session := { k.client.session.begin with issued := f.seq } }
  have hlaunch : k.client.begin.launch (.typed d) = .ok (f, launched) := Client.launch_of_guard hguard
  let noted : Remote := k.remote.mapServer fun s => s.receive q
  have hreceive : k.remote.receive q = (.ok q, noted) := Remote.receive_of_server h.reached q
  have hnoted : noted.server? = some (server.receive q) := by
    simp only [noted, Remote.server?_mapServer, h.reached]
    rfl
  have hhandle : (server.receive q).handle q k.ids =
      ((.ok server.space body k.client.state, server.receive q), k.ids) :=
    Server.handle_of_reading k.ids h.ready (d.order_new k.client.space server.space k.client.state) hreading
  have hreply := Remote.answer_of_server hnoted q k.ids
  rw [hhandle] at hreply
  let r : Reconciliation := ⟨f.seq, .ok, k.client.state, .ofBody k.client.state body, body⟩
  have hreconcile : reconcile f.name f.seq f.before (.ok server.space body k.client.state) = .ok r :=
    reconcile_of_same h.sound f.name f.seq server.space body
  have hcurrent : launched.session.isCurrent f.seq = true := decide_eq_true rfl
  obtain ⟨hland, hstate⟩ := Client.land_of_current launched hcurrent rfl hreconcile (hanswer f.seq)
  let k' : Connection :=
    ⟨(launched.land f (.ok (.ok server.space body k.client.state))).2, noted.mapServer fun _ => server.receive q, k.ids⟩
  refine ⟨r, k', ?_, hstate, launched.space_land f _, ?_⟩
  · rw [Connection.call, hlaunch]
    simp only [f, hreceive, hreply]
    exact Prod.ext hland rfl
  · simp only [k', Remote.server?_mapServer, hnoted]
    rfl

/-- **Placeholders of what the store has are all filled**, by one read each. -/
theorem Readable.refreshFrom (h : k.Readable server) (holons : List SavedHolon) {ids : List LocalId}
    (hstored : ∀ id ∈ ids, ∃ holon, server.store.saved.get? id = some holon) :
    ∃ k', k.refreshFrom holons ids = (.ok ⟨holons.map (server.store.filling ids), []⟩, k') ∧
      k.Consults server (ids.map fun id => .getHolonById (.local id)) k' := by
  induction ids generalizing k server holons with
  | nil =>
    have hsame : holons.map (server.store.filling []) = holons :=
      (List.map_congr_left fun g _ => if_neg List.not_mem_nil).trans (List.map_id _)
    rw [hsame]
    exact ⟨k, rfl, .refl h⟩
  | cons id rest ih =>
    obtain ⟨holon, hget⟩ := hstored id List.mem_cons_self
    let d : Dance := .getHolonById (.local id)
    have hreading : server.store.reading? server.embedProperties k.client.state d.order =
        some (.ok (.holon (.saved holon))) := by
      have hfind : server.store.find (HolonId.local id).localId = .ok holon := Store.find_eq_ok_iff.2 hget
      simp only [d, Dance.order, Store.reading?, hfind]
      rfl
    have hanswer : ∀ seq, Answer.ofDance? d ⟨seq, .ok, k.client.state, .ofBody k.client.state (.holon (.saved holon)),
        .holon (.saved holon)⟩ = some (.savedHolon holon) := fun _ => rfl
    obtain ⟨r, k₁, hcall, hread⟩ := h.call rfl hreading hanswer
    obtain ⟨k₂, hrest, hreads⟩ := ih (h.consults hread) (holons.map fun g => if g.savedId = id then holon else g)
      fun id' hid' => hstored id' (List.mem_cons_of_mem _ hid')
    refine ⟨k₂, ?_, hread.cons hreads⟩
    -- What has been filled has the id that it was read by, so that the reads behind leave it as it is.
    have hholons : (holons.map fun g => if g.savedId = id then holon else g).map (server.store.filling rest) =
        holons.map (server.store.filling (id :: rest)) := by
      rw [List.map_map]
      exact List.map_congr_left fun g _ => h.filed.filling_cons hget rest g
    rw [Connection.refreshFrom, hcall]
    simp only
    rw [← hholons]
    exact hrest

/-- **A list of all holons is filled**, from what came with it or by one read for each. -/
theorem Readable.exists_full_read (h : k.Readable server) (horiginal : k.client.state.Original) :
    ∃ r read listed full k', k.call (.typed .getAllHolons) = (.ok (r, .fetched read), listed) ∧
      listed.refreshFrom read.holons read.placeholders = (.ok ⟨full, []⟩, k') ∧
      (full = if server.embedProperties then server.saved.map SavedHolon.embedded else server.saved) ∧
      listed.client.state = k.client.state ∧
      k.Consults server (.getAllHolons :: if server.embedProperties then []
        else server.saved.map fun h => .getHolonById (.local h.savedId)) k' := by
  let session := k.client.state
  let body : ResponseBody := .collection (server.store.allHolons server.embedProperties session.txId)
  let findings := Findings.ofBody session body
  have hanswer : ∀ seq, Answer.ofDance? .getAllHolons ⟨seq, .ok, session, findings, body⟩ =
    some (.fetched ⟨findings.fetched, findings.placeholders⟩) := fun _ => rfl
  obtain ⟨r, listed, hcall, hlisted⟩ := h.call rfl rfl hanswer
  cases hembed : server.embedProperties with
  | true =>
    have hfindings : findings = ⟨[], server.saved.map SavedHolon.embedded, []⟩ := by
      simp only [findings, body, hembed]
      exact Findings.ofBody_embedded server.store session
    rw [hfindings] at hcall
    exact ⟨r, _, listed, _, listed, hcall, rfl, rfl, hlisted.state, hlisted⟩
  | false =>
    have hfindings : findings =
        ⟨[], server.saved.map fun h => .placeholder h.savedId, server.saved.map (·.savedId)⟩ := by
      simp only [findings, body, hembed]
      exact Findings.ofBody_bare server.store horiginal
    rw [hfindings] at hcall
    have hstored : ∀ id ∈ server.saved.map (·.savedId), ∃ holon, server.store.saved.get? id = some holon := by
      intro id hid
      obtain ⟨holon, hmem, rfl⟩ := List.mem_map.1 hid
      exact ⟨holon, h.filed.get?_of_mem hmem⟩
    obtain ⟨k', hrefresh, hread⟩ := (h.consults hlisted).refreshFrom
      (server.saved.map fun h => .placeholder h.savedId) hstored
    have hfull : (server.saved.map fun h => SavedHolon.placeholder h.savedId).map
        (server.store.filling (server.saved.map (·.savedId))) = server.saved := h.filed.map_filling
    rw [Server.receive, hfull] at hrefresh
    rw [List.map_map] at hread
    exact ⟨r, _, listed, _, k', hcall, hrefresh, rfl, hlisted.state, hlisted.cons hread⟩

end Connection

/-- **A full read is complete and faithful.**  The client has come from an empty session by calls of the catalog,
whatever happened to them, and no call is under way; the server has come from an empty store by whatever happened to it,
is not made to fail and does not wait.  Then the list of all holons, refreshed, has no placeholders and tells of each
persisted holon, in the order of the store, its id and its properties; where these do not come with the list it is what
the store has.  The server is asked for the list and, only where they do not come with it, for each of its holons once;
the session stays as it was. -/
theorem full_read_is_faithful {ρ : Type} (setup : ClientSetup) (c : Client) (h : setup.build = .ok c)
    (hempty : setup.state = none) (server₀ : Server) (ids₀ : IdSource) (es : List Exchange.Event)
    (hask : ∀ caller call, .ask caller call ∈ es → ∃ d, call = .typed d) (space : SpaceId) (ids₁ : IdSource)
    (history : List Running.Event) (remote : Remote) (ids : IdSource) (fetched : FetchedHolons) :
    let lane := ((⟨.idle c, server₀, ids₀⟩ : Exchange).run es).lane
    let client := lane.client
    let server := ((Running.start space ids₁).run history).server
    lane.inside = [] → remote.server? = some server → server.failNext = none → remote.delay = 0 →
    let k : Connection := ⟨client, remote, ids⟩
    let listing : Gathering ρ := k.runTogether fetched [.call (.typed .getAllHolons)] []
    ∃ r read full, listing.results = [some (.called (.ok (r, .fetched read)))] ∧
      let refreshing : Gathering ρ := listing.connection.runTogether listing.fetched [.refresh (some read)] []
      refreshing.results = [some (.refreshed (.ok full))] ∧
      full.placeholders = [] ∧
      (full.holons.map fun h => (h.savedId, h.properties)) = (server.saved.map fun h => (h.savedId, h.properties)) ∧
      (server.embedProperties = false → full.holons = server.saved) ∧
      refreshing.connection.remote.server? =
        some { server with
          requests := server.requests ++ client.requestFor .getAllHolons ::
            if server.embedProperties then []
            else server.saved.map fun h => client.requestFor (.getHolonById (.local h.savedId)) } ∧
      listing.connection.client.state = client.state ∧ refreshing.connection.client.state = client.state := by
  intro lane client server hidle hserver hready hprompt k listing
  have hstart := Exchange.agrees_start h server₀ ids₀
  have hagrees := hstart.run hask
  have horiginal : client.state.Original := by
    refine hstart.original_run hask ?_
    have hnew : c.state = .new setup.config.tx := ClientSetup.state_of_build h hempty
    intro id holon hget
    have hget' : c.state.transientHolons.get? id = some holon := hget
    rw [hnew] at hget'
    cases hget'
  have hfree : k.client.session.held = false := by
    have hheld : client.session.held = !lane.inside.isEmpty := hagrees.guarded.held
    rw [hheld, hidle]
    rfl
  have hreadable : k.Readable server := {
    reached := hserver
    ready := hready
    filed := Running.filed_run Store.filed_empty history
    sound := hagrees.sound }
  obtain ⟨r, read, listed, full, k', hcall, hrefresh, hfull, hstate, hread⟩ := hreadable.exists_full_read horiginal
  -- The list, and then the refresh, run alone over a free client and so come to what the connection gives.
  have hlisting : listing = ⟨[some (.called (.ok (r, .fetched read)))], none, listed, read⟩ := by
    have halone : listing = _ := Connection.runTogether_call hfree hprompt fetched (.typed .getAllHolons)
    rw [halone, hcall]
    rfl
  have hfree' : listed.client.session.held = false := by
    have hheld := k.held_call (.typed .getAllHolons)
    rw [hcall] at hheld
    exact hheld
  have hprompt' : listed.remote.delay = 0 := by
    have hdelay := k.delay_call (.typed .getAllHolons)
    rw [hcall] at hdelay
    exact hdelay.trans hprompt
  rw [hlisting]
  refine ⟨r, read, ⟨full, []⟩, rfl, ?_⟩
  intro refreshing
  have hrefreshing : refreshing = ⟨[some (.refreshed (.ok ⟨full, []⟩))], none, k', read⟩ := by
    have halone : refreshing = _ := Connection.runTogether_refresh hfree' hprompt' read read
    rw [halone, hrefresh]
  rw [hrefreshing]
  refine ⟨rfl, rfl, ?_, fun hbare => ?_, ?_, hstate, hread.state⟩
  · rw [hfull]
    split
    · rw [List.map_map]
      rfl
    · rfl
  · rw [hfull, hbare]
    rfl
  · have hrequests := hread.server
    rw [List.map_cons, apply_ite (List.map k.client.requestFor), List.map_nil, List.map_map] at hrequests
    exact hrequests

/-- Two holons were seeded and one was committed; the first is gone. -/
def shelved : List Running.Event :=
  [.embed false, .seed ∅, .handle (.new "commit" .standalone .none ⟨"local"⟩ Lane.oneStaged),
    .seed (.ofValues [(⟨"title"⟩, .string "Holons")]),
    .handle (.new "delete_holon" (.delete (.numbered 1)) .none ⟨"local"⟩ Lane.oneStaged)]

def shelves : Server := ((Running.start ⟨"local"⟩ (.ofPresets [])).run shelved).server

def drafting : List Exchange.Event := Exchange.dancing 0 (.newHolon ∅) ++ [.serve 0]

/-- A client with a draft of its own reads the shelves, whose lists have no properties. -/
theorem full_read_is_faithful_beside_a_draft :
    let client := (Exchange.atRest.run drafting).lane.client
    let k : Connection := ⟨client, .encoded shelves, .ofPresets []⟩
    let listing : Gathering Unit := k.runTogether .none [.call (.typed .getAllHolons)] []
    client.state.transientHolons.size = 1 ∧ shelves.saved.length = 2 ∧ ∃ r read full server,
      listing.results = [some (.called (.ok (r, .fetched read)))] ∧
      let refreshing : Gathering Unit := listing.connection.runTogether listing.fetched [.refresh (some read)] []
      refreshing.results = [some (.refreshed (.ok full))] ∧ full = ⟨shelves.saved, []⟩ ∧
      refreshing.connection.remote.server? = some server ∧
      server.requests.map DanceRequest.name = ["get_all_holons", "get_holon_by_id", "get_holon_by_id"] := by
  intro client k listing
  have hask : ∀ caller call, .ask caller call ∈ drafting → ∃ d, call = .typed d := by
    intro caller call hmem
    simp [drafting, Exchange.dancing] at hmem
    exact ⟨_, hmem.2⟩
  have hbuild : ClientSetup.build ⟨.default, none⟩ = .ok .fresh := rfl
  have hidle : (Exchange.atRest.run drafting).lane.inside = [] := rfl
  obtain ⟨r, read, full, hlisted, hrefreshed, hplaceholders, -, hbare, hserver, -, -⟩ :=
    @full_read_is_faithful Unit _ _ hbuild rfl (.new ⟨"local"⟩) (.ofPresets []) drafting hask ⟨"local"⟩ (.ofPresets [])
      shelved (.encoded shelves) (.ofPresets []) .none hidle rfl (by decide +kernel) (by decide +kernel)
  obtain ⟨holons, placeholders⟩ := full
  obtain rfl : holons = shelves.saved := hbare (by decide +kernel)
  obtain rfl : placeholders = [] := hplaceholders
  exact ⟨by decide +kernel, by decide +kernel, r, read, _, _, hlisted, hrefreshed, rfl, hserver, by decide +kernel⟩

end Holarchy
