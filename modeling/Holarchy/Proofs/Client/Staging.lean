import Holarchy.Proofs.Client.Orders
import Holarchy.Proofs.Server.Promotion
/-!
# What a client gets that stages

A call that stages a holon comes back with a reference.  It is of use only if the session that came with it has the
holon, and only if that is the holon that was meant.
-/
namespace Holarchy

/-- How a dance stages a holon, if it is for that. -/
def Dance.staging? : Dance → Option Staging
  | .stageNewHolon h => some (.holon h)
  | .stageTransient target => some (.pooled target)
  | .stageNewFromClone source => some (.clone source)
  | .stageNewVersion id => some (.version id)
  | _ => none

theorem Dance.order_of_staging {d : Dance} {g : Staging} (h : d.staging? = some g) : d.order = g.order := by
  cases d <;> cases h <;> rfl

theorem Answer.ofDance?_staging {d : Dance} (h : d.staging?.isSome = true) (r : Reconciliation) :
    ofDance? d r = staged? r := by
  cases d <;> first | rfl | cases h

theorem Client.getStaged_of_state {c : Client} {r : StagedReference} {holon : Holon}
    (h : c.state.getStaged r = .ok holon) : c.getStaged r = .ok holon := by
  simp only [getStaged, h]

theorem Client.getTransient_of_state {c : Client} {r : TransientReference} {holon : Holon}
    (h : c.state.getTransient r = .ok holon) : c.getTransient r = .ok holon := by
  simp only [getTransient, h]

namespace Exchange

/-- Somebody else does to the server what can happen to a server. -/
def Event.Ordinary : Event → Prop
  | .tend change => ∀ s, ∃ ids history, change s = ((⟨s, ids⟩ : Running).run history).server
  | _ => True

variable {x : Exchange} {log : List SavedHolon} {caller : Nat} {f : Flight} {d : Dance}

theorem filed_step (h : x.server.store.Filed) {e : Event} (he : e.Ordinary) : (x.step e).server.store.Filed := by
  cases e with
  | serve caller =>
    cases hf : x.lane.flight? caller with
    | none =>
      rw [(step_serve_of_none hf).1]
      exact h
    | some f =>
      have hserved : (x.step (.serve caller)).server = (x.server.handle f.request x.ids).1.2 := by
        simp only [step, hf]
      rw [hserved]
      exact Running.filed_step (x := ⟨x.server, x.ids⟩) h (.handle f.request)
  | launch caller =>
    have hnoted : (x.step (.launch caller)).server.store = x.server.store := store_note _ _
    rw [hnoted]
    exact h
  | tend change =>
    obtain ⟨ids, history, hchange⟩ := he x.server
    show (change x.server).store.Filed
    rw [hchange]
    exact Running.filed_run (x := ⟨x.server, ids⟩) h history
  | _ => exact h

theorem filed_run {es : List Event} (h : x.server.store.Filed) (hes : ∀ e ∈ es, e.Ordinary) :
    (x.run es).server.store.Filed := by
  induction es generalizing x with
  | nil => exact h
  | cons e es ih =>
    exact ih (filed_step h (hes e List.mem_cons_self)) fun e' he' => hes e' (List.mem_cons_of_mem _ he')

/-- **A call that stages comes back with a reference to what it staged**, live in the session that came with it. -/
theorem Agrees.staged_of_serve (h : x.Agrees log) (hf : x.lane.flight? caller = some f) (hd : f.call = .typed d)
    {g : Staging} (hg : d.staging? = some g) {r : Reconciliation} {answer : Answer}
    (hended : (x.step (.serve caller)).lane.ended = x.lane.ended ++ [(caller, .ok (r, answer))]) :
    ∃ reference staged transient, answer = .staged reference ∧
      x.server.store.promoted x.state g = .ok (staged, transient) ∧
      (x.step (.serve caller)).lane.client.getStaged reference = .ok (.staged staged) ∧
      ∀ key, staged.properties.key? = some key →
        (x.step (.serve caller)).lane.client.findStagedByKey key = some reference := by
  rcases h.serve_cases hf with
    ⟨-, -, e, hfailed⟩ | ⟨d', result, served, hd', -, hended', hanswer, hbody, hgives, hstate⟩
  · rw [hended, List.append_cancel_left_eq] at hfailed
    cases hfailed
  · obtain rfl : result = (r, answer) := by
      rw [hended, List.append_cancel_left_eq] at hended'
      cases hended'
      rfl
    have horder : d'.order = g.order := by
      have hsame := (h.order_of_flight hf hd').symm.trans (h.order_of_flight hf hd)
      rw [Except.ok.inj hsame, Dance.order_of_staging hg]
    rw [horder] at hgives
    obtain ⟨staged, transient, hp, rfl⟩ := hgives.of_staging
    have hextract : Answer.ofDance? d' = Answer.ofDance? d := congrArg Call.extract (hd'.symm.trans hd)
    rw [hextract, Answer.ofDance?_staging (by rw [hg]; rfl), Answer.staged?, hbody] at hanswer
    have hnew : (x.step (.serve caller)).lane.client.state =
      x.state.gaining (x.server.store.stagingId g x.ids).1 staged transient := hstate
    obtain ⟨hlive, hkeyed⟩ := x.state.live_gaining (x.server.store.stagingId g x.ids).1 staged transient
    rw [← hnew] at hlive hkeyed
    refine ⟨_, staged, transient, (Option.some.inj hanswer).symm, hp, Client.getStaged_of_state hlive, ?_⟩
    intro key hkey
    rw [Client.findStagedByKey, hkeyed key hkey, hnew]
    rfl

/-- **Staging gives back a live reference to the right content.**  The client goes on from any session that it accepts,
by calls of the catalog, whatever happens to them; the server has come from an empty store by whatever happened to it,
and goes on so.  A call that stages a holon and comes to its result has a reference; in the session that it leaves the
client with, the reference gets a holon, and the key of that holon, if it has one, gives the reference.  The holon is

- that of the caller, or that of the transient pool, as it is staged: in its version, with its content, succeeding what
it succeeds;
- for a clone, the first version of a holon that succeeds none, with the content of the holon that the source names, in
a pool or in the store;
- for a new version, the first version of a successor of the holon that was named, with its persisted properties and no
relationships. -/
theorem staged_reference_is_live (setup : ClientSetup) (c : Client) (h : setup.build = .ok c) (space : SpaceId)
    (ids₁ ids : IdSource) (history : List Running.Event) (es : List Event)
    (hask : ∀ caller call, .ask caller call ∈ es → ∃ d, call = .typed d) (hordinary : ∀ e ∈ es, e.Ordinary) :
    let start : Exchange := ⟨.idle c, ((Running.start space ids₁).run history).server, ids⟩
    ∀ before caller after, es = before ++ .serve caller :: after →
      let x := start.run before
      let x' := x.step (.serve caller)
      ∀ f d r answer, x.lane.flight? caller = some f → f.call = .typed d → d.staging?.isSome = true →
        x'.lane.ended = x.lane.ended ++ [(caller, .ok (r, answer))] →
        ∃ reference staged, answer = .staged reference ∧
          x'.lane.client.getStaged reference = .ok (.staged staged) ∧
          (∀ key, staged.properties.key? = some key → x'.lane.client.findStagedByKey key = some reference) ∧
          (∀ t, d = .stageNewHolon t →
            t.stage = .ok staged ∧ staged.JustStaged t.version t.predecessorId t.properties t.relationships) ∧
          (∀ target, d = .stageTransient target → ∃ t, x.lane.client.getTransient target = .ok (.transient t) ∧
            t.stage = .ok staged ∧ staged.JustStaged t.version t.predecessorId t.properties t.relationships) ∧
          (∀ source, d = .stageNewFromClone source → ∃ holon, x.server.store.Names x.state source holon ∧
            staged.JustStaged 1 none holon.properties holon.relationships) ∧
          (∀ id, d = .stageNewVersion id → ∃ saved, x.server.store.saved.get? id.localId = some saved ∧
            staged.JustStaged 1 (some id.localId) saved.properties ∅) := by
  intro start before caller after hsplit x x' f d r answer hf hd hstaging hended
  have hx : x.Agrees _ := (agrees_start h _ ids).run fun caller call hmem =>
    hask caller call (hsplit ▸ List.mem_append_left _ hmem)
  have hfiled : x.server.store.Filed := filed_run (Running.filed_run Store.filed_empty history) fun e he =>
    hordinary e (hsplit ▸ List.mem_append_left _ he)
  obtain ⟨g, hg⟩ := Option.isSome_iff_exists.1 hstaging
  obtain ⟨reference, staged, transient, hanswer, hp, hlive, hkeyed⟩ := hx.staged_of_serve hf hd hg hended
  refine ⟨reference, staged, hanswer, hlive, hkeyed, ?_, ?_, ?_, ?_⟩
  · rintro t rfl
    cases hg
    have hstage := Store.staged_of_holon hp
    exact ⟨hstage, TransientHolon.justStaged hstage⟩
  · rintro target rfl
    cases hg
    obtain ⟨t, hget, hstage⟩ := Store.staged_of_pooled hp
    exact ⟨t, Client.getTransient_of_state hget, hstage, TransientHolon.justStaged hstage⟩
  · rintro source rfl
    cases hg
    exact Store.staged_of_clone hp
  · rintro id rfl
    cases hg
    exact Store.staged_of_version hfiled hp

/-- A successor of the book is staged. -/
def reissuing : List Event := dancing 0 (.stageNewVersion (.local (.numbered 1))) ++ [.serve 0]

/-- The successor can be got by its reference and found by the key of the book, and it succeeds the book. -/
theorem staged_reference_is_live_in_library :
    ∃ reference staged, (inLibrary.run reissuing).lane.client.getStaged reference = .ok (.staged staged) ∧
      (inLibrary.run reissuing).lane.client.findStagedByKey "book" = some reference ∧
      staged.version = 1 ∧ staged.predecessorId = some (.numbered 1) ∧ staged.stagedState = .forUpdate := by
  have hask : ∀ caller call, .ask caller call ∈ reissuing → ∃ d, call = .typed d := by
    intro caller call hmem
    simp [reissuing, dancing] at hmem
    exact ⟨_, hmem.2⟩
  have hordinary : ∀ e ∈ reissuing, e.Ordinary := by simp [reissuing, dancing, Event.Ordinary]
  have hbuild : ClientSetup.build ⟨.default, none⟩ = .ok .fresh := rfl
  let x := inLibrary.run (reissuing.take 3)
  have hx : x.Agrees _ := (agrees_start hbuild Server.withBook (.ofPresets [])).run fun caller call hmem =>
    hask caller call (List.mem_of_mem_take hmem)
  have horder : x.order? (.serve 0) = some (.newVersion (.local (.numbered 1))) := by decide +kernel
  obtain ⟨caller, f, d, ⟨r, answer⟩, he, hf, hd, hversion, hended⟩ := hx.order?_eq_some_iff.1 horder
  obtain rfl : 0 = caller := Event.serve.inj he
  obtain rfl : d = .stageNewVersion (.local (.numbered 1)) := by cases d <;> cases hversion; rfl
  obtain ⟨reference, staged, -, hlive, hkeyed, -, -, -, hcontent⟩ :=
    staged_reference_is_live ⟨.default, none⟩ .fresh hbuild ⟨"local"⟩ (.ofPresets []) (.ofPresets [])
      [.seed (.ofValues [(keyProperty, .string "book")])] reissuing hask hordinary (reissuing.take 3) 0 [] rfl f _ r
      answer hf hd rfl hended
  obtain ⟨saved, hget, hstaged⟩ := hcontent _ rfl
  have hkey : (x.server.store.saved.get? (.numbered 1)).all fun h => h.properties.key? = some "book" := by
    decide +kernel
  have hget' : x.server.store.saved.get? (.numbered 1) = some saved := hget
  rw [hget'] at hkey
  refine ⟨reference, staged, hlive, hkeyed "book" ?_, hstaged.version, hstaged.predecessorId, hstaged.stagedState⟩
  rw [hstaged.properties]
  exact of_decide_eq_true hkey

end Exchange

end Holarchy
