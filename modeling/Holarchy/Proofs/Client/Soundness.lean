import Holarchy.Proofs.Client.Chain
import Holarchy.Proofs.SessionState
/-!
# The states that a client shows

A client starts from a state that it has checked, and a response replaces the state only after it has been checked in
turn.  So whatever the other end answers, the state of a client is of its transaction and sound.
-/
namespace Holarchy

/-- **What a setup that is accepted starts**: a client without calls, with a sound state of its own transaction. -/
theorem ClientSetup.build_ok {setup : ClientSetup} {c : Client} (h : setup.build = .ok c) :
    c.session.held = false ∧ c.committed = [] ∧ c.state.txId = setup.config.tx ∧ c.state.Sound := by
  simp only [build, bind, Except.bind] at h
  split at h
  · cases h
  · unfold startState at h
    cases hs : setup.state with
    | none =>
      simp only [hs] at h
      cases h
      exact ⟨rfl, rfl, rfl, SessionState.sound_new _⟩
    | some s =>
      simp only [hs] at h
      split at h
      · cases h
      · rename_i state hstart
        split at hstart
        · rename_i htx
          split at hstart
          · rename_i hcheck
            cases hstart
            cases h
            exact ⟨rfl, rfl, htx, SessionState.checkInvariants_eq_ok_iff.1 hcheck⟩
          · cases hstart
        · cases hstart

/-- A response that links two states carries a sound one of the same transaction. -/
theorem Swap.Links.sound {space : SpaceId} {s s' : SessionState} {x : Swap} (h : x.Links space s s') :
    s'.txId = s.txId ∧ s'.Sound := by
  obtain ⟨-, hsnapshot, htx, hcheck, -⟩ := reconcile_ok h.reconciled
  obtain rfl : x.result.state = s' := Option.some.inj (hsnapshot.symm.trans h.snapshot)
  exact ⟨htx, SessionState.checkInvariants_eq_ok_iff.1 hcheck⟩

theorem Swap.Chain.sound {space : SpaceId} {xs : List Swap} {s s' : SessionState} (h : Chain space s xs s')
    (hs : s.Sound) : s'.txId = s.txId ∧ s'.Sound := by
  induction xs generalizing s with
  | nil => cases h; exact ⟨rfl, hs⟩
  | cons x xs ih =>
    obtain ⟨next, hlinks, hchain⟩ := h
    obtain ⟨htx, hsound⟩ := hlinks.sound
    obtain ⟨htx', hsound'⟩ := ih hchain hsound
    exact ⟨htx'.trans htx, hsound'⟩

namespace Lane

theorem Guarded.sound_step {l : Lane} (h : l.Guarded) (hs : l.client.state.Sound) (m : Move) :
    (l.step m).client.state.Sound := by
  rcases h.step_links m with ⟨-, hstate, -⟩ | ⟨x, -, hlinks, -⟩
  · rw [hstate]
    exact hs
  · exact hlinks.sound.2

/-- **A client never shows a bad state.**  Whatever calls are made and whatever they are answered with, the state is of
the transaction that was set up and passes its check: what either index names is there with that text as its `key`, and
no id is in both pools. -/
theorem shown_states_are_sound (setup : ClientSetup) (c : Client) (h : setup.build = .ok c) (ms : List Move) :
    let s := ((idle c).run ms).client.state
    s.txId = setup.config.tx ∧ s.checkInvariants = .ok () ∧
      (∀ p ∈ [s.transientHolons, s.stagedHolons], ∀ key id, p.keyedIndex.get? key = some id →
        ∃ h, p.get? id = some h ∧ h.properties.get? keyProperty = some (some (.string key))) ∧
      ∀ id, ¬ (s.transientHolons.contains id = true ∧ s.stagedHolons.contains id = true) := by
  intro s
  obtain ⟨hfree, -, htx, hsound⟩ := ClientSetup.build_ok h
  obtain ⟨htx', hs⟩ := ((guarded_idle hfree).run_chain ms).1.sound hsound
  refine ⟨htx'.trans htx, SessionState.checkInvariants_eq_ok_iff.2 hs, fun p hp key id hid => ?_, fun id hid => ?_⟩
  · have hindexed : p.Indexed := by
      simp only [List.mem_cons, List.not_mem_nil, or_false] at hp
      rcases hp with rfl | rfl
      · exact hs.transient
      · exact hs.staged
    obtain ⟨holon, hget, hkey⟩ := hindexed key id hid
    exact ⟨holon, hget, PropertyMap.key?_eq_some_iff.1 hkey⟩
  · have := hs.apart id hid.1
    rw [hid.2] at this
    cases this

def oneStaged : SessionState :=
  let book : StagedHolon :=
    ⟨1, .mutable, .forCreate, .required, .ofValues [(keyProperty, .string "book")], ∅, none, []⟩
  { SessionState.new ⟨7⟩ with stagedHolons := (∅ : Pool).insert (.numbered 1) book }

/-- The same state with a key of a transient holon that is not there. -/
def misindexed : SessionState := { oneStaged with transientHolons := ⟨∅, SortedMap.ofList [("page", .numbered 2)]⟩ }

/-- The answer of a server that reports success and gives a bad state back. -/
def misleading : List Move :=
  [.ask 0 (.typed .commit), .enter 0, .launch 0, .reply 0 (.ok (.ok ⟨"local"⟩ (.holons []) misindexed))]

theorem sound_oneStaged : oneStaged.Sound :=
  ⟨Pool.indexed_empty, Pool.indexed_empty.insert _ _, fun id h => by cases h⟩

/-- A client that resumes a state, and is answered with a bad one. -/
theorem shown_states_are_sound_after_misleading :
    misindexed.checkInvariants.isOk = false ∧
      ∃ c, ClientSetup.build ⟨⟨"local", 7, 15000, 64⟩, some oneStaged⟩ = .ok c ∧
        let l := (idle c).run misleading
        l.ended.length = 1 ∧ l.client.state.txId = ⟨7⟩ ∧ l.client.state.checkInvariants = .ok () := by
  have hcheck : oneStaged.checkInvariants = .ok () := SessionState.checkInvariants_eq_ok_iff.2 sound_oneStaged
  have hbuild : ClientSetup.build ⟨⟨"local", 7, 15000, 64⟩, some oneStaged⟩ =
      .ok ⟨⟨"local", 7, 15000, 64⟩, .start oneStaged ⟨"local"⟩ 64, []⟩ := by
    simp only [ClientSetup.build, ClientSetup.startState, hcheck]
    rfl
  obtain ⟨htx, hsound, -⟩ := shown_states_are_sound _ _ hbuild misleading
  exact ⟨by decide +kernel, _, hbuild, rfl, htx, hsound⟩

end Lane

end Holarchy
