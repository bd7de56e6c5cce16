import Holarchy.Proofs.Server.Files
/-!
# Ids are drawn one after the other

Whatever a server is asked, it goes forward in its source of ids and leaves the source itself as it is.
-/
namespace Holarchy

namespace IdSource

structure Reaches (ids ids' : IdSource) : Prop where
  stream : ids'.stream = ids.stream
  drawn : ids.drawn ≤ ids'.drawn

theorem Reaches.refl (ids : IdSource) : ids.Reaches ids := ⟨rfl, Nat.le_refl _⟩

theorem Reaches.trans {a b c : IdSource} (h : a.Reaches b) (h' : b.Reaches c) : a.Reaches c :=
  ⟨h'.stream.trans h.stream, Nat.le_trans h.drawn h'.drawn⟩

theorem reaches_advance (ids : IdSource) : ids.Reaches ids.advance := ⟨rfl, Nat.le_succ _⟩

theorem reaches_past (ids : IdSource) (n : Nat) : ids.Reaches (ids.past n) := ⟨rfl, Nat.le_add_right _ _⟩

/-- The ids up to some draw differ from each other and from those in use. -/
def FreshUntil (ids : IdSource) (last : Nat) (used : TemporaryId → Bool) : Prop :=
  ∀ n, ids.drawn ≤ n → n < last →
    used (ids.stream n) = false ∧ ∀ m, ids.drawn ≤ m → m < n → ids.stream m ≠ ids.stream n

end IdSource

namespace Store

open IdSource

theorem reaches_stageFresh (s : Store) (session : SessionState) (h : Except Refusal StagedHolon) (ids : IdSource) :
    ids.Reaches (s.stageFresh session h ids).2 := by
  cases h with
  | error e => exact .refl ids
  | ok h => exact ids.reaches_advance

theorem reaches_stageVersion (s : Store) (session : SessionState) (id : HolonId) (ids : IdSource) :
    ids.Reaches (s.stageVersion session id ids).2 := by
  unfold stageVersion
  cases s.find id.localId with
  | error e => exact .refl ids
  | ok h =>
    simp only
    cases h.properties.key? with
    | none => exact ids.reaches_advance
    | some key => exact .refl ids

theorem reaches_loadFiles (session : SessionState) (files : List FileData) (ids : IdSource) :
    ids.Reaches (loadFiles session files ids).2 := by
  obtain ⟨_, -, h⟩ | ⟨_, _, -, h⟩ := loadFiles_cases session files ids <;> rw [h] <;> exact ids.reaches_past _

theorem reaches_run (s : Store) (embed : Bool) (session : SessionState) (order : Order) (ids : IdSource) :
    ids.Reaches (s.run embed session order ids).2 := by
  cases order with
  | newHolon properties => exact ids.reaches_advance
  | stage holon => exact s.reaches_stageFresh session _ ids
  | stageTransient target =>
    simp only [run]
    cases takeTransient session target with
    | error e => exact .refl ids
    | ok p => exact s.reaches_stageFresh p.2 _ ids
  | clone source => exact s.reaches_stageFresh session _ ids
  | newVersion id => exact s.reaches_stageVersion session id ids
  | load content => exact reaches_loadFiles session content.files ids
  | commitOne target =>
    simp only [run]
    cases session.getStaged target <;> exact .refl ids
  | _ => exact .refl ids

end Store

/-- **A server only ever draws the next ids.** -/
theorem Server.reaches_handle (s : Server) (r : DanceRequest) (ids : IdSource) : ids.Reaches (s.handle r ids).2 := by
  unfold handle
  cases s.failNext with
  | some e => exact .refl ids
  | none =>
    simp only
    cases r.order s.space with
    | error e => exact .refl ids
    | ok order =>
      have hrun := s.store.reaches_run s.embedProperties r.context.state order ids
      simp only
      generalize s.store.run s.embedProperties r.context.state order ids = served at hrun ⊢
      obtain ⟨outcome, ids'⟩ := served
      cases outcome <;> exact hrun

end Holarchy
