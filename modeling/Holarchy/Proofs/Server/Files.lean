import Holarchy.Server
/-!
# Reading before staging

A load stages holon after holon while it reads file after file.  It comes to the same as reading everything first:
`FileData.described` is what is read off one file, `SessionState.loaded` what is made of all that has been read.
-/
namespace Holarchy

/-- What a server reads off a file. -/
def FileData.described (file : FileData) : Except Refusal (List PropertyMap) :=
  file.records.bind (List.mapM file.properties)

/-- A holon that has been staged as new, with some properties and nothing else. -/
def StagedHolon.created (properties : PropertyMap) : StagedHolon where
  version := 1
  holonState := .mutable
  stagedState := .forCreate
  validationState := .required
  properties := properties
  relationships := ∅
  predecessorId := none
  errors := []

theorem TransientHolon.stage_new (properties : PropertyMap) : (new properties).stage = .ok (.created properties) := rfl

/-- Holons put into a pool one after the other, under ids drawn from a source. -/
def Pool.insertDrawn (p : Pool) (ids : IdSource) : List StagedHolon → Pool
  | [] => p
  | h :: hs => (p.insert ids.next (.staged h)).insertDrawn ids.advance hs

/-- The source after some more draws. -/
def IdSource.past (ids : IdSource) (n : Nat) : IdSource := { ids with drawn := ids.drawn + n }

theorem IdSource.past_succ (ids : IdSource) (n : Nat) : ids.advance.past n = ids.past (n + 1) := by
  simp only [past, advance, Nat.add_assoc, Nat.add_comm 1 n]

theorem IdSource.past_past (ids : IdSource) (m n : Nat) : (ids.past m).past n = ids.past (m + n) := by
  simp only [past, Nat.add_assoc]

theorem Pool.insertDrawn_append (p : Pool) (ids : IdSource) (hs more : List StagedHolon) :
    p.insertDrawn ids (hs ++ more) = (p.insertDrawn ids hs).insertDrawn (ids.past hs.length) more := by
  induction hs generalizing p ids with
  | nil => rfl
  | cons h hs ih =>
    rw [List.cons_append, insertDrawn, ih, IdSource.past_succ]
    rfl

namespace SessionState

/-- What a load gives of what it has read: the holons, and the session with all of them. -/
def loaded (session : SessionState) (ids : IdSource) (described : List PropertyMap) : List Holon × SessionState :=
  ((described.map StagedHolon.created).map .staged,
    session.withStaged (session.stagedHolons.insertDrawn ids (described.map .created)))

theorem loaded_append (session : SessionState) (ids : IdSource) (described more : List PropertyMap) :
    session.loaded ids (described ++ more) =
      ((session.loaded ids described).1 ++ ((session.loaded ids described).2.loaded (ids.past described.length) more).1,
        ((session.loaded ids described).2.loaded (ids.past described.length) more).2) := by
  simp only [loaded, List.map_append, Pool.insertDrawn_append, List.length_map]
  rfl

end SessionState

namespace Store

/-- What comes of the objects of one file: all are read and staged, or one is refused. -/
theorem loadRecords_cases (file : FileData) (session : SessionState) (records : List (SortedMap String Json.Tree))
    (ids : IdSource) :
    (∃ described, records.mapM file.properties = .ok described ∧
      loadRecords file session records ids = (.ok (session.loaded ids described), ids.past described.length)) ∨
    ∃ e n, records.mapM file.properties = .error e ∧ loadRecords file session records ids = (.error e, ids.past n) := by
  induction records generalizing session ids with
  | nil => exact .inl ⟨[], rfl, rfl⟩
  | cons record records ih =>
    rw [loadRecords, List.mapM_cons]
    cases file.properties record with
    | error e => exact .inr ⟨e, 0, rfl, rfl⟩
    | ok properties =>
      simp only [TransientHolon.stage_new]
      obtain ⟨described, hread, hload⟩ | ⟨e, n, hread, hload⟩ :=
        ih (session.stageInto ids.next (.created properties)).2 ids.advance
      · rw [hread, hload, IdSource.past_succ]
        exact .inl ⟨properties :: described, rfl, rfl⟩
      · rw [hread, hload, IdSource.past_succ]
        exact .inr ⟨e, n + 1, rfl, rfl⟩

/-- **A load is all or nothing**: it stages what all the files describe, or it is refused for one of them. -/
theorem loadFiles_cases (session : SessionState) (files : List FileData) (ids : IdSource) :
    (∃ described, files.mapM FileData.described = .ok described ∧
      loadFiles session files ids = (.ok (session.loaded ids described.flatten), ids.past described.flatten.length)) ∨
    ∃ e n, files.mapM FileData.described = .error e ∧ loadFiles session files ids = (.error e, ids.past n) := by
  induction files generalizing session ids with
  | nil => exact .inl ⟨[], rfl, rfl⟩
  | cons file files ih =>
    rw [loadFiles, List.mapM_cons, FileData.described]
    cases file.records with
    | error e => exact .inr ⟨e, 0, rfl, rfl⟩
    | ok records =>
      simp only [Except.bind, bind]
      obtain ⟨described, hread, hload⟩ | ⟨e, n, hread, hload⟩ := loadRecords_cases file session records ids
      · rw [hread, hload]
        obtain ⟨more, hrest, hmore⟩ | ⟨e, n, hrest, hmore⟩ :=
          ih (session.loaded ids described).2 (ids.past described.length)
        · rw [hrest]
          simp only [hmore]
          refine .inl ⟨described :: more, rfl, ?_⟩
          rw [List.flatten_cons, SessionState.loaded_append, IdSource.past_past, List.length_append]
          rfl
        · rw [hrest]
          simp only [hmore, IdSource.past_past]
          exact .inr ⟨e, _, rfl, rfl⟩
      · rw [hread, hload]
        exact .inr ⟨e, n, rfl, rfl⟩

end Store

end Holarchy
