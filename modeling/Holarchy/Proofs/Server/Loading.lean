import Holarchy.Proofs.Server.Content
import Holarchy.Proofs.Server.Orders
/-!
# Loads

What a load adds to a session, and when: the holons that its files describe, each under the next fresh id, if every file
describes some; nothing, if one does not.
-/
namespace Holarchy

namespace IdSource

/-- Ids that are fresh for a pool stay so, but the next one, when a holon is put under that one. -/
theorem FreshUntil.insert {p : Pool} {ids : IdSource} {last : Nat} (h : ids.FreshUntil last p.contains)
    (holon : Holon) : ids.advance.FreshUntil last (p.insert ids.next holon).contains := by
  intro n hn hlast
  obtain ⟨(hunused : p.contains (ids.advance.stream n) = false), hapart⟩ := h n (Nat.le_of_succ_le hn) hlast
  refine ⟨Bool.eq_false_iff.2 fun hcontains => ?_, fun m hm hmn => hapart m (Nat.le_of_succ_le hm) hmn⟩
  rcases Pool.contains_insert.1 hcontains with hnext | hcontains
  · exact hapart ids.drawn (Nat.le_refl _) hn hnext.symm
  · rw [hunused] at hcontains
    cases hcontains

end IdSource

namespace Pool

/-- A pool with some more holons, each under the next id of a source.  Of holons with one key the last one is found by
it, and whatever else is found by a key was found by it before. -/
structure Gains (p : Pool) (ids : IdSource) (hs : List StagedHolon) (after : Pool) : Prop where
  staged : ∀ n h, hs[n]? = some h → after.get? (ids.stream (ids.drawn + n)) = some (.staged h)
  others : ∀ id, (∀ n < hs.length, id ≠ ids.stream (ids.drawn + n)) → after.get? id = p.get? id
  found : ∀ key n h, hs[n]? = some h → h.properties.key? = some key →
    (∀ m later, n < m → hs[m]? = some later → later.properties.key? ≠ some key) →
    after.idOfKey? key = some (ids.stream (ids.drawn + n))
  kept : ∀ key, (∀ h ∈ hs, h.properties.key? ≠ some key) → after.idOfKey? key = p.idOfKey? key

theorem idOfKey?_insert_fresh {p : Pool} (hindexed : p.Indexed) {id : TemporaryId} (hfresh : p.contains id = false)
    {h : Holon} {key : String} (hkey : h.key? ≠ some key) : (p.insert id h).idOfKey? key = p.idOfKey? key := by
  refine Option.ext fun j => ?_
  rw [idOfKey?_insert_eq_some_iff, if_neg hkey]
  refine and_iff_left_of_imp fun hj => ?_
  rintro rfl
  obtain ⟨holon, hget, -⟩ := hindexed key j hj
  exact Bool.eq_false_iff.1 hfresh (contains_iff.2 ⟨holon, hget⟩)

/-- What a pool gains after a first holon, it gains with that one. -/
theorem Gains.cons {p after : Pool} (hindexed : p.Indexed) {ids : IdSource} {first : StagedHolon}
    {hs : List StagedHolon} (hfresh : ids.FreshUntil (ids.drawn + (first :: hs).length) p.contains)
    (h : (p.insert ids.next (.staged first)).Gains ids.advance hs after) : p.Gains ids (first :: hs) after := by
  have hid : ∀ n, ids.advance.stream (ids.advance.drawn + n) = ids.stream (ids.drawn + (n + 1)) := fun n => by
    rw [Nat.add_comm n 1, ← Nat.add_assoc]
    rfl
  have hunused : p.contains ids.next = false :=
    (hfresh ids.drawn (Nat.le_refl _) (Nat.lt_add_of_pos_right (Nat.succ_pos _))).1
  have hapart : ∀ n < hs.length, ids.next ≠ ids.advance.stream (ids.advance.drawn + n) := fun n hn => by
    rw [hid]
    exact (hfresh _ (Nat.le_add_right _ _) (Nat.add_lt_add_left (Nat.succ_lt_succ hn) _)).2 ids.drawn (Nat.le_refl _)
      (Nat.lt_add_of_pos_right (Nat.succ_pos _))
  refine ⟨fun n holon hn => ?_, fun id hother => ?_, fun key n holon hn hkey hlast => ?_, fun key hkeys => ?_⟩
  · cases n with
    | zero =>
      cases hn
      have hfirst := h.others ids.next hapart
      rw [get?_insert, if_pos rfl] at hfirst
      exact hfirst
    | succ n =>
      rw [← hid]
      exact h.staged n holon hn
  · have hne : id ≠ ids.next := hother 0 (Nat.succ_pos _)
    have hrest := h.others id fun n hn => by
      rw [hid]
      exact hother (n + 1) (Nat.succ_lt_succ hn)
    rw [get?_insert, if_neg hne] at hrest
    exact hrest
  · cases n with
    | zero =>
      cases hn
      have hrest := h.kept key fun later hlater => by
        obtain ⟨m, hm⟩ := List.getElem?_of_mem hlater
        exact hlast (m + 1) later (Nat.succ_pos m) hm
      have hkey' : (Holon.staged first).key? = some key := hkey
      exact hrest.trans (idOfKey?_insert_eq_some_iff.2 (by rw [if_pos hkey']; rfl))
    | succ n =>
      rw [← hid]
      exact h.found key n holon hn hkey fun m later hm hlater => hlast (m + 1) later (Nat.succ_lt_succ hm) hlater
  · have hrest := h.kept key fun holon hmem => hkeys holon (List.mem_cons_of_mem _ hmem)
    exact hrest.trans (idOfKey?_insert_fresh hindexed hunused (hkeys first List.mem_cons_self))

/-- **Holons that are put under drawn ids are gained**, if the ids are fresh. -/
theorem gains_insertDrawn {p : Pool} (hindexed : p.Indexed) {ids : IdSource} {hs : List StagedHolon}
    (hfresh : ids.FreshUntil (ids.drawn + hs.length) p.contains) : p.Gains ids hs (p.insertDrawn ids hs) := by
  induction hs generalizing p ids with
  | nil => exact ⟨fun n h hn => (by cases hn), fun _ _ => rfl, fun _ n h hn => (by cases hn), fun _ _ => rfl⟩
  | cons first hs ih =>
    have hlast : ids.drawn + (first :: hs).length = ids.advance.drawn + hs.length := by
      rw [List.length_cons, Nat.add_comm hs.length 1, ← Nat.add_assoc]
      rfl
    have hrest := hfresh.insert (.staged first)
    rw [hlast] at hrest
    exact .cons hindexed hfresh (ih (hindexed.insert ids.next (.staged first)) hrest)

end Pool

namespace Server

theorem handle_load {server : Server} {r : DanceRequest} {content : ContentSet} (hready : server.failNext = none)
    (horder : r.order server.space = .ok (.load content)) (ids : IdSource) : server.handle r ids =
      match Store.loadFiles r.context.state content.files ids with
      | (.error e, ids) => ((.ofRefusal server.space e, server), ids)
      | (.ok (hs, session), ids) => ((.ok server.space (.holons hs) session, server), ids) := by
  simp only [handle, hready, horder, Store.run]
  rcases Store.loadFiles r.context.state content.files ids with ⟨e | ⟨hs, session⟩, ids'⟩
  · rfl
  · rw [← hready]
    rfl

/-- **A load is all or nothing, and exact.**  It succeeds just if every file is a list of objects whose values are
`null`, booleans, texts and numerals that are written as whole numbers of 64 bits; of a name that is repeated in an
object the last value counts.  Then the pool gains one new holon for each object, file after file and object after
object, under the ids that are drawn for them, and these are the holons of the answer.  Otherwise the request was a bad
one: there is no session in the answer, so that nothing has been staged.  The store is never touched. -/
theorem load_is_all_or_nothing (server : Server) (r : DanceRequest) (ids : IdSource) (content : ContentSet)
    (hready : server.failNext = none) (horder : r.order server.space = .ok (.load content))
    (hsound : r.context.state.checkInvariants = .ok ())
    (hfresh : ids.FreshUntil (server.handle r ids).2.drawn r.context.state.stagedHolons.contains) :
    let session := r.context.state
    let answer := (server.handle r ids).1.1
    (answer.status.isSuccess = true ↔ ∀ file ∈ content.files, file.Loadable) ∧
      (answer.status.isSuccess = true → ∃ described pool,
        List.Forall₂ FileData.Describes content.files described ∧
        session.stagedHolons.Gains ids (described.flatten.map .created) pool ∧
        answer = .ok server.space (.holons ((described.flatten.map .created).map .staged)) (session.withStaged pool) ∧
        (server.handle r ids).2 = ids.past described.flatten.length) ∧
      (answer.status.isSuccess = false → answer.status = .badRequest ∧ answer.body = .none ∧ answer.snapshot = none) ∧
      (server.handle r ids).1.2 = server := by
  intro session answer
  have hhandle := handle_load hready horder ids
  obtain ⟨described, hread, hload⟩ | ⟨e, n, hread, hload⟩ := Store.loadFiles_cases session content.files ids
  · rw [hload] at hhandle
    have hloadable : ∀ file ∈ content.files, file.Loadable := fun file hmem =>
      FileData.loadable_iff.2 (exists_mapM_eq_ok_iff.1 ⟨described, hread⟩ file hmem)
    have hfresh' : ids.FreshUntil (ids.drawn + (described.flatten.map StagedHolon.created).length)
        session.stagedHolons.contains := by
      rw [hhandle] at hfresh
      rw [List.length_map]
      exact hfresh
    have hgains := Pool.gains_insertDrawn (SessionState.checkInvariants_eq_ok_iff.1 hsound).staged hfresh'
    have hanswer : answer = _ := congrArg (fun p => p.1.1) hhandle
    refine ⟨⟨fun _ => hloadable, fun _ => by rw [hanswer]; rfl⟩,
      fun _ => ⟨described, _, ?_, hgains, hanswer, ?_⟩, ?_, ?_⟩
    · exact (mapM_eq_ok_iff.1 hread).imp fun file read h => FileData.described_eq_ok_iff.1 h
    · rw [hhandle]
    · intro hfailed
      rw [hanswer] at hfailed
      cases hfailed
    · rw [hhandle]
  · rw [hload] at hhandle
    obtain ⟨file, hmem, hrefused⟩ := exists_of_mapM_eq_error hread
    obtain ⟨why, rfl⟩ := FileData.exists_of_described_eq_error hrefused
    have hanswer : answer = .ofRefusal server.space (.invalidParameter why) := congrArg (fun p => p.1.1) hhandle
    have hfailed : answer.status.isSuccess = false := by rw [hanswer]; rfl
    refine ⟨⟨fun h => ?_, fun h => ?_⟩, fun h => ?_, fun _ => by rw [hanswer]; exact ⟨rfl, rfl, rfl⟩, by rw [hhandle]⟩
    · rw [hfailed] at h
      cases h
    · obtain ⟨described, hok⟩ := FileData.loadable_iff.1 (h file hmem)
      rw [hrefused] at hok
      cases hok
    · rw [hfailed] at h
      cases h

/-- A file of two objects with one key; the second names its age twice. -/
def people : FileData where
  filename := "people.json"
  contents := "[\x7b\"key\":\"ada\",\"age\":36\x7d, \x7b\"key\":\"ada\",\"age\":1.5,\"age\":null\x7d]"

def loadPeople : DanceRequest :=
  .new "load_holons" .standalone (.loadHolons ⟨none, [people]⟩) ⟨"local"⟩ (.new ⟨1⟩)

/-- Both are staged, and the second is found by the key. -/
theorem load_is_all_or_nothing_of_people :
    let ada : Option Value → StagedHolon := fun age =>
      .created (.ofList [(keyProperty, some (.string "ada")), (⟨"age"⟩, age)])
    people.Loadable ∧ ∃ pool,
      ((new ⟨"local"⟩).handle loadPeople (.ofPresets [])).1.1 =
        .ok ⟨"local"⟩ (.holons [.staged (ada (some (.integer 36))), .staged (ada none)])
          ((SessionState.new ⟨1⟩).withStaged pool) ∧
      pool.get? (.numbered 1) = some (.staged (ada (some (.integer 36)))) ∧
      pool.get? (.numbered 2) = some (.staged (ada none)) ∧
      pool.idOfKey? "ada" = some (.numbered 2) := by
  intro ada
  have hsuccess : ((new ⟨"local"⟩).handle loadPeople (.ofPresets [])).1.1.status.isSuccess = true := by decide +kernel
  have hbody : ((new ⟨"local"⟩).handle loadPeople (.ofPresets [])).1.1.body =
      .holons [.staged (ada (some (.integer 36))), .staged (ada none)] := by decide +kernel
  have hfresh : (IdSource.ofPresets []).FreshUntil ((new ⟨"local"⟩).handle loadPeople (.ofPresets [])).2.drawn
      loadPeople.context.state.stagedHolons.contains := by
    intro n _ hn
    have hdrawn : ((new ⟨"local"⟩).handle loadPeople (.ofPresets [])).2.drawn = 2 := by decide +kernel
    rw [hdrawn] at hn
    refine ⟨rfl, fun m _ hm => ?_⟩
    obtain ⟨rfl, rfl⟩ : m = 0 ∧ n = 1 := by omega
    decide
  obtain ⟨hloadable, hgiven, -, -⟩ :=
    load_is_all_or_nothing (new ⟨"local"⟩) loadPeople (.ofPresets []) ⟨none, [people]⟩ rfl rfl rfl hfresh
  obtain ⟨described, pool, -, hgains, hanswer, -⟩ := hgiven hsuccess
  rw [hanswer] at hbody
  have hcreated : described.flatten.map StagedHolon.created = [ada (some (.integer 36)), ada none] :=
    List.map_injective_iff.2 (fun _ _ => Holon.staged.inj) (ResponseBody.holons.inj hbody)
  rw [hcreated] at hanswer hgains
  refine ⟨hloadable.1 hsuccess people List.mem_cons_self, pool, hanswer, hgains.staged 0 _ rfl, hgains.staged 1 _ rfl,
    hgains.found "ada" 1 _ rfl (by decide +kernel) fun m later hm hlater => ?_⟩
  obtain ⟨hlt, -⟩ := List.getElem?_eq_some_iff.1 hlater
  exact absurd hlt (Nat.not_lt.2 hm)

/-- A value in a later file that no property can have: the people are not staged either. -/
example :
    let files : List FileData := [people, ⟨"ages.json", "[\x7b\"age\":-0\x7d]"⟩]
    let r : DanceRequest := .new "load_holons" .standalone (.loadHolons ⟨none, files⟩) ⟨"local"⟩ (.new ⟨1⟩)
    ((new ⟨"local"⟩).handle r (.ofPresets [])).1.1 =
      .ofRefusal ⟨"local"⟩ (.invalidParameter "ages.json: age is not an integer") := by decide +kernel

end Server

end Holarchy
