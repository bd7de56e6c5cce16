import Mathlib.Data.List.DropRight
import Mathlib.Data.Set.Function
import Holarchy.Proofs.Json.Number
import Holarchy.Proofs.Server
import Holarchy.Proofs.Server.Orders
/-!
# Successors and their names

The successor of a persisted holon that has a key is staged under the id of a name that is made of the key and the next
version.  The name is read in one way only, also when the key looks like such a name itself.  So two successors whose
keys or versions differ are told apart and stand side by side in a session.  Ids are digests and cannot be told apart
for all names there are: what is said of ids is said of a set of names among which no two have one id.
-/
namespace Holarchy

namespace Text

theorem decimal_injective : Function.Injective decimal := Function.LeftInverse.injective Json.digitsValue_decimal

/-- The digits of a number are all the digits that a text ends with, if something else stands in front of them. -/
theorem rdropWhile_isDigit_append (xs : List Char) {c : Char} (hc : isDigit c = false) (n : Nat) :
    (xs ++ c :: decimal n).rdropWhile isDigit = xs ++ [c] := by
  have hdigits : ∀ d ∈ (decimal n).reverse, isDigit d = true := fun d hd =>
    isDigit_of_mem_decimal (List.mem_reverse.1 hd)
  have hc' : ¬ isDigit c = true := by simp [hc]
  rw [List.rdropWhile, List.reverse_append, List.reverse_cons, List.append_assoc,
    List.dropWhile_append_of_pos hdigits, List.singleton_append, List.dropWhile_cons_of_neg hc', List.reverse_cons,
    List.reverse_reverse]

/-- **A number at the end of a text is read in one way only**, whatever the text in front of it, as long as that ends
with something other than a digit. -/
theorem append_decimal_inj {xs ys : List Char} {c : Char} (hc : isDigit c = false) {m n : Nat}
    (h : xs ++ c :: decimal m = ys ++ c :: decimal n) : xs = ys ∧ m = n := by
  have hfronts : xs ++ [c] = ys ++ [c] := by
    rw [← rdropWhile_isDigit_append xs hc m, h, rdropWhile_isDigit_append ys hc n]
  obtain rfl := List.append_cancel_right hfronts
  have hdecimals : decimal m = decimal n := (List.cons.inj (List.append_cancel_left h)).2
  exact ⟨rfl, decimal_injective hdecimals⟩

end Text

/-- A versioned key is taken apart from its end: the suffix, the digits, the separator. -/
theorem eq_of_versionedKey_eq {k₁ k₂ : String} {v₁ v₂ : UInt64} (h : versionedKey k₁ v₁ = versionedKey k₂ v₂) :
    k₁ = k₂ ∧ v₁ = v₂ := by
  have htexts := congrArg String.toList h
  simp only [versionedKey, String.toList_append, String.toList_ofList] at htexts
  have hnumbered : k₁.toList ++ ['_'] ++ '_' :: Text.decimal v₁.toNat
      = k₂.toList ++ ['_'] ++ '_' :: Text.decimal v₂.toNat := by
    simpa using List.append_cancel_right htexts
  obtain ⟨hkeys, hversions⟩ := Text.append_decimal_inj (by decide) hnumbered
  exact ⟨String.toList_inj.1 (List.append_cancel_right hkeys), UInt64.toNat_inj.1 hversions⟩

theorem TemporaryId.ofKey_eq_iff {names : Set String} (hnames : names.InjOn (Uuid.named Uuid.objectNamespace))
    {m n : String} (hm : m ∈ names) (hn : n ∈ names) : ofKey m = ofKey n ↔ m = n := by
  constructor
  · intro h
    exact hnames hm hn (congrArg TemporaryId.uuid h)
  · rintro rfl
    rfl

/-- The id of the staged holon that an answer names. -/
def DanceResponse.stagedId? (r : DanceResponse) : Option TemporaryId :=
  match r.body with
  | .reference (.staged reference) => some reference.id
  | _ => none

/-- A request for the successor of a persisted holon that has a key, to a server that is not made to fail. -/
structure Succession where
  server : Server
  request : DanceRequest
  ids : IdSource
  id : HolonId
  predecessor : SavedHolon
  key : String
  ready : server.failNext = none
  asked : request.order server.space = .ok (.newVersion id)
  persisted : server.store.saved.get? id.localId = some predecessor
  keyed : predecessor.properties.key? = some key

namespace Succession

variable {names : Set String} {a b : Succession}

def session (a : Succession) : SessionState := a.request.context.state

def response (a : Succession) : DanceResponse := (a.server.handle a.request a.ids).1.1

/-- The name whose id the successor is staged under. -/
def name (a : Succession) : String := versionedKey a.key (a.predecessor.version + 1)

/-- **A successor is always staged**, under the id of its name, and the answer names it. -/
theorem response_eq (a : Succession) : ∃ staged, a.predecessor.newVersion.stage = .ok staged ∧
    a.response = .ok a.server.space (.reference (.staged (a.session.stagedReference (.ofKey a.name))))
      (a.session.gaining (.ofKey a.name) staged a.session.transientHolons) := by
  obtain ⟨staged, hstaged⟩ := Store.stage_newVersion a.predecessor
  have hpromoted : a.server.store.promoted a.session (.version a.id) = .ok (staged, a.session.transientHolons) := by
    simp only [Store.promoted, bind, Except.bind, Store.find_eq_ok_iff.2 a.persisted, hstaged]
  have hid : (a.server.store.stagingId (.version a.id) a.ids).1 = .ofKey a.name := by
    simp only [Store.stagingId, Store.versionId?, a.persisted, a.keyed, Option.bind_some, Option.map_some, name]
  have hrun := Store.run_staging a.server.store a.server.embedProperties a.session (.version a.id) a.ids
  simp only [hpromoted, hid] at hrun
  refine ⟨staged, hstaged, ?_⟩
  rw [response, Server.handle_of_runs a.ready a.asked (congrArg Prod.fst hrun)]

theorem stagedId?_response (a : Succession) : a.response.stagedId? = some (.ofKey a.name) := by
  obtain ⟨staged, -, hresponse⟩ := a.response_eq
  rw [hresponse]
  rfl

theorem name_eq_iff : a.name = b.name ↔ a.key = b.key ∧ a.predecessor.version = b.predecessor.version := by
  constructor
  · intro h
    obtain ⟨hkeys, hversions⟩ := eq_of_versionedKey_eq h
    -- The version after the last is the first, and still that of no other.
    exact ⟨hkeys, (UInt64.add_left_inj 1).1 hversions⟩
  · rintro ⟨hkeys, hversions⟩
    rw [name, name, hkeys, hversions]

/-- **Successors that differ in key or version stand side by side**: the later one leaves the earlier one as it is. -/
theorem side_by_side (hnames : names.InjOn (Uuid.named Uuid.objectNamespace)) (ha : a.name ∈ names)
    (hb : b.name ∈ names) (hnext : a.response.snapshot = some b.session)
    (hdiffer : ¬ (a.key = b.key ∧ a.predecessor.version = b.predecessor.version)) :
    ∃ first second s, a.predecessor.newVersion.stage = .ok first ∧ b.predecessor.newVersion.stage = .ok second ∧
      b.response.snapshot = some s ∧ s.stagedHolons.get? (.ofKey a.name) = some (.staged first) ∧
      s.stagedHolons.get? (.ofKey b.name) = some (.staged second) := by
  obtain ⟨first, hfirst, hearlier⟩ := a.response_eq
  obtain ⟨second, hsecond, hlater⟩ := b.response_eq
  have hsession : a.session.gaining (.ofKey a.name) first a.session.transientHolons = b.session := by
    rw [hearlier] at hnext
    exact Option.some.inj hnext
  have hids : TemporaryId.ofKey a.name ≠ .ofKey b.name := by
    rw [ne_eq, TemporaryId.ofKey_eq_iff hnames ha hb, name_eq_iff]
    exact hdiffer
  refine ⟨first, second, _, hfirst, hsecond, congrArg DanceResponse.snapshot hlater, ?_, ?_⟩
  · rw [SessionState.get?_gaining, if_neg hids, ← hsession, SessionState.get?_gaining, if_pos rfl]
  · rw [SessionState.get?_gaining, if_pos rfl]

end Succession

/-- **Versioned keys never collide**, whatever the keys look like.  So, among names that ids tell apart, two successors
are staged under one id just if what they succeed has the same key and the same version. -/
theorem versioned_keys_never_collide :
    (∀ (k₁ k₂ : String) (v₁ v₂ : UInt64), versionedKey k₁ v₁ = versionedKey k₂ v₂ → k₁ = k₂ ∧ v₁ = v₂) ∧
      ∀ names : Set String, names.InjOn (Uuid.named Uuid.objectNamespace) →
        ∀ a b : Succession, a.name ∈ names → b.name ∈ names →
          ∃ s t, a.response.stagedId? = some s ∧ b.response.stagedId? = some t ∧
            s = .ofKey (versionedKey a.key (a.predecessor.version + 1)) ∧
            t = .ofKey (versionedKey b.key (b.predecessor.version + 1)) ∧
            (s = t ↔ a.key = b.key ∧ a.predecessor.version = b.predecessor.version) := by
  refine ⟨fun _ _ _ _ h => eq_of_versionedKey_eq h, fun names hnames a b ha hb => ?_⟩
  refine ⟨_, _, a.stagedId?_response, b.stagedId?_response, rfl, rfl, ?_⟩
  rw [TemporaryId.ofKey_eq_iff hnames ha hb, Succession.name_eq_iff]

namespace Succession

/-- Two books under one key, and one whose key is the name that their successors are staged by. -/
def library : Server :=
  ["book", "book__2_staged", "book"].foldl (fun s key => (s.seed (.ofValues [(keyProperty, .string key)])).1)
    (.new ⟨"local"⟩)

def ofLibrary (session : SessionState) (n : UInt64) (key : String)
    (h : library.store.saved.get? (.numbered n)
      = some (.fetched (.numbered n) (.ofValues [(keyProperty, .string key)]) none 1)) : Succession where
  server := library
  request := .new "stage_new_version" (.newVersion (.local (.numbered n))) .none ⟨"local"⟩ session
  ids := .ofPresets []
  id := .local (.numbered n)
  predecessor := .fetched (.numbered n) (.ofValues [(keyProperty, .string key)]) none 1
  key := key
  ready := rfl
  asked := rfl
  persisted := h
  keyed := PropertyMap.key?_eq_some_iff.2 (SortedMap.get?_insertMany_of_nodup (by simp) List.mem_cons_self)

def book : Succession := ofLibrary (.new ⟨1⟩) 1 "book" (by decide +kernel)

/-- Is asked for in the session that the successor of the first book was staged in. -/
def lookalike : Succession :=
  ofLibrary (book.response.snapshot.getD book.session) 2 "book__2_staged" (by decide +kernel)

def otherBook : Succession := ofLibrary (.new ⟨1⟩) 3 "book" (by decide +kernel)

/-- The two books give their successors one id.  The successor of the lookalike, whose key is the name behind that id,
gets another, and stands beside the first book's in the session. -/
theorem versioned_keys_never_collide_for_lookalikes :
    lookalike.key = book.name ∧ otherBook.id ≠ book.id ∧
      Set.InjOn (Uuid.named Uuid.objectNamespace) {book.name, lookalike.name} ∧
      book.response.stagedId? ≠ lookalike.response.stagedId? ∧
      book.response.stagedId? = otherBook.response.stagedId? ∧
      ∃ first second s, lookalike.response.snapshot = some s ∧
        s.stagedHolons.get? (.ofKey book.name) = some (.staged first) ∧ first.predecessorId = some (.numbered 1) ∧
        s.stagedHolons.get? (.ofKey lookalike.name) = some (.staged second) ∧
        second.predecessorId = some (.numbered 2) := by
  have hnames : Set.InjOn (Uuid.named Uuid.objectNamespace) {book.name, lookalike.name} :=
    Set.injOn_pair.2 fun h => absurd h (by decide +kernel)
  have hbook : book.name ∈ ({book.name, lookalike.name} : Set String) := Set.mem_insert _ _
  have hlookalike : lookalike.name ∈ ({book.name, lookalike.name} : Set String) := Set.mem_insert_of_mem _ rfl
  have hdiffer : ¬ (book.key = lookalike.key ∧ book.predecessor.version = lookalike.predecessor.version) := by
    rintro ⟨hkeys, -⟩
    exact absurd hkeys (by decide)
  obtain ⟨s, t, hs, ht, -, -, hst⟩ := versioned_keys_never_collide.2 _ hnames book lookalike hbook hlookalike
  obtain ⟨s', t', hs', ht', -, -, hst'⟩ := versioned_keys_never_collide.2 _ hnames book otherBook hbook hbook
  refine ⟨by decide +kernel, by decide, hnames, ?_, ?_, ?_⟩
  · rw [hs, ht, ne_eq, Option.some.injEq, hst]
    exact hdiffer
  · rw [hs', ht', hst'.2 ⟨rfl, rfl⟩]
  · have hnext : book.response.snapshot = some lookalike.session := by
      obtain ⟨staged, -, hresponse⟩ := book.response_eq
      simp only [lookalike, session, ofLibrary, hresponse]
      rfl
    obtain ⟨first, second, s, hfirst, hsecond, hsnapshot, hget, hget'⟩ :=
      side_by_side hnames hbook hlookalike hnext hdiffer
    cases hfirst
    cases hsecond
    exact ⟨_, _, s, hsnapshot, hget, rfl, hget', rfl⟩

end Succession

end Holarchy
