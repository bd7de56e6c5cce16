import Mathlib.Data.List.Perm.Basic
import Holarchy.Proofs.Json.Choice
import Holarchy.Proofs.SortedMap
/-!
# Maps are read back

Members of an object are read one after the other into something that is gathered: a map, or the slots of a record.
`Gathers` says what a row of members makes of it, in whatever order they come, and `Chain` that the members are those
that are written.  A map is then read back because the order of its entries does not matter.
-/
namespace Holarchy.Json

variable {α β κ σ ι : Type}

/-! ## Members -/

section Members

variable {b b' q : List Char} {name : String}

theorem nextKey_end (first : Bool) (hb : Blanks b) (r : List Char) : nextKey first (b ++ '\x7d' :: r) = .ok none := by
  rw [nextKey, skipBlanks_append_cons hb (by decide)]
  rfl

theorem nextKey_first (hb : Blanks b) (hq : Quotes name q) (r : List Char) :
    nextKey true (b ++ (q ++ r)) = .ok (some (name, r)) := by
  obtain ⟨t, ht, rfl⟩ := hq
  have htext : '"' :: (t ++ ['"']) ++ r = '"' :: (t ++ '"' :: r) := by simp
  rw [htext, nextKey, skipBlanks_append_cons hb (by decide)]
  simp [readString_of_spells ht, Except.map]

theorem nextKey_comma (hb : Blanks b) (hb' : Blanks b') (hq : Quotes name q) (r : List Char) :
    nextKey false (b ++ ',' :: (b' ++ (q ++ r))) = .ok (some (name, r)) := by
  obtain ⟨t, ht, rfl⟩ := hq
  have htext : '"' :: (t ++ ['"']) ++ r = '"' :: (t ++ '"' :: r) := by simp
  rw [htext, nextKey, skipBlanks_append_cons hb (by decide)]
  simp [skipBlanks_append_cons hb' (show isBlank '"' = false by decide), readString_of_spells ht, Except.map]

variable {member : σ → String → Reader σ} {label : ι → String × List Char}

/-- What one member makes of what has been gathered. -/
def Takes (member : σ → String → Reader σ) (g : σ) (m : String × List Char) (whole : Bool) (g' : σ) : Prop :=
  ∀ {b b' : List Char} (r : List Char), Blanks b → Blanks b' → Ends r →
    Meets (member g m.1 (b ++ ':' :: (b' ++ (m.2 ++ r)))) whole (g', r)

/-- What a row of members makes of it. -/
inductive Gathers (member : σ → String → Reader σ) (label : ι → String × List Char) : σ → List ι → Bool → σ → Prop where
  | nil (g : σ) : Gathers member label g [] true g
  | cons {g g' g'' : σ} {i : ι} {is : List ι} {here behind : Bool} : Takes member g (label i) here g' →
    Gathers member label g' is behind g'' → Gathers member label g (i :: is) (here && behind) g''

/-- One more member is read, and the rest decides about the whole. -/
theorem meets_member {g g' g'' : σ} {here behind first : Bool} {s r r' : List Char} {steps : Nat}
    (hnext : nextKey first s = .ok (some (name, r))) (hhere : Meets (member g name r) here (g', r')) {r'' : List Char}
    (hbehind : Meets (readMembers member steps false g' r') behind (g'', r'')) :
    Meets (readMembers member (steps + 1) first g s) (here && behind) (g'', r'') := by
  simp only [readMembers, hnext]
  rcases hhere.cases with ⟨rfl, hok⟩ | ⟨rfl, m, rest, settled, hm, herror⟩
  · rw [hok, Bool.true_and]
    exact hbehind
  · rw [herror]
    exact meets_error hm rest settled _

theorem meets_otherMembers {is : List ι} {t : List Char} (hrest : Rest (fun i => IsMember (label i)) is t)
    (r : List Char) : ∀ {g g' : σ} {whole : Bool} {steps : Nat}, Gathers member label g is whole g' →
      is.length < steps → ∃ b, Blanks b ∧
        Meets (readMembers member steps false g (t ++ '\x7d' :: r)) whole (g', b ++ '\x7d' :: r) := by
  induction hrest with
  | @nil b hb =>
    intro g g' whole steps hg hsteps
    cases hg
    cases steps with
    | zero => cases hsteps
    | succ steps =>
      refine ⟨b, hb, ?_⟩
      simp only [readMembers, nextKey_end false hb]
      exact rfl
  | @cons b b' w t i is hb hb' hw hrest ih =>
    intro g g' whole steps hg hsteps
    obtain ⟨q, b₁, b₂, hq, hb₁, hb₂, rfl⟩ := hw
    cases hg with
    | cons htakes hg =>
      cases steps with
      | zero => cases hsteps
      | succ steps =>
        obtain ⟨b₃, hb₃, hbehind⟩ := ih hg (Nat.lt_of_succ_lt_succ hsteps)
        refine ⟨b₃, hb₃, ?_⟩
        have hends : Ends (t ++ '\x7d' :: r) := hrest.ends (ends_cons (by decide))
        simp only [List.append_assoc, List.cons_append]
        exact meets_member (nextKey_comma hb hb' hq _) (htakes _ hb₁ hb₂ hends) hbehind

/-- **Members are read in the order in which they come.** -/
theorem meets_members {is : List ι} {t : List Char} (hrow : Series (fun i => IsMember (label i)) is t) {g g' : σ}
    {whole : Bool} (hg : Gathers member label g is whole g') (r : List Char) :
    ∃ b, Blanks b ∧
      Meets (readMembers member ((t ++ '\x7d' :: r).length + 1) true g (t ++ '\x7d' :: r)) whole
        (g', b ++ '\x7d' :: r) := by
  cases hrow with
  | nil hb =>
    cases hg
    refine ⟨t, hb, ?_⟩
    simp only [readMembers, nextKey_end true hb]
    exact rfl
  | @cons b w t i is hb hw hrest =>
    obtain ⟨q, b₁, b₂, hq, hb₁, hb₂, rfl⟩ := hw
    cases hg with
    | cons htakes hg =>
      have hlength : is.length < (b ++ (q ++ (b₁ ++ ':' :: (b₂ ++ (label i).2)) ++ t) ++ '\x7d' :: r).length := by
        have := hrest.length_le
        simp only [List.length_append, List.length_cons]
        omega
      obtain ⟨b₃, hb₃, hbehind⟩ := meets_otherMembers hrest r hg hlength
      refine ⟨b₃, hb₃, ?_⟩
      have hends : Ends (t ++ '\x7d' :: r) := hrest.ends (ends_cons (by decide))
      simp only [List.append_assoc, List.cons_append] at hbehind ⊢
      exact meets_member (nextKey_first hb hq _) (htakes _ hb₁ hb₂ hends) hbehind

theorem closeObject_end (hb : Blanks b) (r : List Char) : closeObject (b ++ '\x7d' :: r) = .ok r := by
  rw [closeObject, skipBlanks_append_cons hb (by decide)]
  rfl

/-- A member is read like the value that it holds. -/
structure Gathered (member : σ → String → Reader σ) (g : σ) (m : String × List Char) (d : Document) (g' : σ) :
    Prop where
  takes : ∀ {whole : Bool} {t : List Char}, Lays d whole t → Takes member g (m.1, t) whole g'
  stops : ∀ {p s : List Char}, ':' :: m.2 = p ++ s → s ≠ [] →
    BreaksOff (member g m.1 p) ∨ ∃ g'', member g m.1 p = .ok (g'', [])

theorem Conveyed.gathered {read : Reader α} {a : α} {w : List Char} {d : Document} (h : Conveyed read a w d)
    {g : σ} (f : α → σ) (hmember : ∀ s, member g name s = (readMemberValue read s).map fun p => (f p.1, p.2)) :
    Gathered member g (name, w) d (f a) where
  takes ht b b' r hb hb' hr := by
    rw [hmember]
    exact (meets_memberValue h hb hb' ht hr).map fun p => (f p.1, p.2)
  stops hcut hs := by
    rw [hmember]
    rcases memberValue_cut h hcut hs with ⟨what, hended⟩ | ⟨-, a', hok⟩
    · exact .inl ⟨what, by rw [hended]; rfl⟩
    · exact .inr ⟨f a', by rw [hok]; rfl⟩

/-- Members that are written one after the other. -/
inductive Chain (member : σ → String → Reader σ) : σ → List (String × List Char) → Prop where
  | nil (g : σ) : Chain member g []
  | cons {g g' : σ} {m : String × List Char} {d : Document} {ms : List (String × List Char)} :
    Gathered member g m d g' → Lays d true m.2 → Chain member g' ms → Chain member g (m :: ms)

theorem readMembers_cut_member {g g' : σ} {d : Document} {m : String × List Char} {rest p s x : List Char}
    {first : Bool} {steps : Nat} (h : Gathered member g m d g') (hd : Lays d true m.2)
    (hcut : ':' :: m.2 ++ rest = p ++ s) (hnext : nextKey first x = .ok (some (m.1, p)))
    (hbehind : ∀ p', rest = p' ++ s → Ends p' ∧ BreaksOff (readMembers member steps false g' p')) :
    BreaksOff (readMembers member (steps + 1) first g x) := by
  simp only [readMembers, hnext]
  rcases cut_append hcut with ⟨s', hs', hm⟩ | ⟨p', rfl, hrest⟩
  · rcases h.stops hm hs' with ⟨what, hended⟩ | ⟨g'', hok⟩
    · exact ⟨what, by rw [hended]⟩
    · rw [hok]
      cases steps <;> exact ⟨.object, rfl⟩
  · obtain ⟨hends, hbehind⟩ := hbehind p' hrest
    have hok : member g m.1 (':' :: m.2 ++ p') = .ok (g', p') := h.takes hd p' blanks_nil blanks_nil hends
    rw [hok]
    exact hbehind

theorem nextKey_first_cut {p s : List Char} (hcut : writeString name = p ++ s) (hs : s ≠ []) :
    BreaksOff (nextKey true p) := by
  rcases List.cons_eq_append_iff.1 hcut with ⟨rfl, -⟩ | ⟨p, rfl, hname⟩
  · exact ⟨.object, rfl⟩
  · refine ⟨.string, ?_⟩
    rw [nextKey, skipBlanks_cons (by decide)]
    simp [readString_cut [] hname hs, Except.map]

theorem nextKey_comma_cut {p s : List Char} (hcut : writeString name = p ++ s) (hs : s ≠ []) :
    BreaksOff (nextKey false (',' :: p)) := by
  rcases List.cons_eq_append_iff.1 hcut with ⟨rfl, -⟩ | ⟨p, rfl, hname⟩
  · exact ⟨.value, rfl⟩
  · refine ⟨.string, ?_⟩
    rw [nextKey, skipBlanks_cons (by decide)]
    simp [skipBlanks_cons (show isBlank '"' = false by decide), readString_cut [] hname hs, Except.map]

/-- Members are read of a text that breaks off at a key, in it or behind it. -/
theorem readMembers_cut_key {g g' : σ} {d : Document} {m : String × List Char} {rest p s x : List Char} {first : Bool}
    {steps : Nat} (h : Gathered member g m d g') (hd : Lays d true m.2)
    (hcut : writeMember m.1 m.2 ++ rest = p ++ s)
    (hkey : ∀ s', s' ≠ [] → writeString m.1 = p ++ s' → BreaksOff (nextKey first x))
    (hnext : ∀ p', p = writeString m.1 ++ p' → nextKey first x = .ok (some (m.1, p')))
    (hbehind : ∀ p', rest = p' ++ s → Ends p' ∧ BreaksOff (readMembers member steps false g' p')) :
    BreaksOff (readMembers member (steps + 1) first g x) := by
  rw [writeMember, List.append_assoc] at hcut
  rcases cut_append hcut with ⟨s', hs', hname⟩ | ⟨p', hp, hvalue⟩
  · obtain ⟨what, hended⟩ := hkey s' hs' hname
    exact ⟨what, by rw [readMembers, hended]⟩
  · exact readMembers_cut_member h hd hvalue (hnext p' hp) hbehind

theorem readMembers_cut_others {g : σ} {ms : List (String × List Char)} (h : Chain member g ms) :
    ∀ {steps : Nat} {p s : List Char}, others (ms.map fun m => writeMember m.1 m.2) ++ ['\x7d'] = p ++ s → s ≠ [] →
      BreaksOff (readMembers member steps false g p) := by
  induction h with
  | nil g =>
    intro steps p s hcut hs
    rcases List.append_eq_singleton_iff.1 hcut.symm with ⟨rfl, -⟩ | ⟨-, rfl⟩
    · cases steps <;> exact ⟨.object, rfl⟩
    · exact absurd rfl hs
  | @cons g g' m d ms hm hd _ ih =>
    intro steps p s hcut hs
    cases steps with
    | zero => exact ⟨.object, rfl⟩
    | succ steps =>
      have htext : others ((m :: ms).map fun m => writeMember m.1 m.2) ++ ['\x7d'] =
          ',' :: (writeMember m.1 m.2 ++ (others (ms.map fun m => writeMember m.1 m.2) ++ ['\x7d'])) := by simp [others]
      rcases List.cons_eq_append_iff.1 (htext.symm.trans hcut) with ⟨rfl, -⟩ | ⟨p, rfl, hmembers⟩
      · exact ⟨.object, rfl⟩
      refine readMembers_cut_key hm hd hmembers (fun s' hs' hname => nextKey_comma_cut hname hs') ?_ fun p' hrest =>
        ⟨ends_of_cut (by decide) hrest, ih hrest hs⟩
      rintro p' rfl
      exact nextKey_comma blanks_nil blanks_nil (quotes_writeString m.1) p'

/-- **The members of an object that breaks off come to an end.** -/
theorem readMembers_cut {g : σ} {ms : List (String × List Char)} (h : Chain member g ms) {steps : Nat} {p s : List Char}
    (hcut : commaSeparated (ms.map fun m => writeMember m.1 m.2) ++ ['\x7d'] = p ++ s) (hs : s ≠ []) :
    BreaksOff (readMembers member steps true g p) := by
  cases steps with
  | zero => exact ⟨.object, rfl⟩
  | succ steps =>
    cases h with
    | nil =>
      rcases List.append_eq_singleton_iff.1 hcut.symm with ⟨rfl, -⟩ | ⟨-, rfl⟩
      · exact ⟨.object, rfl⟩
      · exact absurd rfl hs
    | @cons _ g' m d ms hm hd hms =>
      rw [List.map_cons, commaSeparated_cons, List.append_assoc] at hcut
      refine readMembers_cut_key hm hd hcut (fun s' hs' hname => nextKey_first_cut hname hs') ?_ fun p' hrest =>
        ⟨ends_of_cut (by decide) hrest, readMembers_cut_others hms hrest hs⟩
      rintro p' rfl
      exact nextKey_first blanks_nil (quotes_writeString m.1) p'

end Members

/-! ## Maps -/

section Maps

variable [KeyOrder κ] {key? : String → Option κ} {name : κ → String} {read : Reader β} {write : β → List Char}
  {document : β → Document}

theorem gathered_entry (hkey : ∀ k, key? (name k) = some k) (m : SortedMap κ β) (k : κ) {v : β} {w : List Char}
    {d : Document} (h : Conveyed read v w d) : Gathered (readEntry key? read) m (name k, w) d (m.insert k v) :=
  h.gathered (m.insert k) fun s => by rw [readEntry, hkey]

theorem chain_entries (hkey : ∀ k, key? (name k) = some k) (h : ∀ v, Conveyed read v (write v) (document v)) :
    ∀ (es : List (κ × β)) (m : SortedMap κ β), Chain (readEntry key? read) m (es.map fun e => (name e.1, write e.2))
  | [], m => .nil m
  | (k, v) :: es, m => .cons (gathered_entry hkey m k (h v)) (h v).laid (chain_entries hkey h es (m.insert k v))

theorem gathers_entries (hkey : ∀ k, key? (name k) = some k) (h : ∀ v, Conveyed read v (write v) (document v)) :
    ∀ {parts : List (String × Part)} {es : List (κ × β)} (m : SortedMap κ β),
      (∀ p ∈ parts, Lays p.2.document p.2.whole p.2.text) →
      (parts.map fun p => (p.1, p.2.document)) = (es.map fun e => (name e.1, document e.2)) →
      Gathers (readEntry key? read) (fun p => (p.1, p.2.text)) m parts (parts.all fun p => p.2.whole) (m.insertMany es)
  | [], es, m, _, hes => by
    obtain rfl := List.map_eq_nil_iff.1 hes.symm
    exact .nil m
  | (key, p) :: parts, [], m, _, hes => by cases hes
  | (key, p) :: parts, (k, v) :: es, m, hparts, hes => by
    obtain ⟨hp, hothers⟩ := List.cons.inj hes
    obtain ⟨rfl, hdocument⟩ := Prod.mk.inj hp
    have hlays : Lays (document v) p.whole p.text := hdocument ▸ hparts _ List.mem_cons_self
    exact .cons ((gathered_entry hkey m k (h v)).takes hlays)
      (gathers_entries hkey h (m.insert k v) (fun q hq => hparts q (List.mem_cons_of_mem _ hq)) hothers)

theorem awaits_map : Awaits (readMap key? read) where
  blanks s hb := by rw [readMap, readMap, skipBlanks_append hb]
  nothing := rfl

theorem meets_map [DecidableEq κ] (hkey : ∀ k, key? (name k) = some k) (h : ∀ v, Conveyed read v (write v) (document v))
    (m : SortedMap κ β) {whole : Bool} {t : List Char}
    (ht : Lays (.object (m.entries.map fun e => (name e.1, document e.2))) whole t) (r : List Char) :
    Meets (readMap key? read (t ++ r)) whole (m, r) := by
  obtain ⟨parts, t, hparts, hperm, hrow, rfl, rfl⟩ := ht.exists_members
  -- Entries in another order make the same map.
  obtain ⟨es, hes, hsame⟩ : ∃ es : List (κ × β),
      (parts.map fun p => (p.1, p.2.document)) = (es.map fun e => (name e.1, document e.2)) ∧ es.Perm m.entries :=
    (iff_of_eq (congrFun₂ (List.eq_map_comp_perm _) _ _)).2 hperm
  have hg := gathers_entries hkey h ∅ hparts hes
  rw [SortedMap.insertMany_of_perm hsame] at hg
  have htext : '\x7b' :: (t ++ ['\x7d']) ++ r = '\x7b' :: (t ++ '\x7d' :: r) := by simp
  rw [htext, readMap, skipBlanks_cons (by decide)]
  refine Meets.settle ?_ objectEnd
  obtain ⟨b, hb, hmeets⟩ := meets_members hrow hg r
  rcases hmeets.cases with ⟨hwhole, hok⟩ | ⟨hwhole, mismatch, rest, settled, hm, herror⟩
  · rw [hok, hwhole]
    simp only [closeObject_end hb]
    exact rfl
  · rw [herror, hwhole]
    exact meets_error hm rest settled _

theorem map_cut (hkey : ∀ k, key? (name k) = some k) (h : ∀ v, Conveyed read v (write v) (document v))
    (m : SortedMap κ β) {p s : List Char} (hcut : writeObject (m.entries.map fun e => (name e.1, write e.2)) = p ++ s)
    (hs : s ≠ []) : BreaksOff (readMap key? read p) := by
  rcases List.cons_eq_append_iff.1 hcut with ⟨rfl, -⟩ | ⟨p, rfl, hmembers⟩
  · exact ⟨.value, rfl⟩
  obtain ⟨what, hended⟩ : BreaksOff (readMembers (readEntry key? read) (p.length + 1) true ∅ p) :=
    readMembers_cut (chain_entries hkey h m.entries ∅) hmembers hs
  refine ⟨what, ?_⟩
  rw [readMap, skipBlanks_cons (by decide)]
  simp only [hended]
  rfl

/-- **A map is read back if its keys are.** -/
theorem conveyed_map [DecidableEq κ] (hkey : ∀ k, key? (name k) = some k)
    (h : ∀ v, Conveyed read v (write v) (document v)) {m : SortedMap κ β} :
    Conveyed (readMap key? read) m (writeObject (m.entries.map fun e => (name e.1, write e.2)))
      (.object (m.entries.map fun e => (name e.1, document e.2))) where
  awaits := awaits_map
  laid := by
    let part (e : κ × β) : String × Part := (name e.1, ⟨document e.2, true, write e.2⟩)
    have hparts : ∀ p ∈ m.entries.map part, Lays p.2.document p.2.whole p.2.text ∧ p.2.whole = true :=
      List.forall_mem_map.2 fun e _ => ⟨(h e.2).laid, rfl⟩
    have hrow := series_writeMember (fun p : String × Part => (p.1, p.2.text)) (m.entries.map part)
    have hlays := Lays.object (fun p hp => (hparts p hp).1) (.refl _) hrow
    rw [List.all_eq_true.2 fun p hp => (hparts p hp).2, List.map_map, List.map_map] at hlays
    rw [writeObject, List.map_map]
    exact hlays
  meets ht r _ := meets_map hkey h m ht r
  stops hcut hs := .inl (map_cut hkey h m hcut hs)

end Maps

end Holarchy.Json
