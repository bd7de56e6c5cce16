import Holarchy.Proofs.Json.ReadBack
/-!
# Lists are read back

A list is read element by element, and a pair as a list of two.
-/
namespace Holarchy.Json

variable {α β : Type}

/-! ## Lists -/

section Lists

variable {b b' w : List Char} {first : Bool}

theorem nextElement_end (first : Bool) (hb : Blanks b) (r : List Char) :
    nextElement first (b ++ ']' :: r) = .ok none := by
  rw [nextElement, skipBlanks_append_cons hb (by decide)]
  rfl

theorem nextElement_first (hb : Blanks b) (hw : Opens w) (r : List Char) :
    nextElement true (b ++ (w ++ r)) = .ok (some (w ++ r)) := by
  obtain ⟨c, s, rfl, hc, -, hend⟩ := hw
  rw [List.cons_append]
  unfold nextElement
  rw [skipBlanks_append_cons hb hc]
  split
  · rename_i heq; cases heq
  · rename_i heq; exact absurd (List.cons.inj heq).1 hend
  · rename_i heq
    cases heq
    rfl

theorem nextElement_comma (hb : Blanks b) (hb' : Blanks b') (hw : Opens w) (r : List Char) :
    nextElement false (b ++ ',' :: (b' ++ (w ++ r))) = .ok (some (w ++ r)) := by
  obtain ⟨c, s, rfl, hc, -, hend⟩ := hw
  rw [List.cons_append]
  unfold nextElement
  rw [skipBlanks_append_cons hb (by decide)]
  split
  · rename_i heq; cases heq
  · rename_i heq; cases heq
  · rename_i heq
    cases heq
    rw [if_neg Bool.false_ne_true, if_pos rfl, skipBlanks_append_cons hb' hc]
    split
    · rename_i heq; cases heq
    · rename_i heq; exact absurd (List.cons.inj heq).1 hend
    · rfl

theorem closeList_end (hb : Blanks b) (r : List Char) : closeList (b ++ ']' :: r) = .ok r := by
  rw [closeList, skipBlanks_append_cons hb (by decide)]
  rfl

variable {read : Reader α} {write : α → List Char} {document : α → Document}

/-- One more element is read, and the rest decides about the whole. -/
theorem meets_element (sofar : List α) {a : α} {as : List α} {here behind : Bool} {s s' r r' : List Char} {steps : Nat}
    (hnext : nextElement first s = .ok (some s')) (hhere : Meets (read s') here (a, r'))
    (hbehind : Meets (readElements read steps false (a :: sofar) r') behind ((a :: sofar).reverse ++ as, r)) :
    Meets (readElements read (steps + 1) first sofar s) (here && behind) (sofar.reverse ++ a :: as, r) := by
  simp only [readElements, hnext]
  rcases hhere.cases with ⟨rfl, hok⟩ | ⟨rfl, m, rest, settled, hm, herror⟩
  · rw [hok, Bool.true_and]
    simp only [List.reverse_cons, List.append_assoc, List.singleton_append] at hbehind ⊢
    exact hbehind
  · rw [herror]
    exact meets_error hm rest settled _

/-- The elements behind another one, read one by one. -/
theorem meets_others (h : ∀ a, Conveyed read a (write a) (document a)) (hd : ∀ a, document a ≠ .null)
    {parts : List Part} {t : List Char} (hrest : Rest (fun p w => w = p.text) parts t) (r : List Char) :
    ∀ {as sofar : List α} {steps : Nat}, (∀ p ∈ parts, Lays p.document p.whole p.text) →
      parts.map Part.document = as.map document → parts.length < steps →
      Meets (readElements read steps false sofar (t ++ ']' :: r)) (parts.all Part.whole) (sofar.reverse ++ as, r) := by
  induction hrest with
  | nil hb =>
    intro as sofar steps _ has hsteps
    obtain rfl := List.map_eq_nil_iff.1 has.symm
    cases steps with
    | zero => cases hsteps
    | succ steps =>
      simp only [readElements, nextElement_end false hb, closeList_end hb, List.append_nil]
      exact rfl
  | @cons b b' w t p parts hb hb' hw hrest ih =>
    intro as sofar steps hparts has hsteps
    subst hw
    cases as with
    | nil => cases has
    | cons a as =>
      obtain ⟨hdocument, has⟩ := List.cons.inj has
      cases steps with
      | zero => cases hsteps
      | succ steps =>
        have hp := hparts p List.mem_cons_self
        have hopens : Opens p.text := hp.opens (hdocument ▸ hd a)
        have hends : Ends (t ++ ']' :: r) := hrest.ends (ends_cons (by decide))
        rw [hdocument] at hp
        simp only [List.append_assoc, List.cons_append]
        exact meets_element sofar (nextElement_comma hb hb' hopens _) ((h a).meets hp _ hends)
          (ih (fun q hq => hparts q (List.mem_cons_of_mem _ hq)) has (Nat.lt_of_succ_lt_succ hsteps))

theorem awaits_list : Awaits (readList read) where
  blanks s hb := by rw [readList, readList, skipBlanks_append hb]
  nothing := rfl

theorem Lays.exists_parts {ds : List Document} {whole : Bool} {t : List Char} (h : Lays (.list ds) whole t) :
    ∃ parts t', (∀ p ∈ parts, Lays p.document p.whole p.text) ∧ Series (fun p w => w = p.text) parts t' ∧
      ds = parts.map Part.document ∧ whole = parts.all Part.whole ∧ t = '[' :: (t' ++ [']']) := by
  cases h with
  | list hparts hrow => exact ⟨_, _, hparts, hrow, rfl, rfl, rfl⟩

theorem meets_list (h : ∀ a, Conveyed read a (write a) (document a)) (hd : ∀ a, document a ≠ .null) (as : List α)
    {whole : Bool} {t : List Char} (ht : Lays (.list (as.map document)) whole t) (r : List Char) :
    Meets (readList read (t ++ r)) whole (as, r) := by
  obtain ⟨parts, t, hparts, hrow, has, rfl, rfl⟩ := ht.exists_parts
  have htext : '[' :: (t ++ [']']) ++ r = '[' :: (t ++ ']' :: r) := by simp
  rw [htext, readList, skipBlanks_cons (by decide)]
  refine Meets.settle ?_ listEnd
  cases hrow with
  | nil hb =>
    obtain rfl := List.map_eq_nil_iff.1 has
    simp only [readElements, nextElement_end true hb, closeList_end hb]
    exact rfl
  | @cons b w t p parts hb hw hrest =>
    subst hw
    cases as with
    | nil => cases has
    | cons a as =>
      obtain ⟨hdocument, has⟩ := List.cons.inj has.symm
      have hp := hparts p List.mem_cons_self
      have hopens : Opens p.text := hp.opens (hdocument ▸ hd a)
      have hends : Ends (t ++ ']' :: r) := hrest.ends (ends_cons (by decide))
      have hlength : parts.length < (b ++ (p.text ++ t) ++ ']' :: r).length := by
        have := hrest.length_le
        simp only [List.length_append, List.length_cons]
        omega
      rw [hdocument] at hp
      simp only [List.append_assoc] at hlength ⊢
      exact meets_element [] (nextElement_first hb hopens _) ((h a).meets hp _ hends)
        (meets_others h hd hrest r (fun q hq => hparts q (List.mem_cons_of_mem _ hq)) has hlength)

/-- An element is read of a text that breaks off in it or behind it. -/
theorem readElements_cut_element {a : α} (h : Conveyed read a (write a) (document a)) {rest p s x : List Char}
    {steps : Nat} (sofar : List α) (hcut : write a ++ rest = p ++ s) (hnext : nextElement first x = .ok (some p))
    (hbehind : ∀ p', rest = p' ++ s → Ends p' ∧
      ∀ sofar, BreaksOff (readElements read steps false sofar p')) :
    BreaksOff (readElements read (steps + 1) first sofar x) := by
  simp only [readElements, hnext]
  rcases cut_append hcut with ⟨s', hs', hwrite⟩ | ⟨p', rfl, hrest⟩
  · rcases h.stops hwrite hs' with ⟨what, hended⟩ | ⟨-, a', hok⟩
    · exact ⟨what, by rw [hended]⟩
    · rw [hok]
      cases steps <;> exact ⟨.list, rfl⟩
  · obtain ⟨hends, hbehind⟩ := hbehind p' hrest
    rw [h.reads p' hends]
    exact hbehind _

theorem readElements_cut (h : ∀ a, Conveyed read a (write a) (document a)) (hd : ∀ a, document a ≠ .null) :
    ∀ (as sofar : List α) (steps : Nat) {p s : List Char}, others (as.map write) ++ [']'] = p ++ s → s ≠ [] →
      BreaksOff (readElements read steps false sofar p)
  | _, _, 0, _, _, _, _ => ⟨.list, rfl⟩
  | [], sofar, steps + 1, p, s, hcut, hs => by
    rcases List.append_eq_singleton_iff.1 hcut.symm with ⟨rfl, -⟩ | ⟨-, rfl⟩
    · exact ⟨.list, rfl⟩
    · exact absurd rfl hs
  | a :: as, sofar, steps + 1, p, s, hcut, hs => by
    have htext : others ((a :: as).map write) ++ [']'] = ',' :: (write a ++ (others (as.map write) ++ [']'])) := by
      simp [others]
    rw [htext] at hcut
    rcases List.cons_eq_append_iff.1 hcut with ⟨rfl, -⟩ | ⟨p, rfl, helement⟩
    · exact ⟨.list, rfl⟩
    by_cases hp : p = []
    · exact ⟨.value, by rw [hp]; rfl⟩
    have hopens : Opens p := ((h a).laid.opens (hd a)).of_cut helement hp
    have hnext := nextElement_comma blanks_nil blanks_nil hopens []
    rw [List.append_nil] at hnext
    exact readElements_cut_element (h a) sofar helement hnext fun p' hrest =>
      ⟨ends_of_cut (by decide) hrest, fun sofar => readElements_cut h hd as sofar steps hrest hs⟩

theorem readList_cut (h : ∀ a, Conveyed read a (write a) (document a)) (hd : ∀ a, document a ≠ .null) (as : List α)
    {p s : List Char} (hcut : writeList (as.map write) = p ++ s) (hs : s ≠ []) : BreaksOff (readList read p) := by
  rcases List.cons_eq_append_iff.1 hcut with ⟨rfl, -⟩ | ⟨p, rfl, helements⟩
  · exact ⟨.value, rfl⟩
  rw [readList, skipBlanks_cons (by decide)]
  refine BreaksOff.settle ?_ listEnd
  cases as with
  | nil =>
    rcases List.append_eq_singleton_iff.1 helements.symm with ⟨rfl, -⟩ | ⟨-, rfl⟩
    · exact ⟨.list, rfl⟩
    · exact absurd rfl hs
  | cons a as =>
    rw [List.map_cons, commaSeparated_cons, List.append_assoc] at helements
    by_cases hp : p = []
    · exact ⟨.list, by rw [hp]; rfl⟩
    have hopens : Opens p := ((h a).laid.opens (hd a)).of_cut helements hp
    have hnext := nextElement_first blanks_nil hopens []
    rw [List.append_nil] at hnext
    exact readElements_cut_element (h a) [] helements hnext fun p' hrest =>
      ⟨ends_of_cut (by decide) hrest, fun sofar => readElements_cut h hd as sofar _ hrest hs⟩

/-- **A list is read back, element by element.** -/
theorem conveyed_list (h : ∀ a, Conveyed read a (write a) (document a)) (hd : ∀ a, document a ≠ .null) (as : List α) :
    Conveyed (readList read) as (writeList (as.map write)) (.list (as.map document)) where
  awaits := awaits_list
  laid := by
    let parts := as.map fun a => (⟨document a, true, write a⟩ : Part)
    have hrow : Series (fun p w => w = Part.text p) parts (commaSeparated (parts.map Part.text)) :=
      series_commaSeparated Part.text fun _ _ => rfl
    have hparts : ∀ p ∈ parts, Lays p.document p.whole p.text ∧ p.whole = true :=
      List.forall_mem_map.2 fun a _ => ⟨(h a).laid, rfl⟩
    have hlays := Lays.list (fun p hp => (hparts p hp).1) hrow
    rw [List.all_eq_true.2 fun p hp => (hparts p hp).2, List.map_map, List.map_map] at hlays
    exact hlays
  meets ht r _ := meets_list h hd as ht r
  stops hcut hs := .inl (readList_cut h hd as hcut hs)

end Lists

/-! ## Pairs -/

section Pairs

variable {γ : Type} {n n' : String} {read : Reader α} {read' : Reader β} {make : α × β × Unit → γ} {a : α} {b : β}
  {w w' : List Char} {d d' : Document}

/-- The reader of a list of two. -/
abbrev pair (n n' : String) (read : Reader α) (read' : Reader β) : Fields [α, β] :=
  .required n read (.required n' read' .nil)

section InOrder

variable {αs : List Type} {name : String} {more : Fields αs} {s s' r : List Char} {first : Bool} (index : Nat)
  (hfirst : (index == 0) = first) (hnext : nextElement first s = .ok (some s'))

include hfirst hnext

theorem readInOrder_ok (hread : read s' = .ok (a, r)) : (Fields.required name read more).readInOrder index s =
    (more.readInOrder (index + 1) r).map fun p => @Prod.mk (Values (α :: αs)) _ (a, p.1) p.2 := by
  simp only [Fields.required, Fields.readInOrder, hfirst, hnext, hread]

theorem readInOrder_error {e : Fault} (hread : read s' = .error e) :
    (Fields.required name read more).readInOrder index s = .error e := by
  simp only [Fields.required, Fields.readInOrder, hfirst, hnext, hread]

end InOrder

variable (n n') in
theorem meets_listed {s s' r r' t t' : List Char} {here there : Bool} (hnext : nextElement true s = .ok (some s'))
    (hhere : Meets (read s') here (a, r)) (hnext' : nextElement false r = .ok (some r'))
    (hthere : Meets (read' r') there (b, t)) (hclose : closeList t = .ok t') :
    Meets ((pair n n' read read').readListed s) (here && there) ((a, b, ()), t') := by
  refine Meets.settle ?_ listEnd
  rcases hhere.cases with ⟨rfl, hok⟩ | ⟨rfl, m, rest, settled, hm, herror⟩
  · rw [readInOrder_ok 0 rfl hnext hok]
    rcases hthere.cases with ⟨rfl, hok'⟩ | ⟨rfl, m, rest, settled, hm, herror⟩
    · rw [readInOrder_ok 1 rfl hnext' hok']
      simp only [Fields.readInOrder, Except.map, hclose]
      exact rfl
    · rw [readInOrder_error 1 rfl hnext' herror]
      exact meets_error hm rest settled _
  · rw [readInOrder_error 0 rfl hnext herror]
    exact meets_error hm rest settled _

theorem awaits_pair : Awaits ((pair n n' read read').readTuple make) where
  blanks s hb := by
    unfold Fields.readTuple
    rw [skipBlanks_append hb]
  nothing := rfl

theorem meets_pair (h : Conveyed read a w d) (h' : Conveyed read' b w' d') (hd : d ≠ .null) (hd' : d' ≠ .null)
    {whole : Bool} {t : List Char} (ht : Lays (.list [d, d']) whole t) (r : List Char) :
    Meets ((pair n n' read read').readTuple make (t ++ r)) whole (make (a, b, ()), r) := by
  obtain ⟨parts, t, hparts, hrow, hdocuments, rfl, rfl⟩ := ht.exists_parts
  obtain ⟨p, p', rfl⟩ : ∃ p p', parts = [p, p'] := by
    have hlength := congrArg List.length hdocuments
    rw [List.length_map] at hlength
    exact List.length_eq_two.1 hlength.symm
  obtain ⟨rfl, rfl⟩ : d = p.document ∧ d' = p'.document := by simpa using hdocuments
  obtain ⟨hp, hp'⟩ : Lays p.document p.whole p.text ∧ Lays p'.document p'.whole p'.text := by simpa using hparts
  cases hrow with
  | @cons b₁ _ _ _ _ hb₁ hw hrest =>
    cases hrest with
    | @cons b₂ b₃ _ b₄ _ _ hb₂ hb₃ hw' hnil =>
      cases hnil with
      | nil hb₄ =>
        subst hw hw'
        have hends : Ends (b₄ ++ ']' :: r) := ends_append hb₄ (ends_cons (by decide))
        have hends' : Ends (b₂ ++ ',' :: (b₃ ++ (p'.text ++ (b₄ ++ ']' :: r)))) :=
          ends_append hb₂ (ends_cons (by decide))
        have hlisted := meets_listed n n' (nextElement_first hb₁ (hp.opens hd) _) (h.meets hp _ hends')
          (nextElement_comma hb₂ hb₃ (hp'.opens hd') _) (h'.meets hp' _ hends) (closeList_end hb₄ r)
        have htext : '[' :: (b₁ ++ (p.text ++ (b₂ ++ ',' :: (b₃ ++ (p'.text ++ b₄)))) ++ [']']) ++ r =
            '[' :: (b₁ ++ (p.text ++ (b₂ ++ ',' :: (b₃ ++ (p'.text ++ (b₄ ++ ']' :: r)))))) := by simp
        rw [htext]
        unfold Fields.readTuple
        rw [skipBlanks_cons (by decide)]
        simp only [List.all_cons, List.all_nil, Bool.and_true]
        exact hlisted.map fun p : (α × β × Unit) × List Char => (make p.1, p.2)

variable (n') in
/-- A list of two that breaks off behind its first element comes to an end. -/
theorem readInOrder_cut (h' : Conveyed read' b w' d') (hd' : d' ≠ .null) {p s : List Char}
    (hcut : ',' :: (w' ++ [']']) = p ++ s) (hs : s ≠ []) :
    BreaksOff ((Fields.required n' read' .nil).readInOrder 1 p) ∨
      ∃ vs, (Fields.required n' read' .nil).readInOrder 1 p = .ok (vs, []) := by
  rcases List.cons_eq_append_iff.1 hcut with ⟨rfl, -⟩ | ⟨p, rfl, helement⟩
  · exact .inl ⟨.list, rfl⟩
  by_cases hp : p = []
  · exact .inl ⟨.value, by rw [hp]; rfl⟩
  have hnext : nextElement false (',' :: p) = .ok (some p) := by
    simpa using nextElement_comma blanks_nil blanks_nil ((h'.laid.opens hd').of_cut helement hp) []
  rcases cut_append helement with ⟨s', hs', hwrite⟩ | ⟨p', rfl, hbracket⟩
  · rcases h'.stops hwrite hs' with ⟨what, hended⟩ | ⟨-, b', hok⟩
    · exact .inl ⟨what, readInOrder_error 1 rfl hnext hended⟩
    · exact .inr ⟨(b', ()), readInOrder_ok 1 rfl hnext hok⟩
  · rcases List.append_eq_singleton_iff.1 hbracket.symm with ⟨rfl, -⟩ | ⟨-, rfl⟩
    · exact .inr ⟨(b, ()), readInOrder_ok 1 rfl hnext (h'.reads [] ends_nil)⟩
    · exact absurd rfl hs

theorem listed_cut (h : Conveyed read a w d) (h' : Conveyed read' b w' d') (hd : d ≠ .null) (hd' : d' ≠ .null)
    {p s : List Char} (hcut : w ++ ',' :: (w' ++ [']']) = p ++ s) (hs : s ≠ []) :
    BreaksOff ((pair n n' read read').readListed p) := by
  by_cases hp : p = []
  · exact ⟨.list, by rw [hp]; rfl⟩
  have hnext : nextElement true p = .ok (some p) := by
    simpa using nextElement_first blanks_nil ((h.laid.opens hd).of_cut hcut hp) []
  rw [Fields.readListed]
  rcases cut_append hcut with ⟨s', hs', hwrite⟩ | ⟨p', rfl, hbehind⟩
  · rcases h.stops hwrite hs' with ⟨what, hended⟩ | ⟨-, a', hok⟩
    · exact ⟨what, by rw [readInOrder_error 0 rfl hnext hended]; rfl⟩
    · exact ⟨.list, by rw [readInOrder_ok 0 rfl hnext hok]; rfl⟩
  · have hends : Ends p' := by
      rcases List.cons_eq_append_iff.1 hbehind with ⟨rfl, -⟩ | ⟨p', rfl, -⟩
      · exact ends_nil
      · exact ends_cons (by decide)
    rw [readInOrder_ok 0 rfl hnext (h.reads p' hends)]
    rcases readInOrder_cut n' h' hd' hbehind hs with ⟨what, hended⟩ | ⟨vs, hok⟩
    · exact ⟨what, by simp only [hended]; rfl⟩
    · exact ⟨.list, by simp only [hok]; rfl⟩

theorem pair_cut (h : Conveyed read a w d) (h' : Conveyed read' b w' d') (hd : d ≠ .null) (hd' : d' ≠ .null)
    {p s : List Char} (hcut : writeList [w, w'] = p ++ s) (hs : s ≠ []) :
    BreaksOff ((pair n n' read read').readTuple make p) := by
  have htext : writeList [w, w'] = '[' :: (w ++ ',' :: (w' ++ [']'])) := by simp [writeList, commaSeparated]
  rcases List.cons_eq_append_iff.1 (htext.symm.trans hcut) with ⟨rfl, -⟩ | ⟨p, rfl, helements⟩
  · exact ⟨.value, rfl⟩
  obtain ⟨what, hended⟩ : BreaksOff ((pair n n' read read').readListed p) := listed_cut h h' hd hd' helements hs
  refine ⟨what, ?_⟩
  unfold Fields.readTuple
  rw [skipBlanks_cons (by decide)]
  simp only [readAs, hended]
  rfl

/-- **A pair is read back from a list of two.** -/
theorem conveyed_pair (h : Conveyed read a w d) (h' : Conveyed read' b w' d') (hd : d ≠ .null) (hd' : d' ≠ .null) :
    Conveyed ((pair n n' read read').readTuple make) (make (a, b, ())) (writeList [w, w']) (.list [d, d']) where
  awaits := awaits_pair
  laid := by
    have hparts : ∀ p ∈ [(⟨d, true, w⟩ : Part), ⟨d', true, w'⟩], Lays p.document p.whole p.text := by
      simp [h.laid, h'.laid]
    exact .list hparts (series_commaSeparated Part.text fun _ _ => rfl)
  meets ht r _ := meets_pair h h' hd hd' ht r
  stops hcut hs := .inl (pair_cut h h' hd hd' hcut hs)

end Pairs

end Holarchy.Json
