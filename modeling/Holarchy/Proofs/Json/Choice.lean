import Holarchy.Proofs.Json.ReadBack
/-!
# Choices are read back

A case without a value is its name, and one with a value an object with this as its one member.
-/
namespace Holarchy.Json

variable {α : Type}

section Choices

variable {read : Reader α} {a : α} {w : List Char} {d : Document} {cases : List (String × Case α)} {name : String}

theorem meets_memberValue (h : Conveyed read a w d) {b b' t r : List Char} {whole : Bool} (hb : Blanks b)
    (hb' : Blanks b') (ht : Lays d whole t) (hr : Ends r) :
    Meets (readMemberValue read (b ++ ':' :: (b' ++ (t ++ r)))) whole (a, r) := by
  simp only [readMemberValue, readColon_append hb]
  exact h.meets_blanks hb' ht r hr

theorem memberValue_cut (h : Conveyed read a w d) {p s : List Char} (hcut : ':' :: w = p ++ s) (hs : s ≠ []) :
    Stopped d (readMemberValue read p) := by
  rcases List.cons_eq_append_iff.1 hcut with ⟨rfl, -⟩ | ⟨p, rfl, hvalue⟩
  · exact .inl ⟨.object, rfl⟩
  · exact h.stops hvalue hs

theorem awaits_choice : Awaits (readChoice cases) where
  blanks s hb := by rw [readChoice, readChoice, skipBlanks_append hb]
  nothing := rfl

theorem readCaseName_of_quotes {q : List Char} {c : Case α} (h : cases.lookup name = some c) (hq : Quotes name q)
    (r : List Char) : readCaseName cases (q ++ r) = .ok (c, r) := by
  simp only [readCaseName, readText_of_quotes hq, h]

theorem exists_readCaseName {q : List Char} {c : Case α} (h : cases.lookup name = some c) (hq : Quotes name q)
    (r : List Char) : ∃ s, q ++ r = '"' :: s ∧ readCaseName cases ('"' :: s) = .ok (c, r) := by
  have hname := readCaseName_of_quotes h hq r
  obtain ⟨t, -, rfl⟩ := hq
  exact ⟨_, rfl, hname⟩

theorem readCaseName_cut {p s : List Char} (hcut : writeString name = p ++ s) (hs : s ≠ []) :
    BreaksOff (readCaseName cases p) := by
  obtain ⟨what, hended⟩ := readText_cut hcut hs
  exact ⟨what, by rw [readCaseName, hended]⟩

theorem readChoice_quote (s : List Char) : readChoice cases ('"' :: s) =
    match readCaseName cases ('"' :: s) with
    | .error e => .error e
    | .ok (.bare a, r) => .ok (a, r)
    | .ok (.holding _, r) => .error (.misshapen (.type .variant "a variant with a value") r false) := by
  rw [readChoice, skipBlanks_cons (by decide)]
  rfl

/-- **A case without a value is read back from its name.** -/
theorem conveyed_bare (h : cases.lookup name = some (.bare a)) :
    Conveyed (readChoice cases) a (writeString name) (.text name) where
  awaits := awaits_choice
  laid := .text (quotes_writeString name)
  meets ht r _ := by
    cases ht with
    | text hq =>
      have hname := readCaseName_of_quotes h hq r
      obtain ⟨t, -, rfl⟩ := hq
      rw [List.cons_append] at hname ⊢
      rw [readChoice_quote, hname]
      exact rfl
  stops {p s} hcut hs := by
    rcases List.cons_eq_append_iff.1 hcut with ⟨rfl, -⟩ | ⟨p, rfl, -⟩
    · exact .inl ⟨.value, rfl⟩
    · obtain ⟨what, hended⟩ : BreaksOff (readCaseName cases ('"' :: p)) := readCaseName_cut hcut hs
      rw [readChoice_quote, hended]
      exact .inl ⟨what, rfl⟩

theorem Lays.exists_members {members : List (String × Document)} {whole : Bool} {t : List Char}
    (h : Lays (.object members) whole t) :
    ∃ (parts : List (String × Part)) (t' : List Char), (∀ p ∈ parts, Lays p.2.document p.2.whole p.2.text) ∧
      (parts.map fun p => (p.1, p.2.document)).Perm members ∧ Series (fun p => IsMember (p.1, p.2.text)) parts t' ∧
      whole = (parts.all fun p => p.2.whole) ∧ t = '\x7b' :: (t' ++ ['\x7d']) := by
  cases h with
  | object hparts hperm hrow => exact ⟨_, _, hparts, hperm, hrow, rfl, rfl⟩

/-- An object with one member. -/
theorem Lays.exists_member {whole : Bool} {t : List Char} (h : Lays (.object [(name, d)]) whole t) :
    ∃ v m b b', Lays d whole v ∧ IsMember (name, v) m ∧ Blanks b ∧ Blanks b' ∧
      t = '\x7b' :: (b ++ (m ++ (b' ++ ['\x7d']))) := by
  obtain ⟨parts, t, hparts, hperm, hrow, rfl, rfl⟩ := h.exists_members
  obtain ⟨⟨name', p⟩, rfl, hp⟩ := List.map_eq_singleton_iff.1 (List.perm_singleton.1 hperm)
  obtain ⟨rfl, rfl⟩ := Prod.mk.inj hp
  cases hrow with
  | @cons b m t _ _ hb hm hrest =>
    cases hrest with
    | nil hb' =>
      have hlays := hparts _ (List.mem_singleton_self _)
      exact ⟨p.text, m, b, t, by simpa using hlays, hm, hb, hb', by simp⟩

theorem readOnlyKey_quote {b : List Char} (hb : Blanks b) (s : List Char) :
    readOnlyKey (b ++ '"' :: s) = .ok ('"' :: s) := by
  rw [readOnlyKey, skipBlanks_append_cons hb (by decide)]
  rfl

theorem readChoice_key_error {b s : List Char} {e : Fault} (hb : Blanks b)
    (hname : readCaseName cases ('"' :: s) = .error e) : readChoice cases ('\x7b' :: (b ++ '"' :: s)) = .error e := by
  rw [readChoice, skipBlanks_cons (by decide)]
  simp only [readOnlyKey_quote hb, hname]

section Held

variable {q b r : List Char} {held : Reader α} (hlookup : cases.lookup name = some (.holding held)) (hq : Quotes name q)
  (hb : Blanks b)

include hlookup hq hb

theorem readChoice_held {b' r' : List Char} (hb' : Blanks b')
    (hr : readMemberValue held r = .ok (a, b' ++ '\x7d' :: r')) :
    readChoice cases ('\x7b' :: (b ++ (q ++ r))) = .ok (a, r') := by
  obtain ⟨s, hs, hname⟩ := exists_readCaseName hlookup hq r
  rw [hs, readChoice, skipBlanks_cons (by decide)]
  have hbrace : isBlank '\x7d' = false := by decide
  simp only [readOnlyKey_quote hb, hname, Case.readHeld, hr, skipBlanks_append_cons hb' hbrace]

theorem readChoice_unclosed (hr : readMemberValue held r = .ok (a, [])) :
    readChoice cases ('\x7b' :: (b ++ (q ++ r))) = .error (.ended .object) := by
  obtain ⟨s, hs, hname⟩ := exists_readCaseName hlookup hq r
  rw [hs, readChoice, skipBlanks_cons (by decide)]
  simp only [readOnlyKey_quote hb, hname, Case.readHeld, hr, skipBlanks, List.dropWhile_nil]

theorem readChoice_held_error {e : Fault} (hr : readMemberValue held r = .error e) :
    readChoice cases ('\x7b' :: (b ++ (q ++ r))) = .error e := by
  obtain ⟨s, hs, hname⟩ := exists_readCaseName hlookup hq r
  rw [hs, readChoice, skipBlanks_cons (by decide)]
  simp only [readOnlyKey_quote hb, hname, Case.readHeld, hr]

end Held

theorem lays_writeHolding (name : String) (h : Lays d true w) :
    Lays (.object [(name, d)]) true (writeHolding name w) := by
  have hparts : ∀ p ∈ [(name, (⟨d, true, w⟩ : Part))], Lays p.2.document p.2.whole p.2.text :=
    List.forall_mem_singleton.2 h
  exact .object hparts (.refl _) (series_writeMember (fun p : String × Part => (p.1, p.2.text)) _)

theorem meets_holding (hlookup : cases.lookup name = some (.holding read)) (h : Conveyed read a w d) {whole : Bool}
    {t : List Char} (ht : Lays (.object [(name, d)]) whole t) (r : List Char) :
    Meets (readChoice cases (t ++ r)) whole (a, r) := by
  obtain ⟨v, m, b, b', hv, ⟨q, b₁, b₂, hq, hb₁, hb₂, rfl⟩, hb, hb', rfl⟩ := ht.exists_member
  have htext : '\x7b' :: (b ++ (q ++ (b₁ ++ ':' :: (b₂ ++ v)) ++ (b' ++ ['\x7d']))) ++ r =
      '\x7b' :: (b ++ (q ++ (b₁ ++ ':' :: (b₂ ++ (v ++ (b' ++ '\x7d' :: r)))))) := by simp
  rw [htext]
  have hvalue := meets_memberValue h hb₁ hb₂ hv (ends_append hb' (ends_cons (c := '\x7d') (r := r) (by decide)))
  rcases hvalue.cases with ⟨rfl, hok⟩ | ⟨rfl, m, rest, settled, hm, herror⟩
  · rw [readChoice_held hlookup hq hb hb' hok]
    exact rfl
  · rw [readChoice_held_error hlookup hq hb herror]
    exact meets_error hm rest settled _

/-- The value of a case breaks off, or the brace behind it is missing. -/
theorem held_cut (h : Conveyed read a w d) {p s : List Char} (hcut : ':' :: w ++ ['\x7d'] = p ++ s) (hs : s ≠ []) :
    BreaksOff (readMemberValue read p) ∨ ∃ a, readMemberValue read p = .ok (a, []) := by
  rcases cut_append hcut with ⟨s', hs', hw⟩ | ⟨p, rfl, hbrace⟩
  · exact (memberValue_cut h hw hs').imp_right And.right
  · rcases List.append_eq_singleton_iff.1 hbrace.symm with ⟨rfl, -⟩ | ⟨-, rfl⟩
    · exact .inr ⟨a, h.reads [] ends_nil⟩
    · exact absurd rfl hs

theorem holding_cut (hlookup : cases.lookup name = some (.holding read)) (h : Conveyed read a w d) {p s : List Char}
    (hcut : writeHolding name w = p ++ s) (hs : s ≠ []) : BreaksOff (readChoice cases p) := by
  have htext : writeHolding name w = '\x7b' :: (writeString name ++ (':' :: w ++ ['\x7d'])) := by
    simp [writeHolding, writeObject, commaSeparated, writeMember]
  rcases List.cons_eq_append_iff.1 (htext.symm.trans hcut) with ⟨rfl, -⟩ | ⟨p, rfl, hmember⟩
  · exact ⟨.value, rfl⟩
  rcases cut_append hmember with ⟨s', hs', hname⟩ | ⟨p, rfl, hvalue⟩
  · rcases List.cons_eq_append_iff.1 hname with ⟨rfl, -⟩ | ⟨p, rfl, -⟩
    · exact ⟨.value, rfl⟩
    · obtain ⟨what, hended⟩ : BreaksOff (readCaseName cases ('"' :: p)) := readCaseName_cut hname hs'
      exact ⟨what, readChoice_key_error blanks_nil hended⟩
  · have hq := quotes_writeString name
    rcases held_cut h hvalue hs with ⟨what, hended⟩ | ⟨a', hok⟩
    · exact ⟨what, readChoice_held_error hlookup hq blanks_nil hended⟩
    · exact ⟨.object, readChoice_unclosed hlookup hq blanks_nil hok⟩

/-- **A case with a value is read back from an object that has this one member.** -/
theorem conveyed_holding (hlookup : cases.lookup name = some (.holding read)) (h : Conveyed read a w d) :
    Conveyed (readChoice cases) a (writeHolding name w) (.object [(name, d)]) where
  awaits := awaits_choice
  laid := lays_writeHolding name h.laid
  meets ht r _ := meets_holding hlookup h ht r
  stops hcut hs := .inl (holding_cut hlookup h hcut hs)

end Choices

end Holarchy.Json
