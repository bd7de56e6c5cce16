import Holarchy.Json.Skip
import Holarchy.Proofs.Json.Quotation
/-!
# Values that nobody wants are passed over

Whatever a well-formed value looks like and however deep it nests, the reader that looks for the end of it finds just
that.  `passFrom` keeps the lists and objects that it is in, so what a value does to it is the same inside of any.
-/
namespace Holarchy.Json

open Text (isDigit)

variable {b r t w : List Char} {c : Char}

/-! ## Numerals -/

/-- What does not go on with a digit. -/
def NoDigit (s : List Char) : Prop := ∀ c ∈ s.head?, isDigit c = false

theorem Ends.noDigit (h : Ends r) : NoDigit r := fun c hc => (not_numeral_of_isEnd (h c hc)).1

theorem Digits.exists_cons {ds : List Char} (h : Digits ds) : ∃ c cs, ds = c :: cs ∧ isDigit c = true := by
  obtain ⟨c, cs, rfl⟩ := List.exists_cons_of_ne_nil h.1
  exact ⟨c, cs, rfl, h.2 c List.mem_cons_self⟩

variable {sign whole fraction exponent : List Char} (onEnd : Fault)

theorem readWhole_append (h : whole = ['0'] ∨ Digits whole ∧ whole.head? ≠ some '0') (hr : NoDigit r) :
    readWhole onEnd (whole ++ r) = .ok (whole, r) := by
  rcases h with rfl | ⟨hdigits, hzero⟩
  · cases r with
    | nil => rfl
    | cons c r =>
      have hc : isDigit c = false := hr c rfl
      simp [readWhole, hc]
  · obtain ⟨c, cs, rfl, -⟩ := hdigits.exists_cons
    have hspan := span_isDigit_of_head hdigits.2 hr
    rw [List.cons_append] at hspan ⊢
    unfold readWhole
    split
    · rename_i h
      exact absurd (congrArg some (List.cons.inj h).1) hzero
    · rw [hspan]

theorem readFraction?_append (h : fraction = [] ∨ ∃ ds, Digits ds ∧ fraction = '.' :: ds) (hr : NoDigit r)
    (hpoint : r.head? ≠ some '.') : ∃ ds, readFraction? onEnd (fraction ++ r) = .ok (ds, r) := by
  rcases h with rfl | ⟨ds, hdigits, rfl⟩
  · refine ⟨[], ?_⟩
    unfold readFraction?
    split
    · rename_i h
      rw [List.nil_append] at h
      exact absurd (congrArg List.head? h) hpoint
    · rfl
  · obtain ⟨c, cs, rfl, -⟩ := hdigits.exists_cons
    refine ⟨c :: cs, ?_⟩
    rw [List.cons_append, readFraction?, span_isDigit_of_head hdigits.2 hr]

theorem readExponent_append {ds : List Char} (hsign : sign = [] ∨ sign = ['+'] ∨ sign = ['-']) (hdigits : Digits ds)
    (hr : NoDigit r) : ∃ e, readExponent onEnd (sign ++ (ds ++ r)) = .ok (e, r) := by
  have hspan := span_isDigit_of_head hdigits.2 hr
  obtain ⟨c, cs, rfl, hc⟩ := hdigits.exists_cons
  have hplus : c ≠ '+' := by rintro rfl; cases hc
  have hminus : c ≠ '-' := by rintro rfl; cases hc
  rw [List.cons_append] at hspan
  rcases hsign with rfl | rfl | rfl
  · exact ⟨(false, c :: cs), by simp [readExponent, hplus, hminus, hspan, -List.span_eq_takeWhile_dropWhile]⟩
  · exact ⟨(false, c :: cs), by simp only [readExponent, List.nil_append, List.cons_append, hspan]⟩
  · exact ⟨(true, c :: cs), by simp only [readExponent, List.nil_append, List.cons_append, hspan]⟩

theorem readExponent?_append (h : exponent = [] ∨ ∃ mark sign ds, (mark = 'e' ∨ mark = 'E') ∧
    (sign = [] ∨ sign = ['+'] ∨ sign = ['-']) ∧ Digits ds ∧ exponent = mark :: (sign ++ ds)) (hr : Ends r) :
    ∃ e, readExponent? onEnd (exponent ++ r) = .ok (e, r) := by
  rcases h with rfl | ⟨mark, sign, ds, hmark, hsign, hdigits, rfl⟩
  · exact ⟨none, readExponent?_ends onEnd hr⟩
  · obtain ⟨e, he⟩ := readExponent_append onEnd hsign hdigits hr.noDigit
    refine ⟨some e, ?_⟩
    rcases hmark with rfl | rfl <;>
      simp only [readExponent?, List.cons_append, List.append_assoc, he, Except.map]

/-- **A numeral is read to its end.** -/
theorem readNumeral_append (h : IsNumeral sign whole fraction exponent) (hr : Ends r) :
    ∃ n, readNumeral onEnd (sign ++ (whole ++ (fraction ++ (exponent ++ r)))) = .ok (n, r) := by
  -- What follows a part of a numeral is another part or the end.
  have hbehind : NoDigit (exponent ++ r) ∧ (exponent ++ r).head? ≠ some '.' := by
    rcases h.exponent with rfl | ⟨mark, sign, ds, rfl | rfl, -, -, rfl⟩
    · exact ⟨hr.noDigit, fun hpoint => (not_numeral_of_isEnd (hr '.' hpoint)).2.1 rfl⟩
    all_goals
      refine ⟨fun c hc => ?_, fun hpoint => ?_⟩
      · cases hc; decide
      · cases hpoint
  have hfollowing : NoDigit (fraction ++ (exponent ++ r)) := by
    rcases h.fraction with rfl | ⟨ds, -, rfl⟩
    · exact hbehind.1
    · intro c hc
      cases hc
      decide
  obtain ⟨ds, hfraction⟩ := readFraction?_append onEnd h.fraction hbehind.1 hbehind.2
  obtain ⟨e, hexponent⟩ := readExponent?_append onEnd h.exponent hr
  have hwhole := readWhole_append onEnd h.whole hfollowing
  rcases h.sign with rfl | rfl
  · obtain ⟨c, cs, rfl, hc⟩ : ∃ c cs, whole = c :: cs ∧ c ≠ '-' := by
      rcases h.whole with rfl | ⟨hdigits, -⟩
      · exact ⟨'0', [], rfl, by decide⟩
      · obtain ⟨c, cs, rfl, hc⟩ := hdigits.exists_cons
        exact ⟨c, cs, rfl, by rintro rfl; cases hc⟩
    refine ⟨⟨false, c :: cs, ds, e⟩, ?_⟩
    rw [List.cons_append] at hwhole
    simp [readNumeral, hc, hwhole, hfraction, hexponent, bind, Except.bind]
  · refine ⟨⟨true, whole, ds, e⟩, ?_⟩
    simp only [readNumeral, List.cons_append, List.nil_append, hwhole, hfraction, hexponent, bind, Except.bind]

theorem passNumber_append (h : IsNumeral sign whole fraction exponent) (hr : Ends r) :
    passNumber (sign ++ (whole ++ (fraction ++ (exponent ++ r)))) = .ok r := by
  obtain ⟨n, hread⟩ := readNumeral_append (.malformed .number (.before [])) h hr
  rw [passNumber, hread]
  rfl

theorem IsNumeral.head (h : IsNumeral sign whole fraction exponent) (s : List Char) :
    ∃ c cs, sign ++ (whole ++ s) = c :: cs ∧ (c = '-' ∨ isDigit c = true) := by
  rcases h.sign with rfl | rfl
  · rcases h.whole with rfl | ⟨hdigits, -⟩
    · exact ⟨'0', s, rfl, .inr (by decide)⟩
    · obtain ⟨c, cs, rfl, hc⟩ := hdigits.exists_cons
      exact ⟨c, cs ++ s, rfl, .inr hc⟩
  · exact ⟨'-', whole ++ s, rfl, .inl rfl⟩

/-! ## Values -/

namespace Enclosure

def opening : Enclosure → Char
  | .list => '['
  | .object => '\x7b'

def closing : Enclosure → Char
  | .list => ']'
  | .object => '\x7d'

/-- What comes first in a list or an object that is not empty. -/
def awaited : Enclosure → Awaited
  | .list => .value
  | .object => .key

theorem isEnd_closing (e : Enclosure) : isEnd e.closing = true := by cases e <;> decide

end Enclosure

/-- A text takes some steps to be passed over as what is awaited, with blanks in front of it and whatever it is in. -/
def Passed (awaited : Awaited) (w : List Char) (around : List Enclosure) : Prop :=
  ∃ n, n ≤ w.length ∧ ∀ b r steps, Blanks b → Ends r →
    passFrom (steps + n) awaited around (b ++ (w ++ r)) = passFrom steps .more around r

/-- The text does not look like the end of the list or object that it is in. -/
def Enclosure.Holds (e : Enclosure) (w : List Char) : Prop :=
  ∃ c cs, w = c :: cs ∧ isBlank c = false ∧ c ≠ e.closing

section Rows

variable {e : Enclosure} {around : List Enclosure} {ι : Type} {Item : ι → List Char → Prop} {is : List ι}

theorem passFrom_closing (steps : Nat) (hb : Blanks b) (r : List Char) :
    passFrom (steps + 1) .more (e :: around) (b ++ e.closing :: r) = passFrom steps .more around r := by
  cases e <;> rw [passFrom, Enclosure.closing, skipBlanks_append_cons hb (by decide)] <;> rfl

theorem passFrom_comma (steps : Nat) (hb : Blanks b) (r : List Char) :
    passFrom (steps + 1) .more (e :: around) (b ++ ',' :: r) = passFrom steps e.awaited (e :: around) r := by
  cases e <;> rw [passFrom, skipBlanks_append_cons hb (by decide)] <;> rfl

theorem passFrom_empty (steps : Nat) {b' : List Char} (hb : Blanks b) (hb' : Blanks b') (r : List Char) :
    passFrom (steps + 1) .value around (b ++ e.opening :: (b' ++ e.closing :: r)) = passFrom steps .more around r := by
  cases e <;>
    simp only [passFrom, Enclosure.opening, Enclosure.closing, skipBlanks_append_cons hb (c := '[') (by decide),
      skipBlanks_append_cons hb (c := '\x7b') (by decide), skipBlanks_append_cons hb' (c := ']') (by decide),
      skipBlanks_append_cons hb' (c := '\x7d') (by decide)]

theorem passFrom_opening (steps : Nat) {b' : List Char} (hb : Blanks b) (hb' : Blanks b') (hw : e.Holds w)
    (r : List Char) :
    passFrom (steps + 1) .value around (b ++ e.opening :: (b' ++ (w ++ r))) =
      passFrom steps e.awaited (e :: around) (w ++ r) := by
  obtain ⟨c, cs, rfl, hblank, hclosing⟩ := hw
  cases e
  all_goals
    simp only [passFrom, Enclosure.opening, List.cons_append, skipBlanks_append_cons hb' hblank,
      skipBlanks_append_cons hb (c := '[') (by decide), skipBlanks_append_cons hb (c := '\x7b') (by decide)]
    split
    · rename_i heq; cases heq
    · rename_i heq
      exact absurd (List.cons.inj heq).1 hclosing
    · rfl

/-- The rest of a list or an object is passed over, with its end. -/
theorem passed_rest (hitems : ∀ i ∈ is, ∀ w, Item i w → Passed e.awaited w (e :: around)) (h : Rest Item is t) :
    ∃ n, n ≤ t.length + 1 ∧ ∀ r steps, Ends r →
      passFrom (steps + n) .more (e :: around) (t ++ e.closing :: r) = passFrom steps .more around r := by
  induction h with
  | nil hb => exact ⟨1, Nat.le_add_left _ _, fun r steps _ => passFrom_closing steps hb r⟩
  | @cons b b' w t i is hb hb' hitem hrest ih =>
    obtain ⟨n, hn, hitem⟩ := hitems i List.mem_cons_self w hitem
    obtain ⟨m, hm, hothers⟩ := ih fun i hi => hitems i (List.mem_cons_of_mem _ hi)
    refine ⟨m + n + 1, ?_, fun r steps hr => ?_⟩
    · simp only [List.length_append, List.length_cons]
      omega
    · have hends : Ends (t ++ e.closing :: r) := hrest.ends (ends_cons e.isEnd_closing)
      rw [List.append_assoc, List.cons_append, List.append_assoc, List.append_assoc, ← Nat.add_assoc, ← Nat.add_assoc,
        passFrom_comma _ hb, hitem b' _ _ hb' hends, hothers r steps hr]

/-- **A list or an object is passed over** if what it holds is. -/
theorem passed_series (hitems : ∀ i ∈ is, ∀ w, Item i w → e.Holds w ∧ Passed e.awaited w (e :: around))
    (h : Series Item is t) : Passed .value (e.opening :: (t ++ [e.closing])) around := by
  have htext (r : List Char) : e.opening :: (t ++ [e.closing]) ++ r = e.opening :: (t ++ e.closing :: r) := by simp
  cases h with
  | nil hb' =>
    refine ⟨1, Nat.le_add_left _ _, fun b r steps hb _ => ?_⟩
    rw [htext, passFrom_empty steps hb hb']
  | @cons b' w t i is hb' hitem hrest =>
    obtain ⟨hholds, n, hn, hitem⟩ := hitems i List.mem_cons_self w hitem
    obtain ⟨m, hm, hothers⟩ :=
      passed_rest (fun i hi w hw => (hitems i (List.mem_cons_of_mem _ hi) w hw).2) hrest
    refine ⟨m + n + 1, ?_, fun b r steps hb hr => ?_⟩
    · simp only [List.length_append, List.length_cons]
      omega
    · have hends : Ends (t ++ e.closing :: r) := hrest.ends (ends_cons e.isEnd_closing)
      have hstart := hitem [] (t ++ e.closing :: r) (steps + m) nofun hends
      rw [htext, List.append_assoc, List.append_assoc, ← Nat.add_assoc, ← Nat.add_assoc,
        passFrom_opening _ hb hb' hholds]
      exact hstart.trans (hothers r steps hr)

end Rows

theorem passed_scalar {cs : List Char} {around : List Enclosure} (hblank : isBlank c = false) (hlist : c ≠ '[')
    (hobject : c ≠ '\x7b') (hscalar : ∀ r, Ends r → passScalar (c :: (cs ++ r)) = .ok r) :
    Passed .value (c :: cs) around := by
  refine ⟨1, Nat.le_add_left _ _, fun b r steps hb hr => ?_⟩
  rw [List.cons_append, passFrom, skipBlanks_append_cons hb hblank]
  split
  · rename_i heq
    exact absurd (List.cons.inj heq).1 hlist
  · rename_i heq
    exact absurd (List.cons.inj heq).1 hobject
  · rw [hscalar r hr]

theorem passed_numeral (h : IsNumeral sign whole fraction exponent) :
    Enclosure.list.Holds (sign ++ (whole ++ (fraction ++ exponent))) ∧
      ∀ around, Passed .value (sign ++ (whole ++ (fraction ++ exponent))) around := by
  obtain ⟨c, cs, hcs, hc⟩ := h.head (fraction ++ exponent)
  have hother (d : Char) (hd : d ≠ '-' ∧ isDigit d = false) : c ≠ d := by
    rintro rfl
    rcases hc with rfl | hc
    · exact hd.1 rfl
    · rw [hd.2] at hc
      cases hc
  have hblank : isBlank c = false := by
    simp [isBlank, hother ' ' (by decide), hother '\n' (by decide), hother '\t' (by decide), hother '\r' (by decide)]
  refine ⟨⟨c, cs, hcs, hblank, hother ']' (by decide)⟩, fun around => ?_⟩
  rw [hcs]
  refine passed_scalar hblank (hother '[' (by decide)) (hother '\x7b' (by decide)) fun r hr => ?_
  have hpass : passNumber (c :: (cs ++ r)) = .ok r := by
    rw [← List.cons_append, ← hcs]
    simp only [List.append_assoc]
    exact passNumber_append h hr
  unfold passScalar
  split
  · rename_i heq; cases heq
  · rename_i heq; exact absurd (List.cons.inj heq).1 (hother 'n' (by decide))
  · rename_i heq; exact absurd (List.cons.inj heq).1 (hother 't' (by decide))
  · rename_i heq; exact absurd (List.cons.inj heq).1 (hother 'f' (by decide))
  · rename_i heq; exact absurd (List.cons.inj heq).1 (hother '"' (by decide))
  · rename_i heq
    cases heq
    rw [if_pos (by simpa using hc), hpass]

theorem passed_member {around : List Enclosure} {m : List Char × List Char} (hvalue : Passed .value m.2 around)
    (h : IsLooseMember m w) : Enclosure.object.Holds w ∧ Passed .key w around := by
  obtain ⟨b, b', hname, hb, hb', rfl⟩ := h
  obtain ⟨n, hn, hvalue⟩ := hvalue
  refine ⟨⟨'"', _, rfl, by decide, by decide⟩, n + 1, ?_, fun b'' r steps hb'' hr => ?_⟩
  · simp only [List.length_cons, List.length_append]
    omega
  · have htext : '"' :: (m.1 ++ '"' :: (b ++ ':' :: (b' ++ m.2))) ++ r =
        '"' :: (m.1 ++ '"' :: (b ++ ':' :: (b' ++ (m.2 ++ r)))) := by simp
    rw [htext, ← Nat.add_assoc, passFrom, skipBlanks_append_cons hb'' (by decide)]
    simp only [passString_append hname, readColon_append hb]
    exact hvalue b' r steps hb' hr

/-- **Every well-formed value is passed over.** -/
theorem WellFormed.passed (h : WellFormed w) :
    Enclosure.list.Holds w ∧ ∀ around, Passed .value w around := by
  induction h with
  | null => exact ⟨⟨'n', _, rfl, by decide, by decide⟩, fun _ => passed_scalar (by decide) (by decide) (by decide)
      fun r _ => rfl⟩
  | boolean b =>
    cases b <;>
      exact ⟨⟨_, _, rfl, by decide, by decide⟩,
        fun _ => passed_scalar (by decide) (by decide) (by decide) fun r _ => rfl⟩
  | numeral h => exact passed_numeral h
  | @string t ht =>
    refine ⟨⟨'"', _, rfl, by decide, by decide⟩,
      fun _ => passed_scalar (by decide) (by decide) (by decide) fun r _ => ?_⟩
    rw [List.append_assoc]
    exact passString_append ht r
  | list _ hrow ih =>
    refine ⟨⟨'[', _, rfl, by decide, by decide⟩, fun around => passed_series (e := .list) (fun w hw w' hitem => ?_) hrow⟩
    subst hitem
    exact ⟨(ih _ hw).1, (ih _ hw).2 _⟩
  | object _ hrow ih =>
    exact ⟨⟨'\x7b', _, rfl, by decide, by decide⟩, fun around =>
      passed_series (e := .object) (fun m hm w hitem => passed_member ((ih m hm).2 _) hitem) hrow⟩

/-- **What has a name that nobody knows can have any value.** -/
theorem passValue_append (h : WellFormed w) (hb : Blanks b) (hr : Ends r) : passValue (b ++ (w ++ r)) = .ok r := by
  obtain ⟨n, hn, hpass⟩ := h.passed.2 []
  obtain ⟨steps, hsteps⟩ : ∃ steps, (b ++ (w ++ r)).length + 1 = (steps + 1) + n := by
    refine ⟨(b ++ (w ++ r)).length - n, ?_⟩
    simp only [List.length_append]
    omega
  rw [passValue, hsteps, hpass b r _ hb hr]
  rfl

end Holarchy.Json
