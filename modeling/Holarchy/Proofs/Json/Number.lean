import Mathlib.Data.List.TakeDrop
import Holarchy.Json.Token
import Holarchy.Json.Writer
import Holarchy.Proofs.Text.Digits
/-!
# Whole numbers are read back

A numeral has no end of its own: it stops where a character stands that cannot belong to it.  `Ends` says that what
follows a value starts with such a character, as a comma, a bracket or a brace does.
-/
namespace Holarchy.Json

open Text (isDigit decimal digitChar ofDigits)

/-- A character that stands behind a value and belongs to none. -/
def isEnd (c : Char) : Bool := isBlank c || c = ',' || c = ']' || c = '\x7d'

def Ends (r : List Char) : Prop := ∀ c ∈ r.head?, isEnd c = true

theorem ends_nil : Ends [] := nofun

theorem ends_cons {c : Char} {r : List Char} (h : isEnd c = true) : Ends (c :: r) := by
  intro d hd
  cases hd
  exact h

theorem not_numeral_of_isEnd {c : Char} (h : isEnd c = true) :
    isDigit c = false ∧ c ≠ '.' ∧ c ≠ 'e' ∧ c ≠ 'E' := by
  simp only [isEnd, isBlank, Bool.or_eq_true, decide_eq_true_eq] at h
  rcases h with (((((rfl | rfl) | rfl) | rfl) | rfl) | rfl) | rfl <;> decide

theorem span_isDigit_of_head {ds r : List Char} (hd : ∀ c ∈ ds, isDigit c = true)
    (hr : ∀ c ∈ r.head?, isDigit c = false) : (ds ++ r).span isDigit = (ds, r) := by
  have ht : r.takeWhile isDigit = [] ∧ r.dropWhile isDigit = r := by
    cases r with
    | nil => exact ⟨rfl, rfl⟩
    | cons c r =>
      rw [List.takeWhile_cons, List.dropWhile_cons, hr c rfl]
      exact ⟨rfl, rfl⟩
  rw [List.span_eq_takeWhile_dropWhile, List.takeWhile_append_of_pos hd, List.dropWhile_append_of_pos hd, ht.1, ht.2,
    List.append_nil]

theorem span_isDigit {ds r : List Char} (hd : ∀ c ∈ ds, isDigit c = true) (hr : Ends r) :
    (ds ++ r).span isDigit = (ds, r) :=
  span_isDigit_of_head hd fun c hc => (not_numeral_of_isEnd (hr c hc)).1

theorem readWhole_decimal (onEnd : Fault) (n : Nat) {r : List Char} (hr : Ends r) :
    readWhole onEnd (decimal n ++ r) = .ok (decimal n, r) := by
  rcases Nat.eq_zero_or_pos n with rfl | hn
  · rw [Text.decimal_of_lt (by decide)]
    cases r with
    | nil => rfl
    | cons c r =>
      have hc := (not_numeral_of_isEnd (hr c rfl)).1
      simp [digitChar, Nat.digitChar, readWhole, hc]
  · obtain ⟨c, cs, hdec, hne, -⟩ := Text.exists_decimal_eq_cons hn
    have hspan : (decimal n ++ r).span isDigit = (decimal n, r) :=
      span_isDigit (fun _ => Text.isDigit_of_mem_decimal) hr
    rw [hdec, List.cons_append] at hspan ⊢
    unfold readWhole
    split
    · rename_i h
      exact absurd (List.cons.inj h).1 hne
    · rw [hspan]

theorem readFraction?_ends (onEnd : Fault) {r : List Char} (hr : Ends r) : readFraction? onEnd r = .ok ([], r) := by
  unfold readFraction?
  split
  · exact absurd rfl (not_numeral_of_isEnd (hr '.' rfl)).2.1
  · rfl

theorem readExponent?_ends (onEnd : Fault) {r : List Char} (hr : Ends r) : readExponent? onEnd r = .ok (none, r) := by
  unfold readExponent?
  split
  · exact absurd rfl (not_numeral_of_isEnd (hr 'e' rfl)).2.2.1
  · exact absurd rfl (not_numeral_of_isEnd (hr 'E' rfl)).2.2.2
  · rfl

theorem head_decimal (n : Nat) : ∃ c cs, decimal n = c :: cs ∧ isDigit c = true := by
  rcases Nat.eq_zero_or_pos n with rfl | hn
  · exact ⟨'0', [], by rw [Text.decimal_of_lt (by decide)]; rfl, by decide⟩
  · obtain ⟨c, cs, hdec, -, hc⟩ := Text.exists_decimal_eq_cons hn
    exact ⟨c, cs, hdec, hc⟩

theorem readNumeral_decimal (onEnd : Fault) (n : Nat) {r : List Char} (hr : Ends r) :
    readNumeral onEnd (decimal n ++ r) = .ok (⟨false, decimal n, [], none⟩, r) := by
  obtain ⟨c, cs, hdec, hc⟩ := head_decimal n
  have hw := readWhole_decimal onEnd n hr
  have hne : c ≠ '-' := by rintro rfl; cases hc
  rw [hdec, List.cons_append] at hw ⊢
  simp [readNumeral, hne, hw, readFraction?_ends onEnd hr, readExponent?_ends onEnd hr, bind, Except.bind]

theorem readNumeral_negative (onEnd : Fault) (n : Nat) {r : List Char} (hr : Ends r) :
    readNumeral onEnd ('-' :: (decimal n ++ r)) = .ok (⟨true, decimal n, [], none⟩, r) := by
  simp [readNumeral, readWhole_decimal onEnd n hr, readFraction?_ends onEnd hr, readExponent?_ends onEnd hr, bind,
    Except.bind]

theorem digitsValue_map {ds : List Nat} (h : ∀ d ∈ ds, d < 10) :
    Numeral.digitsValue (ds.map digitChar) = ofDigits 10 ds := by
  have go : ∀ (ds : List Nat) (n : Nat), (∀ d ∈ ds, d < 10) →
      (ds.map digitChar).foldl (fun n c => n * 10 + (c.toNat - '0'.toNat)) n = ds.foldl (fun n d => n * 10 + d) n := by
    intro ds
    induction ds with
    | nil => intro n _; rfl
    | cons d ds ih =>
      intro n h
      rw [List.map_cons, List.foldl_cons, List.foldl_cons, Text.toNat_digitChar (h d List.mem_cons_self)]
      exact ih _ fun e he => h e (List.mem_cons_of_mem _ he)
  exact go ds 0 h

theorem digitsValue_decimal (n : Nat) : Numeral.digitsValue (decimal n) = n := by
  rw [decimal, digitsValue_map fun d hd => Text.lt_of_mem_decimalDigits hd, Text.ofDigits_decimal]

/-- **A natural number that fits 64 bits is read back.** -/
theorem readNumber_decimal {n : Nat} (hn : n ≤ maxNatural) {r : List Char} (hr : Ends r) :
    readNumber (decimal n ++ r) = .ok (.natural n, r) := by
  simp [readNumber, readNumeral_decimal _ n hr, Numeral.number?, digitsValue_decimal, hn, bind, Except.bind]

/-- **So is a negative one that does with its sign.** -/
theorem readNumber_negative {n : Nat} (hpos : n ≠ 0) (hn : n ≤ 1 <<< 63) {r : List Char} (hr : Ends r) :
    readNumber ('-' :: (decimal n ++ r)) = .ok (.negative n, r) := by
  have hmax : n ≤ maxNatural := Nat.le_trans hn (by decide)
  have hnumber : Numeral.number? ⟨true, decimal n, [], none⟩ = some (.negative n) := by
    unfold Numeral.number?
    rw [digitsValue_decimal]
    exact if_pos ⟨rfl, rfl, hmax, fun _ => ⟨hpos, hn⟩⟩
  simp only [readNumber, readNumeral_negative _ n hr, bind, Except.bind, hnumber]

end Holarchy.Json
