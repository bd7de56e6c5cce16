import Holarchy.Text.Digits
/-!
# What digits look like

Digits in base ten and sixteen are read back one by one, and a number above zero is written without a leading zero.
-/
namespace Holarchy.Text

theorem hexValue?_digitChar {d : Nat} (h : d < 16) : hexValue? (digitChar d) = some d := by
  revert d; decide

theorem isDigit_digitChar {d : Nat} (h : d < 10) : isDigit (digitChar d) = true := by
  revert d; decide

theorem toNat_digitChar {d : Nat} (h : d < 10) : (digitChar d).toNat - '0'.toNat = d := by
  revert d; decide

theorem digitChar_ne_zero {d : Nat} (h : d < 10) (hd : 0 < d) : digitChar d ≠ '0' := by
  revert d; decide

theorem lt_of_mem_decimalDigits {n d : Nat} (h : d ∈ decimalDigits n) : d < 10 := by
  induction n using Nat.strongRecOn with
  | ind n ih =>
    rw [decimalDigits] at h
    split at h
    · simp at h; omega
    · rcases List.mem_append.1 h with h | h
      · exact ih _ (by omega) h
      · simp at h; omega

theorem isDigit_of_mem_decimal {n : Nat} {c : Char} (h : c ∈ decimal n) : isDigit c = true := by
  obtain ⟨d, hd, rfl⟩ := List.mem_map.1 h
  exact isDigit_digitChar (lt_of_mem_decimalDigits hd)

theorem decimal_of_lt {n : Nat} (h : n < 10) : decimal n = [digitChar n] := by
  rw [decimal, decimalDigits, if_pos h]; rfl

theorem decimal_of_le {n : Nat} (h : 10 ≤ n) : decimal n = decimal (n / 10) ++ [digitChar (n % 10)] := by
  rw [decimal, decimalDigits, if_neg (Nat.not_lt.2 h), List.map_append]
  rfl

/-- **What is left of a number that breaks off is a smaller number.** -/
theorem exists_decimal_of_append {n : Nat} : ∀ {p s : List Char}, decimal n = p ++ s → p ≠ [] →
    ∃ m, m ≤ n ∧ p = decimal m := by
  induction n using Nat.strongRecOn with
  | ind n ih =>
    intro p s h hp
    by_cases hs : s = []
    · refine ⟨n, Nat.le_refl n, ?_⟩
      rw [h, hs, List.append_nil]
    · rcases Nat.lt_or_ge n 10 with hn | hn
      · rw [decimal_of_lt hn] at h
        rcases List.append_eq_singleton_iff.1 h.symm with ⟨rfl, -⟩ | ⟨-, rfl⟩
        · exact absurd rfl hp
        · exact absurd rfl hs
      · rw [decimal_of_le hn] at h
        have hle : n / 10 ≤ n := Nat.div_le_self n 10
        rcases List.append_eq_append_iff.1 h with ⟨p', rfl, hlast⟩ | ⟨s', hfirst, -⟩
        · rcases List.append_eq_singleton_iff.1 hlast.symm with ⟨rfl, -⟩ | ⟨-, rfl⟩
          · exact ⟨n / 10, hle, List.append_nil _⟩
          · exact absurd rfl hs
        · obtain ⟨m, hm, rfl⟩ := ih (n / 10) (by omega) hfirst hp
          exact ⟨m, Nat.le_trans hm hle, rfl⟩

theorem exists_decimalDigits_eq_cons {n : Nat} (h : 0 < n) : ∃ d ds, decimalDigits n = d :: ds ∧ 0 < d := by
  induction n using Nat.strongRecOn with
  | ind n ih =>
    rw [decimalDigits]
    split
    · exact ⟨n, [], rfl, h⟩
    · obtain ⟨d, ds, hd, hpos⟩ := ih (n / 10) (by omega) (by omega)
      exact ⟨d, ds ++ [n % 10], by rw [hd]; rfl, hpos⟩

/-- **A number above zero starts with a digit other than zero.** -/
theorem exists_decimal_eq_cons {n : Nat} (h : 0 < n) :
    ∃ c cs, decimal n = c :: cs ∧ c ≠ '0' ∧ isDigit c = true := by
  obtain ⟨d, ds, hd, hpos⟩ := exists_decimalDigits_eq_cons h
  have hlt : d < 10 := lt_of_mem_decimalDigits (hd ▸ List.mem_cons_self)
  exact ⟨digitChar d, ds.map digitChar, by rw [decimal, hd]; rfl, digitChar_ne_zero hlt hpos, isDigit_digitChar hlt⟩

theorem length_fixedDigits (base : Nat) : ∀ places n : Nat, (fixedDigits base places n).length = places
  | 0, _ => rfl
  | places + 1, n => by rw [fixedDigits, List.length_append, length_fixedDigits base places]; rfl

theorem lt_of_mem_fixedDigits {base : Nat} (hb : 0 < base) :
    ∀ {places n d : Nat}, d ∈ fixedDigits base places n → d < base
  | 0, _, _, h => by cases h
  | places + 1, n, d, h => by
    rcases List.mem_append.1 h with h | h
    · exact lt_of_mem_fixedDigits hb h
    · rw [List.mem_singleton.1 h]; exact Nat.mod_lt _ hb

theorem length_hex (places n : Nat) : (hex places n).length = places := by
  rw [hex, List.length_map, length_fixedDigits]

/-- **Digits in base sixteen are read back, one by one.** -/
theorem mapM_hexValue?_hex (places n : Nat) : (hex places n).mapM hexValue? = some (fixedDigits 16 places n) := by
  have go : ∀ ds : List Nat, (∀ d ∈ ds, d < 16) → (ds.map digitChar).mapM hexValue? = some ds := by
    intro ds
    induction ds with
    | nil => intro _; rfl
    | cons d ds ih =>
      intro h
      rw [List.map_cons, List.mapM_cons, hexValue?_digitChar (h d List.mem_cons_self),
        ih fun e he => h e (List.mem_cons_of_mem _ he)]
      rfl
  exact go _ fun d hd => lt_of_mem_fixedDigits (by decide) hd

end Holarchy.Text
