import Mathlib.Data.List.Basic
import Mathlib.Data.List.Forall2
import Holarchy.Proofs.Json.Document
/-!
# Strings are read back

A string is read back from every spelling of it, and what is between double quotes is passed over if nobody wants it.
Where a written string breaks off, there the text has ended, even in the middle of an escape.
-/
namespace Holarchy.Json

open Text (hexValue? digitChar fixedDigits ofDigits)

/-! ## Spellings -/

theorem hex4_hex {n : Nat} (hn : n < 0x10000) : Hex4 n (Text.hex 4 n) := by
  refine ⟨fixedDigits 16 4 n, ?_, Text.length_fixedDigits 16 4 n, ?_⟩
  · exact List.forall₂_map_left_iff.2 (List.forall₂_same.2 fun d hd =>
      Text.hexValue?_digitChar (Text.lt_of_mem_fixedDigits (by decide) hd))
  · rw [Text.ofDigits_fixed]
    exact Nat.mod_eq_of_lt hn

/-- A character as it is written spells itself. -/
theorem Spells.escape {cs t : List Char} (h : Spells cs t) (c : Char) : Spells (c :: cs) (Json.escape c ++ t) := by
  unfold Json.escape
  split
  case h_8 hq hb _ _ _ _ _ =>
    split
    · rename_i hc
      exact .unicode (hex4_hex (Nat.lt_trans hc (by decide))) h
    · rename_i hc
      exact .plain hq hb (Nat.le_of_not_lt hc) h
  all_goals exact .short rfl h

theorem spells_escapes : ∀ cs : List Char, Spells cs (cs.flatMap escape)
  | [] => .nil
  | c :: cs => by
    rw [List.flatMap_cons]
    exact (spells_escapes cs).escape c

theorem quotes_writeString (s : String) : Quotes s (writeString s) := ⟨_, spells_escapes s.toList, rfl⟩

/-! ## Reading -/

theorem readHex4_append {n : Nat} {q : List Char} (h : Hex4 n q) (r : List Char) : readHex4 (q ++ r) = .ok (n, r) := by
  obtain ⟨ds, hq, hlength, rfl⟩ := h
  obtain ⟨i, j, k, l, rfl⟩ : ∃ i j k l, ds = [i, j, k, l] := List.length_eq_four.1 hlength
  obtain _ | ⟨hi, _ | ⟨hj, _ | ⟨hk, _ | ⟨hl, ⟨⟩⟩⟩⟩⟩ := hq
  simp only [List.cons_append, List.nil_append, readHex4, hi, hj, hk, hl]
  simp [ofDigits]

/-- No character is half of a surrogate pair. -/
theorem not_surrogate (c : Char) : isLowSurrogate c.toNat = false ∧ isHighSurrogate c.toNat = false := by
  have hvalid : c.toNat < 0xd800 ∨ 0xdfff < c.toNat ∧ c.toNat < 0x110000 := c.valid
  simp only [isLowSurrogate, isHighSurrogate, Bool.and_eq_false_iff, decide_eq_false_iff_not]
  omega

theorem readUnicode_append {c : Char} {q : List Char} (h : Hex4 c.toNat q) (r : List Char) :
    readUnicode (q ++ r) = .ok (c, r) := by
  obtain ⟨hlow, hhigh⟩ := not_surrogate c
  rw [readUnicode, readHex4_append h]
  simp [hlow, hhigh]

theorem readUnicode_pair {c : Char} {high low : Nat} {q q' : List Char} (hhigh : isHighSurrogate high = true)
    (hlow : isLowSurrogate low = true) (hc : c.toNat = 0x10000 + (high - 0xd800) * 0x400 + (low - 0xdc00))
    (hq : Hex4 high q) (hq' : Hex4 low q') (r : List Char) :
    readUnicode (q ++ '\\' :: 'u' :: (q' ++ r)) = .ok (c, r) := by
  have hfirst : isLowSurrogate high = false := by
    simp only [isHighSurrogate, isLowSurrogate, Bool.and_eq_true, Bool.and_eq_false_iff, decide_eq_true_eq,
      decide_eq_false_iff_not] at hhigh ⊢
    omega
  rw [readUnicode, readHex4_append hq]
  simp [hfirst, hhigh, readLowSurrogate, readHex4_append hq', hlow, surrogatePair, ← hc]

theorem readString_backslash {sofar s r : List Char} {c : Char} (h : readEscape s = .ok (c, r)) :
    readString sofar ('\\' :: s) = readString (c :: sofar) r := by
  rw [readString]
  split
  · rename_i h'; rw [h] at h'; cases h'
  · rename_i h'; rw [h] at h'; cases h'; rfl

theorem readString_plain {sofar r : List Char} {c : Char} (hq : c ≠ '"') (hb : c ≠ '\\') (hc : 0x20 ≤ c.toNat) :
    readString sofar (c :: r) = readString (c :: sofar) r := by
  rw [readString]
  · rw [if_neg (Nat.not_lt.2 hc)]
  · exact hq
  · exact hb

/-- **Characters are read back from their spelling.** -/
theorem readString_append {cs t : List Char} (h : Spells cs t) (x : List Char) : ∀ sofar,
    readString sofar (t ++ x) = readString (cs.reverse ++ sofar) x := by
  induction h with
  | nil => exact fun _ => rfl
  | @plain c cs t hq hb hc _ ih =>
    intro sofar
    rw [List.cons_append, readString_plain hq hb hc, ih]
    simp
  | @short c d cs t hd _ ih =>
    intro sofar
    have hne : d ≠ 'u' := by rintro rfl; cases hd
    have hescape : readEscape (d :: (t ++ x)) = .ok (c, t ++ x) := by simp [readEscape, hne, hd]
    rw [List.cons_append, List.cons_append, readString_backslash hescape, ih]
    simp
  | @unicode c cs q t hq _ ih =>
    intro sofar
    have hescape : readEscape ('u' :: (q ++ (t ++ x))) = .ok (c, t ++ x) := by simp [readEscape, readUnicode_append hq]
    simp only [List.cons_append, List.append_assoc]
    rw [readString_backslash hescape, ih]
    simp
  | @pair c high low cs q q' t hhigh hlow hc hq hq' _ ih =>
    intro sofar
    have hescape : readEscape ('u' :: (q ++ '\\' :: 'u' :: (q' ++ (t ++ x)))) = .ok (c, t ++ x) := by
      simp [readEscape, readUnicode_pair hhigh hlow hc hq hq']
    simp only [List.cons_append, List.append_assoc]
    rw [readString_backslash hescape, ih]
    simp

/-- **A text is read back from any quotation of it, whatever follows.** -/
theorem readString_of_spells {s : String} {t : List Char} (h : Spells s.toList t) (r : List Char) :
    readString [] (t ++ '"' :: r) = .ok (s, r) := by
  rw [readString_append h, readString]
  simp

/-! ## Passing over -/

theorem passString_backslash {s r : List Char} (h : passEscape s = .ok r) :
    passString ('\\' :: s) = passString r := by
  rw [passString]
  split
  · rename_i h'; rw [h] at h'; cases h'
  · rename_i h'; rw [h] at h'; cases h'; rfl

theorem passString_append {t : List Char} (h : Quotable t) (r : List Char) : passString (t ++ '"' :: r) = .ok r := by
  induction h with
  | nil => rw [List.nil_append, passString]
  | @plain c t hq hb hc _ ih =>
    rw [List.cons_append, passString]
    · rw [if_neg (Nat.not_lt.2 hc), ih]
    · exact hq
    · exact hb
  | @short d t hd _ ih =>
    have hne : d ≠ 'u' := by rintro rfl; cases hd
    rw [List.cons_append, List.cons_append, passString_backslash, ih]
    rw [passEscape, if_neg hne, if_pos hd]
  | @unicode n q t hq _ ih =>
    simp only [List.cons_append, List.append_assoc]
    rw [passString_backslash, ih]
    simp only [passEscape, readHex4_append hq]
    rfl

/-! ## Breaking off -/

/-- Where two texts in a row break off: within the first, or behind it within the second. -/
theorem cut_append {w w' p s : List Char} (h : w ++ w' = p ++ s) :
    (∃ s', s' ≠ [] ∧ w = p ++ s') ∨ ∃ p', p = w ++ p' ∧ w' = p' ++ s := by
  rcases List.append_eq_append_iff.1 h with ⟨p', hp, hw'⟩ | ⟨s', hw, hs⟩
  · exact .inr ⟨p', hp, hw'⟩
  · cases s' with
    | nil => exact .inr ⟨[], by rw [List.append_nil, hw, List.append_nil], hs.symm⟩
    | cons c s' => exact .inl ⟨c :: s', List.cons_ne_nil _ _, hw⟩

theorem utf8Size_of_hexValue? {c : Char} {d : Nat} (h : hexValue? c = some d) : c.utf8Size = 1 := by
  have hascii : c ≤ 'f' := by
    unfold hexValue? at h
    split at h
    · rename_i hc
      exact Char.le_trans hc.2 (by decide)
    · split at h
      · rename_i hc
        exact hc.2
      · split at h
        · rename_i hc
          exact Char.le_trans hc.2 (by decide)
        · cases h
  exact Char.utf8Size_eq_one_iff.2 (Nat.le_trans hascii (by decide))

/-- A numeric escape that breaks off is the end of the text, as its digits are a byte each. -/
theorem readHex4_cut {n : Nat} {p s : List Char} (h : Hex4 n (p ++ s)) (hs : s ≠ []) :
    readHex4 p = .error (.ended .string) := by
  obtain ⟨ds, hds, hlength, -⟩ := h
  have hshort : p.length < 4 := by
    have hall := hds.length_eq
    rw [hlength, List.length_append] at hall
    have := List.length_pos_iff.2 hs
    omega
  have hall := (List.forall₂_and_left _ _).1 (hds.imp fun _ _ hd => ⟨utf8Size_of_hexValue? hd, hd⟩)
  have hbytes : ∀ c ∈ p, c.utf8Size = 1 := fun c hc => hall.1 c (List.mem_append_left _ hc)
  match p, hshort with
  | [], _ => rfl
  | [a], _ | [a, b], _ | [a, b, c], _ => simp_all [readHex4, hex4Fault, byteLength]

theorem escape_cases (c : Char) :
    escape c = [c] ∨ (∃ d, escape c = ['\\', d]) ∨ ∃ n q, Hex4 n q ∧ escape c = '\\' :: 'u' :: q := by
  unfold escape
  split
  case h_8 =>
    split
    · rename_i hc
      exact .inr (.inr ⟨_, _, hex4_hex (Nat.lt_trans hc (by decide)), rfl⟩)
    · exact .inl rfl
  all_goals exact .inr (.inl ⟨_, rfl⟩)

theorem readString_backslash_error {sofar s : List Char} {e : Fault} (h : readEscape s = .error e) :
    readString sofar ('\\' :: s) = .error e := by
  rw [readString]
  split
  · rename_i h'; rw [h] at h'; cases h'; rfl
  · rename_i h'; rw [h] at h'; cases h'

/-- A character can break off only in an escape. -/
theorem readString_escape_cut {c : Char} {p s : List Char} (sofar : List Char) (h : escape c = p ++ s) (hs : s ≠ []) :
    readString sofar p = .error (.ended .string) := by
  have hstart : readString sofar [] = .error (.ended .string) := by rw [readString]
  rcases escape_cases c with hplain | ⟨d, hshort⟩ | ⟨n, q, hq, hlong⟩
  · rcases List.append_eq_singleton_iff.1 (h.symm.trans hplain) with ⟨rfl, -⟩ | ⟨-, rfl⟩
    · exact hstart
    · exact absurd rfl hs
  · rcases List.cons_eq_append_iff.1 (hshort.symm.trans h) with ⟨rfl, -⟩ | ⟨p', rfl, hp'⟩
    · exact hstart
    · rcases List.append_eq_singleton_iff.1 hp'.symm with ⟨rfl, -⟩ | ⟨-, rfl⟩
      · exact readString_backslash_error rfl
      · exact absurd rfl hs
  · rcases List.cons_eq_append_iff.1 (hlong.symm.trans h) with ⟨rfl, -⟩ | ⟨p', rfl, hp'⟩
    · exact hstart
    · rcases List.cons_eq_append_iff.1 hp' with ⟨rfl, -⟩ | ⟨p'', rfl, rfl⟩
      · exact readString_backslash_error rfl
      · refine readString_backslash_error ?_
        simp only [readEscape, if_pos, readUnicode, readHex4_cut hq hs]

theorem readString_cut : ∀ {cs p s : List Char} (sofar : List Char), cs.flatMap escape ++ ['"'] = p ++ s → s ≠ [] →
    readString sofar p = .error (.ended .string)
  | [], p, s, sofar, h, hs => by
    rw [List.flatMap_nil, List.nil_append] at h
    rcases List.append_eq_singleton_iff.1 h.symm with ⟨rfl, -⟩ | ⟨-, rfl⟩
    · rw [readString]
    · exact absurd rfl hs
  | c :: cs, p, s, sofar, h, hs => by
    rw [List.flatMap_cons, List.append_assoc] at h
    rcases cut_append h with ⟨s', hs', hescape⟩ | ⟨p', rfl, hrest⟩
    · exact readString_escape_cut sofar hescape hs'
    · have hc : readString sofar (escape c ++ p') = readString (c :: sofar) p' := by
        have hread := readString_append (Spells.nil.escape c) p' sofar
        rw [List.append_nil] at hread
        exact hread
      rw [hc]
      exact readString_cut _ hrest hs

end Holarchy.Json
