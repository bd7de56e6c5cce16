import Mathlib.Algebra.GroupWithZero.Nat
import Holarchy.Proofs.Text.Digits
import Holarchy.Uuid
/-!
# Ids are read back and told apart

The written form of an id has 32 digits in five groups, 36 characters in all, and names that id and no other.  An id
that a name was digested to is none that was made of random bits: its version is odd.
-/
namespace Holarchy.Uuid

open Text (hex hexValue? fixedDigits ofDigits)

theorem length_grouped : ∀ (n : Nat) (ns : List Nat) (ds : List Char), ds.length = (n :: ns).sum →
    (grouped (n :: ns) ds).length = ds.length + ns.length
  | _, [], _, _ => rfl
  | n, n' :: ns, ds, h => by
    have hds : ds.length = n + (n' :: ns).sum := h
    have hdrop : (ds.drop n).length = (n' :: ns).sum := by simp only [List.length_drop]; omega
    have htake : (ds.take n).length = n := by simp only [List.length_take]; omega
    rw [grouped, List.length_append, List.length_cons, length_grouped n' ns _ hdrop, htake, hdrop, hds]
    · simp only [List.length_cons]; omega
    · nofun

theorem ungrouped?_grouped : ∀ (n : Nat) (ns : List Nat) (ds : List Char), ds.length = (n :: ns).sum →
    ungrouped? (n :: ns) (grouped (n :: ns) ds) = some ds
  | n, [], ds, h => by
    have hds : ds.length = n := h
    rw [grouped, ungrouped?, if_pos hds]
  | n, n' :: ns, ds, h => by
    have hds : ds.length = n + (n' :: ns).sum := h
    have hdrop : (ds.drop n).length = (n' :: ns).sum := by simp only [List.length_drop]; omega
    have htake : (ds.take n).length = n := by simp only [List.length_take]; omega
    have hgroup : grouped (n :: n' :: ns) ds = ds.take n ++ '-' :: grouped (n' :: ns) (ds.drop n) := by
      rw [grouped]; nofun
    have hrest : (ds.take n ++ '-' :: grouped (n' :: ns) (ds.drop n)).drop n = '-' :: grouped (n' :: ns) (ds.drop n) :=
      List.drop_left' htake
    have hfirst : (ds.take n ++ '-' :: grouped (n' :: ns) (ds.drop n)).take n = ds.take n := List.take_left' htake
    rw [hgroup, ungrouped?]
    · simp only [hrest, hfirst, ungrouped?_grouped n' ns _ hdrop, Option.map_some, List.take_append_drop]
    · nofun

theorem length_text (u : Uuid) : u.text.length = 36 := by
  have h : (hex 32 u.bits.toNat).length = 32 := Text.length_hex _ _
  rw [text, groups, length_grouped 8 [4, 4, 4, 12] _ h, h]
  rfl

theorem ofHex?_hex (u : Uuid) : ofHex? (hex 32 u.bits.toNat) = some u := by
  have hbits : ofDigits 16 (fixedDigits 16 32 u.bits.toNat) = u.bits.toNat := by
    rw [Text.ofDigits_fixed]
    exact Nat.mod_eq_of_lt (Nat.lt_of_lt_of_eq u.bits.isLt (by decide))
  rw [ofHex?, if_pos (Text.length_hex _ _), Text.mapM_hexValue?_hex, Option.map_some, hbits, ofNat, BitVec.ofNat_toNat,
    BitVec.setWidth_eq]

/-- **The written form of an id is read as that id.** -/
theorem ofString?_toString (u : Uuid) : ofString? u.toString = some u := by
  have hgroups : ungrouped? groups u.text = some (hex 32 u.bits.toNat) :=
    ungrouped?_grouped 8 [4, 4, 4, 12] _ (Text.length_hex _ _)
  have h32 : ¬ u.text.length = 32 := by rw [length_text]; decide
  rw [ofString?, toString, String.toList_ofList]
  unfold ofText?
  rw [if_neg h32, if_pos (length_text u), hgroups, Option.bind_eq_bind, Option.bind_some, ofHex?_hex]

/-- The bit that is set in ids of an odd version. -/
theorem getLsbD_stamped (version n : Nat) : (stamped version n).bits.getLsbD 76 = version.testBit 0 := by
  have hkeep : ((BitVec.ofNat 128 n &&& ~~~((0xf000#128 <<< 64) ||| (0xc000#128 <<< 48))).getLsbD 76) = false := by
    rw [BitVec.getLsbD_and]
    have : (~~~((0xf000#128 <<< 64) ||| (0xc000#128 <<< 48)) : BitVec 128).getLsbD 76 = false := by decide
    rw [this, Bool.and_false]
  have hvariant : (0x8000#128 <<< 48 : BitVec 128).getLsbD 76 = false := by decide
  simp only [stamped, BitVec.getLsbD_or, hkeep, hvariant, Bool.false_or, Bool.or_false]
  rw [BitVec.getLsbD_shiftLeft, BitVec.getLsbD_ofNat]
  have hshift : version * 0x1000 = version <<< 12 := by rw [Nat.shiftLeft_eq]
  simp [hshift, Nat.testBit_shiftLeft]

theorem named_ne_random (space : Uuid) (name : String) (bits : Uuid) : named space name ≠ bits.random := by
  intro h
  have hbit := congrArg (fun u => u.bits.getLsbD 76) h
  simp only [named, random, getLsbD_stamped] at hbit
  cases hbit

end Holarchy.Uuid
