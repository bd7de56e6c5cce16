import Holarchy.Ident
import Holarchy.Proofs.Uuid
/-!
# Ids by number

The ids that a counter gives stand in the order of their numbers, because their bytes do.  No temporary id that is drawn
is one that a key names.
-/
namespace Holarchy

namespace Digest.Sha1

theorem length_bigEndian : ∀ places n : Nat, (bigEndian places n).length = places
  | 0, _ => rfl
  | places + 1, n => by rw [bigEndian, List.length_append, length_bigEndian places]; rfl

/-- Of two byte strings of one length the lesser stays the lesser, whatever comes behind them. -/
theorem append_lt_append {xs ys : List UInt8} (h : xs < ys) (hlength : xs.length = ys.length) (zs ws : List UInt8) :
    xs ++ zs < ys ++ ws := by
  induction xs generalizing ys with
  | nil =>
    obtain rfl := List.eq_nil_of_length_eq_zero hlength.symm
    exact absurd h (List.lt_irrefl [])
  | cons x xs ih =>
    cases ys with
    | nil => cases hlength
    | cons y ys =>
      simp only [List.cons_append, List.cons_lt_cons_iff] at h ⊢
      exact h.imp_right fun ⟨hxy, hlt⟩ => ⟨hxy, ih hlt (Nat.succ.inj hlength)⟩

/-- **The bytes of numbers stand in the order of the numbers**, as far as they have places enough. -/
theorem bigEndian_lt : ∀ {places a b : Nat}, a < b → b < Nat.pow 256 places → bigEndian places a < bigEndian places b
  | 0, a, b, h, hb => by
    have : b < 1 := hb
    omega
  | places + 1, a, b, h, hb => by
    have hpow : Nat.pow 256 (places + 1) = Nat.pow 256 places * 256 := rfl
    rw [hpow] at hb
    rw [bigEndian, bigEndian]
    rcases Nat.lt_or_ge (a / 256) (b / 256) with hlt | hge
    · refine append_lt_append (bigEndian_lt hlt ?_) ?_ _ _
      · exact Nat.div_lt_of_lt_mul (Nat.mul_comm _ 256 ▸ hb)
      · rw [length_bigEndian, length_bigEndian]
    · have heq : a / 256 = b / 256 := by omega
      rw [heq]
      refine List.append_left_lt (List.cons_lt_cons_iff.2 (.inl ?_))
      rw [UInt8.lt_iff_toNat_lt, UInt8.toNat_ofNat', UInt8.toNat_ofNat']
      omega

end Digest.Sha1

namespace LocalId

open KeyOrder (before)

/-- **A later number gives a later id.** -/
theorem before_numbered {m n : UInt64} (h : m.toNat < n.toNat) : before (numbered m) (numbered n) = true :=
  decide_eq_true (Digest.Sha1.bigEndian_lt h n.toNat_lt)

theorem numbered_inj {m n : UInt64} (h : numbered m = numbered n) : m = n := by
  rcases Nat.lt_trichotomy m.toNat n.toNat with hlt | heq | hlt
  · have hbefore := before_numbered hlt
    rw [h, KeyOrder.irrefl] at hbefore
    cases hbefore
  · exact UInt64.toNat_inj.1 heq
  · have hbefore := before_numbered hlt
    rw [h, KeyOrder.irrefl] at hbefore
    cases hbefore

end LocalId

namespace TemporaryId

theorem ofKey_ne_numbered (key : String) (n : Nat) : ofKey key ≠ numbered n := by
  intro h
  have hbit := congrArg (fun id => id.uuid.bits.getLsbD 76) h
  have hodd : (ofKey key).uuid.bits.getLsbD 76 = true := Uuid.getLsbD_stamped 5 _
  have heven : (numbered n).uuid.bits.getLsbD 76 = false := by
    show (BitVec.ofNat 128 _).getLsbD 76 = false
    rw [BitVec.getLsbD_ofNat]
    have hsmall : n % (1 <<< 48) < 2 ^ 48 := Nat.mod_lt _ (by decide)
    generalize n % (1 <<< 48) = m at hsmall
    have htest : Nat.testBit (0x4000 <<< 64 + 0x8000 <<< 48 + m) 76 = false := by
      rw [Nat.testBit_eq_decide_div_mod_eq]
      have : (0x4000 <<< 64 + 0x8000 <<< 48 + m) / 2 ^ 76 = 4 := by
        have h1 : 0x4000 <<< 64 = 4 * 2 ^ 76 := by decide
        have h2 : 0x8000 <<< 48 = 2 ^ 63 := by decide
        rw [h1, h2]; omega
      rw [this]; rfl
    rw [htest, Bool.and_false]
  simp only [hodd, heven] at hbit
  cases hbit

end TemporaryId

/-- A source of fresh ids never gives one that a key names. -/
theorem IdSource.ofPresets_ne_ofKey (bits : List Uuid) (n : Nat) (key : String) :
    (ofPresets bits).stream n ≠ .ofKey key := by
  simp only [ofPresets]
  cases bits[n]? with
  | none => exact (TemporaryId.ofKey_ne_numbered key _).symm
  | some b => exact fun h => Uuid.named_ne_random _ _ b (congrArg TemporaryId.uuid h).symm

end Holarchy
