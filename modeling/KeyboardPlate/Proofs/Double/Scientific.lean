import KeyboardPlate.Double.Reading
import KeyboardPlate.Proofs.Double.Rounding

/-!
# A numeral is read as the nearest double

Small digits with a small power of ten are a product or a quotient of two doubles that are exact; others are
multiplied or divided with all their digits. Either way one rounding is all.
-/

set_option autoImplicit false

namespace KeyboardPlate.Double

open Float.Model (Format UnpackedFloat totalExponent)
open Float.Model.UnpackedFloat

/-! ## Exact doubles -/

/-- Whether a double has all its bits and is a given number. -/
def isExactly (n : Nat) : UnpackedFloat → Bool
  | .finite .positive m q _ => decide (2 ^ 52 ≤ m ∧ m * 2 ^ q.toNat = n * 2 ^ (-q).toNat)
  | _ => false

theorem exists_of_isExactly {n : Nat} {u : UnpackedFloat} (h : isExactly n u = true) :
    ∃ m q hm, u = .finite .positive m q hm ∧ 2 ^ 52 ≤ m ∧ (m : ℚ) * 2 ^ q = n := by
  cases u with
  | finite s m q hm =>
    cases s with
    | negative => cases h
    | positive =>
      obtain ⟨hle, hvalue⟩ := of_decide_eq_true h
      refine ⟨m, q, hm, rfl, hle, ?_⟩
      have hvalue : (m : ℚ) * 2 ^ q.toNat = n * 2 ^ (-q).toNat := by exact_mod_cast hvalue
      rw [zpow_eq_div, ← mul_div_assoc, hvalue, mul_div_cancel_right₀ _ (by positivity)]
  | infinity => cases h
  | notANumber => cases h
  | zero => cases h

/-- The powers of ten up to the one of 22 are doubles. -/
theorem isExactly_power : ∀ e : Fin Float.exactlyRepresentablePowersOfTen.size,
    isExactly (10 ^ e.val) Float.exactlyRepresentablePowersOfTen[e.val].toModel.unpack = true := by
  decide +kernel

theorem roundWithAccuracy_of_lt {s : Sign} {m : Nat} {e : Int} (h : 0 < m) (hle : 2 ^ 52 ≤ m) (hlt : m < 2 ^ 53)
    (he : -1074 ≤ e) : roundWithAccuracy .binary64 s m e .exact = .finite s m e h := by
  have hround : (ExtendedMantissa.mk m false false).roundedMantissa = m := rfl
  unfold roundWithAccuracy
  rw [shiftToTargetExponent_of_lt hle hlt he]
  dsimp only
  rw [hround, shiftToTargetExponent_of_lt hle hlt he]
  dsimp only
  rw [dif_neg h.ne']

/-- Whole numbers of at most 53 bits are doubles. -/
theorem isExactly_toFloat {m : Nat} (hm : 0 < m) (hlt : m < 2 ^ 53) :
    isExactly m m.toUInt64.toFloat.toModel.unpack = true := by
  have htoNat : m.toUInt64.toNat = m := UInt64.toNat_ofNat_of_lt' (by change m < 2 ^ 64; omega)
  have hlog : m.log2 ≤ 52 := Nat.lt_succ_iff.mp ((Nat.log2_lt hm.ne').mpr hlt)
  obtain ⟨k, hk⟩ : ∃ k, m.log2 + k = 52 := ⟨52 - m.log2, by omega⟩
  have hle : 2 ^ 52 ≤ m <<< k := by
    rw [Nat.shiftLeft_eq, ← hk, Nat.pow_add]
    exact Nat.mul_le_mul_right _ (Nat.log2_self_le hm.ne')
  have hlt : m <<< k < 2 ^ 53 := by
    rw [Nat.shiftLeft_eq, ← show m.log2 + 1 + k = 53 by omega, Nat.pow_add]
    exact Nat.mul_lt_mul_of_pos_right Nat.lt_log2_self (Nat.two_pow_pos k)
  have htarget : Format.binary64.targetExponent (totalExponent m 0) = -k := by
    rw [targetExponent_eq, totalExponent]
    omega
  have hround : ofUInt64 .binary64 m.toUInt64 = .finite .positive (m <<< k) (-k) (by omega) := by
    unfold ofUInt64 ofNat ofInt UnpackedFloat.normalize
    rw [htoNat, Int.compare_eq_gt.mpr (by omega)]
    dsimp only
    unfold UnpackedFloat.round
    rw [Int.toNat_natCast, htarget]
    unfold decreaseExponent
    dsimp only
    rw [show (0 - -(k : Int)).toNat = k by omega, show (0 : Int) - k = -k by omega]
    exact roundWithAccuracy_of_lt _ hle hlt (by omega)
  have hunpack : m.toUInt64.toFloat.toModel.unpack = .finite .positive (m <<< k) (-k) (by omega) := by
    change unpack .binary64 (pack .binary64 (ofUInt64 .binary64 m.toUInt64)) = _
    rw [hround]
    exact unpack_pack hle hlt (by omega) (by omega)
  rw [hunpack]
  refine decide_eq_true ⟨hle, ?_⟩
  rw [Nat.shiftLeft_eq, show (-(k : Int)).toNat = 0 by omega, show (- -(k : Int)).toNat = k by omega, Nat.pow_zero,
    Nat.mul_one]

/-! ## Numerals -/

section
variable {m : Nat} {e : Int} {v : ℚ} (hm : 0 < m) (hv : v = m * 10 ^ e) (hlow : (2 : ℚ) ^ (-1000 : Int) ≤ v)
  (hhigh : v < 2 ^ (1000 : Int))
include hm hv hlow hhigh

/-- The size of a numeral by its digits and its power of ten, of which every place is worth three bits. -/
theorem size_bounds : (0 ≤ e → (m.log2 : Int) + 3 * e < 1000) ∧ (e ≤ 0 → -1000 < (m.log2 : Int) + 1 + 3 * e) := by
  have height : ∀ e : Int, (2 : ℚ) ^ (3 * e) = 8 ^ e := fun e => by
    rw [zpow_mul]
    norm_num
  have hfirst : ((2 ^ m.log2 : Nat) : ℚ) ≤ m := by exact_mod_cast Nat.log2_self_le hm.ne'
  have hnext : (m : ℚ) < (2 ^ (m.log2 + 1) : Nat) := by exact_mod_cast Nat.lt_log2_self
  push_cast at hfirst hnext
  constructor
  · intro he
    refine (zpow_lt_zpow_iff_right₀ (by norm_num : (1 : ℚ) < 2)).mp (lt_of_le_of_lt ?_ hhigh)
    rw [zpow_add₀ (by norm_num), zpow_natCast, height, hv]
    have hten : (8 : ℚ) ^ e ≤ 10 ^ e := zpow_le_zpow_left₀ he (by norm_num) (by norm_num)
    exact mul_le_mul hfirst hten (by positivity) (by positivity)
  · intro he
    refine (zpow_lt_zpow_iff_right₀ (by norm_num : (1 : ℚ) < 2)).mp (lt_of_le_of_lt hlow ?_)
    rw [zpow_add₀ (by norm_num), ← Nat.cast_add_one, zpow_natCast, height, hv]
    obtain ⟨k, rfl⟩ : ∃ k : Nat, e = -k := ⟨(-e).toNat, by omega⟩
    have hten : (10 : ℚ) ^ (-(k : Int)) ≤ 8 ^ (-(k : Int)) := by
      rw [zpow_neg, zpow_neg, zpow_natCast, zpow_natCast]
      exact inv_anti₀ (by positivity) (pow_le_pow_left₀ (by norm_num) (by norm_num) k)
    calc (m : ℚ) * 10 ^ (-(k : Int))
      _ < 2 ^ (m.log2 + 1) * 10 ^ (-(k : Int)) := mul_lt_mul_of_pos_right hnext (ten_zpow_pos _)
      _ ≤ 2 ^ (m.log2 + 1) * 8 ^ (-(k : Int)) := mul_le_mul_of_nonneg_left hten (by positivity)

/-- All digits and all places are multiplied or divided at once. -/
theorem nearest_ofScientific : Nearest .positive (UnpackedFloat.ofScientific .binary64 m e) v := by
  obtain ⟨hup, hdown⟩ := size_bounds hm hv hlow hhigh
  unfold UnpackedFloat.ofScientific
  rw [dif_neg hm.ne', if_neg (by change ¬ e > 2048; omega), if_neg (by change ¬ e < -(2048 + (m.log2 : Int)); omega)]
  by_cases he : 0 ≤ e
  · rw [if_pos he]
    obtain ⟨k, rfl⟩ := Int.eq_ofNat_of_zero_le he
    have hbits : 2 ^ 52 ≤ m <<< 53 * 10 ^ k := by
      rw [Nat.shiftLeft_eq]
      calc 2 ^ 52
        _ ≤ 1 * 2 ^ 53 * 1 := by norm_num
        _ ≤ m * 2 ^ 53 * 10 ^ k := Nat.mul_le_mul (Nat.mul_le_mul_right _ hm) (Nat.pow_pos (by decide))
    refine nearest_mul _ _ hlow hhigh hbits ?_
    change v = ((m <<< 53 : Nat) : ℚ) * (10 ^ k : Nat) * 2 ^ (-53 + 0 : Int)
    rw [hv, Nat.shiftLeft_eq, zpow_natCast]
    push_cast
    norm_num
    ring
  · rw [if_neg he]
    obtain ⟨k, rfl⟩ : ∃ k : Nat, e = -k := ⟨(-e).toNat, by omega⟩
    refine nearest_div _ _ hlow hhigh ?_
    rw [hv, zpow_neg, zpow_natCast, Int.sub_self, zpow_zero, mul_one, neg_neg, Int.toNat_natCast, div_eq_mul_inv]
    push_cast
    rfl

/-- The reader gives the nearest double. -/
theorem exists_ofScientific : ∃ u, Double.ofScientific m e = .ofModel (.pack u) ∧ Nearest .positive u v := by
  obtain ⟨hup, hdown⟩ := size_bounds hm hv hlow hhigh
  unfold Double.ofScientific
  rw [if_neg hm.ne']
  dsimp only
  rw [if_neg (by omega), if_neg (by omega)]
  unfold Float.ofScientific
  split
  · rename_i hsmall
    obtain ⟨m', q, hm', hm'', hmle, hmvalue⟩ := exists_of_isExactly (isExactly_toFloat hm hsmall.1)
    obtain ⟨n, r, hn, hn', hnle, hnvalue⟩ := exists_of_isExactly (isExactly_power ⟨e.natAbs, Nat.lt_succ_of_le hsmall.2⟩)
    have hpow : ∀ f : Int, (e.natAbs : Int) = f → ((10 ^ e.natAbs : Nat) : ℚ) = 10 ^ f := by
      rintro f rfl
      rw [zpow_natCast, Nat.cast_pow, Nat.cast_ofNat]
    dsimp only at hnvalue ⊢
    split
    · rename_i hneg
      have hneg := of_decide_eq_true hneg
      refine ⟨_, rfl, ?_⟩
      rw [hm'', hn']
      refine nearest_div hm' hn hlow hhigh ?_
      rw [hv, zpow_sub₀ (by norm_num), ← mul_div_mul_comm, hmvalue, hnvalue, hpow (-e) (by omega), zpow_neg, div_inv_eq_mul]
    · rename_i hpos
      rw [decide_eq_true_iff] at hpos
      refine ⟨_, rfl, ?_⟩
      rw [hm'', hn']
      refine nearest_mul hm' hn hlow hhigh (hmle.trans (Nat.le_mul_of_pos_right _ hn)) ?_
      rw [hv, zpow_add₀ (by norm_num), mul_mul_mul_comm, hmvalue, hnvalue, hpow e (by omega)]
  · have hpower : (if decide (e < 0) = true then Int.negOfNat e.natAbs else Int.ofNat e.natAbs) = e := by
      split
      · rename_i hneg
        have hneg := of_decide_eq_true hneg
        rw [Int.negOfNat_eq]
        change -(e.natAbs : Int) = e
        omega
      · rename_i hpos
        rw [decide_eq_true_iff] at hpos
        change (e.natAbs : Int) = e
        omega
    dsimp only
    rw [hpower]
    exact ⟨_, rfl, nearest_ofScientific hm hv hlow hhigh⟩

end

end KeyboardPlate.Double
