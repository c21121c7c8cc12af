import KeyboardPlate.Proofs.Double.Shortest

/-!
# Products and quotients are the nearest doubles

A mantissa is shifted to its place with two more bits, one for the first place cut off and one for all the
others. These tell on which side of the middle between two mantissas the number lies. So rounding gives a
double whose interval the number lies in.
-/

set_option autoImplicit false

namespace KeyboardPlate.Double

open Float.Model (Format UnpackedFloat totalExponent)
open Float.Model.UnpackedFloat

/-! ## Mantissas with two more bits -/

/-- What a mantissa and its two bits say of a number: twice the number is `2 * m + r`, or something between
that and the next whole number. -/
def Approximates (em : ExtendedMantissa) (x : ℚ) : Prop :=
  if em.stickyBit then
    ((2 * em.mantissa + em.roundBit.toNat : Nat) : ℚ) < 2 * x ∧ 2 * x < (2 * em.mantissa + em.roundBit.toNat + 1 : Nat)
  else 2 * x = (2 * em.mantissa + em.roundBit.toNat : Nat)

namespace Approximates
variable {em : ExtendedMantissa} {x : ℚ}

theorem exact (m : Nat) : Approximates (.ofMantissaAndAccuracy m .exact) m := by
  change 2 * (m : ℚ) = (2 * m + 0 : Nat)
  push_cast
  ring

/-- A quotient, known by its whole part and by what the rest is to the divisor. -/
theorem quotient (n : Nat) {d : Nat} (hd : 0 < d) :
    Approximates (.ofMantissaAndAccuracy (n / d) (accuracyOfFraction (n % d) d)) (n / d) := by
  have hd' : (0 : ℚ) < d := Nat.cast_pos.mpr hd
  have hlt := Nat.mod_lt n hd
  have hsplit : 2 * ((n : ℚ) / d) = (2 * (n / d) : Nat) + (2 * (n % d) : Nat) / d := by
    have hdiv : (n : ℚ) = d * (n / d : Nat) + (n % d : Nat) := by exact_mod_cast (Nat.div_add_mod n d).symm
    rw [eq_comm]
    calc ((2 * (n / d) : Nat) : ℚ) + (2 * (n % d) : Nat) / d
      _ = 2 * ((d * (n / d : Nat) + (n % d : Nat)) / d) := by
        push_cast
        field_simp
      _ = 2 * (n / d) := by rw [← hdiv]
  unfold accuracyOfFraction
  split
  · rename_i hzero
    rw [hzero, Nat.mul_zero, Nat.cast_zero, zero_div, add_zero] at hsplit
    exact hsplit
  rename_i hrest
  have hpos : (0 : ℚ) < (2 * (n % d) : Nat) / d := div_pos (by exact_mod_cast (by omega : 0 < 2 * (n % d))) hd'
  have htwo : ((2 * (n % d) : Nat) : ℚ) / d < 2 := by
    rw [div_lt_iff₀ hd']
    exact_mod_cast (by omega : 2 * (n % d) < 2 * d)
  rcases Nat.lt_trichotomy (2 * (n % d)) d with h | h | h
  · rw [Nat.compare_eq_lt.mpr h]
    have hone : ((2 * (n % d) : Nat) : ℚ) / d < 1 := by
      rw [div_lt_one hd']
      exact_mod_cast h
    change ((2 * (n / d) + 0 : Nat) : ℚ) < _ ∧ _ < ((2 * (n / d) + 0 + 1 : Nat) : ℚ)
    rw [hsplit]
    push_cast at hpos hone ⊢
    constructor <;> linarith
  · rw [Nat.compare_eq_eq.mpr h]
    rw [h, div_self hd'.ne'] at hsplit
    change _ = ((2 * (n / d) + 1 : Nat) : ℚ)
    rw [hsplit]
    push_cast
    ring
  · rw [Nat.compare_eq_gt.mpr h]
    have hone : (1 : ℚ) < ((2 * (n % d) : Nat) : ℚ) / d := by
      rw [one_lt_div hd']
      exact_mod_cast h
    change ((2 * (n / d) + 1 : Nat) : ℚ) < _ ∧ _ < ((2 * (n / d) + 1 + 1 : Nat) : ℚ)
    rw [hsplit]
    push_cast at htwo hone ⊢
    constructor <;> linarith

theorem shiftRightOne (h : Approximates em x) : Approximates em.shiftRightOne (x / 2) := by
  obtain ⟨m, r, s⟩ := em
  have hbit : 2 * (m / 2) + (m % 2 != 0).toNat = m := by
    rcases Nat.mod_two_eq_zero_or_one m with hm | hm
    · rw [hm]
      change 2 * (m / 2) + 0 = m
      omega
    · rw [hm]
      change 2 * (m / 2) + 1 = m
      omega
  unfold Approximates ExtendedMantissa.shiftRightOne
  dsimp only
  rw [hbit, mul_div_cancel₀ x (by norm_num : (2 : ℚ) ≠ 0)]
  unfold Approximates at h
  dsimp only at h
  cases s with
  | true =>
    rw [if_pos rfl] at h
    rw [Bool.or_true, if_pos rfl]
    have hr : r.toNat ≤ 1 := Bool.toNat_le r
    have hr' : ((2 * m + r.toNat + 1 : Nat) : ℚ) ≤ (2 * m + 2 : Nat) := by exact_mod_cast (by omega)
    push_cast at h hr' ⊢
    constructor <;> linarith
  | false =>
    rw [if_neg (by decide)] at h
    rw [Bool.or_false]
    cases r with
    | true =>
      rw [if_pos rfl]
      change 2 * x = (2 * m + 1 : Nat) at h
      push_cast at h ⊢
      constructor <;> linarith
    | false =>
      rw [if_neg (by decide)]
      change 2 * x = (2 * m + 0 : Nat) at h
      push_cast at h
      linarith

theorem shiftRight (h : Approximates em x) (n : Nat) : Approximates (em >>> n) (x / 2 ^ n) := by
  induction n with
  | zero =>
    rw [pow_zero, div_one]
    exact h
  | succ n ih =>
    rw [pow_succ, ← div_div]
    exact ih.shiftRightOne

/-- The mantissa is the whole part. -/
theorem floor (h : Approximates em x) : (em.mantissa : ℚ) ≤ x ∧ x < em.mantissa + 1 := by
  have hr : ((em.roundBit.toNat : Nat) : ℚ) ≤ 1 := by exact_mod_cast Bool.toNat_le em.roundBit
  have hr' : (0 : ℚ) ≤ (em.roundBit.toNat : Nat) := Nat.cast_nonneg _
  unfold Approximates at h
  split at h
  · push_cast at h
    constructor <;> linarith
  · push_cast at h
    constructor <;> linarith

/-- Rounding gives the mantissa or the next one, and of two equally near the even one. -/
theorem rounded (h : Approximates em x) : em.mantissa ≤ em.roundedMantissa ∧ em.roundedMantissa ≤ em.mantissa + 1 ∧
    2 * em.roundedMantissa - 1 ≤ 2 * x ∧ 2 * x ≤ 2 * em.roundedMantissa + 1 ∧
    (em.roundedMantissa % 2 = 1 → 2 * em.roundedMantissa - 1 < 2 * x ∧ 2 * x < 2 * em.roundedMantissa + 1) := by
  obtain ⟨m, r, s⟩ := em
  cases r with
  | false =>
    have hround : (ExtendedMantissa.mk m false s).roundedMantissa = m := by cases s <;> rfl
    have hx : 2 * (m : ℚ) ≤ 2 * x ∧ 2 * x < 2 * m + 1 := by
      cases s with
      | true =>
        have h : ((2 * m + 0 : Nat) : ℚ) < 2 * x ∧ 2 * x < (2 * m + 0 + 1 : Nat) := h
        push_cast at h
        constructor <;> linarith
      | false =>
        have h : 2 * x = (2 * m + 0 : Nat) := h
        push_cast at h
        constructor <;> linarith
    rw [hround]
    exact ⟨Nat.le_refl m, Nat.le_succ m, by linarith, by linarith, fun _ => ⟨by linarith, by linarith⟩⟩
  | true =>
    cases s with
    | true =>
      have h : ((2 * m + 1 : Nat) : ℚ) < 2 * x ∧ 2 * x < (2 * m + 1 + 1 : Nat) := h
      change m ≤ m + 1 ∧ m + 1 ≤ m + 1 ∧ 2 * ((m + 1 : Nat) : ℚ) - 1 ≤ 2 * x ∧ 2 * x ≤ 2 * ((m + 1 : Nat) : ℚ) + 1 ∧
        ((m + 1) % 2 = 1 → 2 * ((m + 1 : Nat) : ℚ) - 1 < 2 * x ∧ 2 * x < 2 * ((m + 1 : Nat) : ℚ) + 1)
      push_cast at h ⊢
      exact ⟨Nat.le_succ m, Nat.le_refl _, by linarith, by linarith, fun _ => ⟨by linarith, by linarith⟩⟩
    | false =>
      have h : 2 * x = (2 * m + 1 : Nat) := h
      change m ≤ m + m % 2 ∧ m + m % 2 ≤ m + 1 ∧ 2 * ((m + m % 2 : Nat) : ℚ) - 1 ≤ 2 * x ∧
        2 * x ≤ 2 * ((m + m % 2 : Nat) : ℚ) + 1 ∧ ((m + m % 2) % 2 = 1 → _)
      have heven : (m + m % 2) % 2 ≠ 1 := by omega
      rw [h]
      refine ⟨by omega, by omega, ?_, ?_, fun hodd => absurd hodd heven⟩
      · rw [sub_le_iff_le_add]
        exact_mod_cast (by omega : 2 * (m + m % 2) ≤ 2 * m + 1 + 1)
      · exact_mod_cast (by omega : 2 * m + 1 ≤ 2 * (m + m % 2) + 1)

end Approximates

/-! ## Rounding -/

/-- A mantissa of all bits that a number rounds to. Below the first mantissa with its power of two, the middle
to the next double is half as far away. -/
structure RoundsTo (m : Nat) (y : ℚ) : Prop where
  le : 2 ^ 52 ≤ m
  lt : m < 2 ^ 53
  lower : ((4 * m - if m = 2 ^ 52 then 1 else 2 : Nat) : ℚ) ≤ 4 * y
  upper : 4 * y ≤ (4 * m + 2 : Nat)
  strict : m % 2 = 1 → ((4 * m - 2 : Nat) : ℚ) < 4 * y ∧ 4 * y < (4 * m + 2 : Nat)

namespace Approximates
variable {em : ExtendedMantissa} {y : ℚ}

/-- A number between two powers of two does not round beyond them. -/
theorem roundedMantissa_bounds (h : Approximates em y) (hy : 2 ^ 52 ≤ y) (hy' : y < 2 ^ 53) :
    2 ^ 52 ≤ em.roundedMantissa ∧ em.roundedMantissa ≤ 2 ^ 53 := by
  obtain ⟨hle, hle', -⟩ := h.rounded
  have hlt : ((2 ^ 52 : Nat) : ℚ) < (em.mantissa + 1 : Nat) := by
    push_cast
    exact hy.trans_lt h.floor.2
  have hlt' : (em.mantissa : ℚ) < (2 ^ 53 : Nat) := by
    push_cast
    exact h.floor.1.trans_lt hy'
  have hmantissa := Nat.cast_lt.mp hlt
  have hmantissa' := Nat.cast_lt.mp hlt'
  omega

theorem roundsTo (h : Approximates em y) (hy : 2 ^ 52 ≤ y) (hle : 2 ^ 52 ≤ em.roundedMantissa)
    (hlt : em.roundedMantissa < 2 ^ 53) : RoundsTo em.roundedMantissa y := by
  obtain ⟨-, -, hlower, hupper, hstrict⟩ := h.rounded
  refine ⟨hle, hlt, ?_, ?_, fun hodd => ?_⟩
  · split
    · -- the number is not below the first mantissa
      rename_i hfirst
      rw [hfirst]
      norm_num at hy ⊢
      linarith
    · rw [Nat.cast_sub (by omega)]
      push_cast
      linarith
  · push_cast
    linarith
  · obtain ⟨hlower, hupper⟩ := hstrict hodd
    rw [Nat.cast_sub (by omega)]
    push_cast
    constructor <;> linarith

/-- What rounds up to a power of two is less than half a unit below its first mantissa. -/
theorem roundsTo_carry (h : Approximates em y) (hround : em.roundedMantissa = 2 ^ 53) (hy : y < 2 ^ 53) :
    RoundsTo (2 ^ 52) (y / 2) := by
  obtain ⟨-, -, hlower, -, -⟩ := h.rounded
  rw [hround] at hlower
  push_cast at hlower
  refine ⟨le_refl _, by norm_num, ?_, ?_, fun hodd => ?_⟩
  · rw [if_pos rfl]
    norm_num at hlower ⊢
    linarith
  · norm_num at hy ⊢
    linarith
  · norm_num at hodd

end Approximates

theorem mantissa_ofMantissaAndAccuracy (m : Nat) (a : Accuracy) :
    (ExtendedMantissa.ofMantissaAndAccuracy m a).mantissa = m := by
  cases a with
  | exact => rfl
  | inexact o => cases o <;> rfl

theorem targetExponent_eq (t : Int) : Format.binary64.targetExponent t = max (t - 53) (-1074) := rfl

theorem log2_eq {m : Nat} (hle : 2 ^ 52 ≤ m) (hlt : m < 2 ^ 53) : m.log2 = 52 :=
  (Nat.log2_eq_iff (by omega)).mpr ⟨hle, hlt⟩

/-- A mantissa of all bits stays where it is. -/
theorem shiftToTargetExponent_of_lt {m : Nat} {e : Int} (hle : 2 ^ 52 ≤ m) (hlt : m < 2 ^ 53) (he : -1074 ≤ e) :
    shiftToTargetExponent .binary64 m e .exact = (⟨m, false, false⟩, e) := by
  have htarget : Format.binary64.targetExponent (totalExponent m e) = e := by
    rw [targetExponent_eq, totalExponent, log2_eq hle hlt]
    omega
  rw [shiftToTargetExponent, htarget, shiftToExponent, Int.sub_self]
  exact congrArg _ (Int.add_zero e)

/-- A mantissa that rounding has made one bit too long moves by that bit. -/
theorem shiftToTargetExponent_carry {e : Int} (he : -1074 ≤ e) :
    shiftToTargetExponent .binary64 (2 ^ 53) e .exact = (⟨2 ^ 52, false, false⟩, e + 1) := by
  have htarget : Format.binary64.targetExponent (totalExponent (2 ^ 53) e) = e + 1 := by
    rw [targetExponent_eq, totalExponent, Nat.log2_two_pow]
    omega
  have hone : (e + 1 - e).toNat = 1 := by omega
  rw [shiftToTargetExponent, htarget, shiftToExponent, hone]
  rfl

/-- A double with all its bits, of the given sign, next to a number. -/
def Nearest (s : Sign) (u : UnpackedFloat) (v : ℚ) : Prop :=
  ∃ m q h y, u = .finite s m q h ∧ v = y * 2 ^ q ∧ -1074 ≤ q ∧ q ≤ 971 ∧ RoundsTo m y

section
variable {m : Nat} {e : Int} {a : Accuracy} {x : ℚ}

/-- Where the first bit of a number is. -/
theorem two_zpow_log2_le (hm : 0 < m) (hx : (m : ℚ) ≤ x) (hx' : x < m + 1) :
    (2 : ℚ) ^ (m.log2 + e) ≤ x * 2 ^ e ∧ x * 2 ^ e < 2 ^ (m.log2 + 1 + e) := by
  have hpow := two_zpow_pos e
  have hfirst : ((2 ^ m.log2 : Nat) : ℚ) ≤ m := by exact_mod_cast Nat.log2_self_le hm.ne'
  have hnext : (m : ℚ) + 1 ≤ (2 ^ (m.log2 + 1) : Nat) := by exact_mod_cast Nat.lt_log2_self
  rw [zpow_add₀ (by norm_num), zpow_add₀ (by norm_num), zpow_natCast, ← Nat.cast_add_one, zpow_natCast]
  push_cast at hfirst hnext
  exact ⟨mul_le_mul_of_nonneg_right (hfirst.trans hx) hpow.le, mul_lt_mul_of_pos_right (hx'.trans_le hnext) hpow⟩

/-- A mantissa of at least all bits is shifted to all bits. -/
theorem exists_shiftToTargetExponent (h : Approximates (.ofMantissaAndAccuracy m a) x) (hm : 2 ^ 52 ≤ m)
    (hlow : (2 : ℚ) ^ (-1000 : Int) ≤ x * 2 ^ e) (hhigh : x * 2 ^ e < 2 ^ (1000 : Int)) :
    ∃ em q y, shiftToTargetExponent .binary64 m e a = (em, q) ∧ Approximates em y ∧ x * 2 ^ e = y * 2 ^ q ∧
      2 ^ 52 ≤ y ∧ y < 2 ^ 53 ∧ -1074 ≤ q ∧ q ≤ 970 := by
  have hfloor := h.floor
  rw [mantissa_ofMantissaAndAccuracy] at hfloor
  obtain ⟨hfirst, hfirst'⟩ := @two_zpow_log2_le m e x (by omega) hfloor.1 hfloor.2
  have hhigh : (m.log2 : Int) + e < 1000 :=
    (zpow_lt_zpow_iff_right₀ (by norm_num : (1 : ℚ) < 2)).mp (hfirst.trans_lt hhigh)
  have hlow : -1000 < (m.log2 : Int) + 1 + e :=
    (zpow_lt_zpow_iff_right₀ (by norm_num : (1 : ℚ) < 2)).mp (hlow.trans_lt hfirst')
  have hlog : 52 ≤ m.log2 := (Nat.le_log2 (by omega)).mpr hm
  obtain ⟨k, hk⟩ : ∃ k, m.log2 = 52 + k := ⟨m.log2 - 52, by omega⟩
  have hshift : shiftToTargetExponent .binary64 m e a = (ExtendedMantissa.ofMantissaAndAccuracy m a >>> k, e + k) := by
    have htarget : Format.binary64.targetExponent (totalExponent m e) = e + k := by
      rw [targetExponent_eq, totalExponent, hk]
      omega
    have hcount : (e + k - e).toNat = k := by omega
    rw [shiftToTargetExponent, htarget, shiftToExponent, hcount]
  have hvalue : x * 2 ^ e = x / 2 ^ k * 2 ^ (e + k) := by
    rw [zpow_add₀ (by norm_num), zpow_natCast]
    field_simp
  rw [hvalue] at hfirst hfirst'
  refine ⟨_, _, _, hshift, h.shiftRight k, hvalue, ?_, ?_, by omega, by omega⟩
  · refine le_of_mul_le_mul_right ?_ (two_zpow_pos (e + k))
    rw [← zpow_natCast (2 : ℚ) 52, ← zpow_add₀ (by norm_num)]
    refine le_trans (zpow_le_zpow_right₀ (by norm_num) ?_) hfirst
    omega
  · refine lt_of_mul_lt_mul_right ?_ (two_zpow_pos (e + k)).le
    rw [← zpow_natCast (2 : ℚ) 53, ← zpow_add₀ (by norm_num)]
    refine lt_of_lt_of_le hfirst' (zpow_le_zpow_right₀ (by norm_num) ?_)
    omega

/-- Rounding a mantissa of at least all bits gives the nearest double. -/
theorem nearest_roundWithAccuracy (s : Sign) (h : Approximates (.ofMantissaAndAccuracy m a) x) (hm : 2 ^ 52 ≤ m)
    (hlow : (2 : ℚ) ^ (-1000 : Int) ≤ x * 2 ^ e) (hhigh : x * 2 ^ e < 2 ^ (1000 : Int)) :
    Nearest s (roundWithAccuracy .binary64 s m e a) (x * 2 ^ e) := by
  obtain ⟨em, q, y, hshift, happrox, hvalue, hy, hy', hq, hq'⟩ := exists_shiftToTargetExponent h hm hlow hhigh
  obtain ⟨hle, hle'⟩ := happrox.roundedMantissa_bounds hy hy'
  unfold roundWithAccuracy
  rw [hshift, hvalue]
  dsimp only
  rcases Nat.lt_or_eq_of_le hle' with hlt | hcarry
  · rw [shiftToTargetExponent_of_lt hle hlt hq]
    dsimp only
    rw [dif_neg (by omega)]
    exact ⟨_, _, _, y, rfl, rfl, hq, by omega, happrox.roundsTo hy hle hlt⟩
  · have hhalf : y * 2 ^ q = y / 2 * 2 ^ (q + 1) := by
      rw [zpow_add₀ (by norm_num), zpow_one]
      ring
    rw [hcarry, shiftToTargetExponent_carry hq]
    dsimp only
    rw [dif_neg (by norm_num)]
    exact ⟨_, _, _, y / 2, rfl, hhalf, by omega, by omega, happrox.roundsTo_carry hcarry hy'⟩

end

/-! ## Bits -/

theorem unpackSign_packComponents {spec : Format} {s : Sign} {e : BitVec spec.exponentBits}
    {m : BitVec spec.mantissaBitsWithoutImplicit} : unpackSign (packComponents spec s e m) = s.toBitVec := by
  ext i hi
  obtain rfl : i = 0 := by omega
  change (BitVec.cast _ (BitVec.extractLsb _ _ (s.toBitVec ++ e ++ m)))[0] = _
  simp [BitVec.getLsbD_append, BitVec.getElem_append]

theorem toNat_append_one {n : Nat} (b : BitVec n) : (1#1 ++ b).toNat = 2 ^ n + b.toNat := by
  rw [BitVec.toNat_append, ← Nat.shiftLeft_add_eq_or_of_lt b.isLt, Nat.shiftLeft_eq]
  simp

theorem finite_congr {s : Sign} {m n : Nat} {q r : Int} {hm : 0 < m} {hn : 0 < n} (hmn : m = n) (hqr : q = r) :
    UnpackedFloat.finite s m q hm = .finite s n r hn := by
  subst hmn hqr
  rfl

theorem unpack_packComponents {spec : Format} (s : Sign) {e : BitVec spec.exponentBits}
    (m : BitVec spec.mantissaBitsWithoutImplicit) (hones : e ≠ -1#_) (hzeros : e ≠ 0#_) :
    ∃ h, unpack spec (packComponents spec s e m) = .finite s (1#1 ++ m).toNat
      (e.toNat - (spec.exponentBias + spec.mantissaBitsWithoutImplicit)) h := by
  have hsign : Sign.ofBitVec s.toBitVec = s := by cases s <;> rfl
  refine ⟨by simp, ?_⟩
  unfold unpack
  dsimp only
  rw [unpackExponent_packComponents, unpackSign_packComponents, hsign, if_neg hones, if_neg hzeros]
  exact finite_congr (by rw [unpackMantissa_packComponents]) rfl

/-- The bits of a double with all its bits tell its mantissa and exponent. -/
theorem unpack_pack {s : Sign} {m : Nat} {q : Int} {h : 0 < m} (hle : 2 ^ 52 ≤ m) (hlt : m < 2 ^ 53)
    (hq : -1074 ≤ q) (hq' : q ≤ 971) :
    unpack .binary64 (pack .binary64 (.finite s m q h)) = .finite s m q h := by
  obtain ⟨b, hb⟩ : ∃ b : Nat, (b : Int) = q + 1075 := ⟨(q + 1075).toNat, by omega⟩
  have hbias : (q + Format.binary64.exponentBias + Format.binary64.mantissaBitsWithoutImplicit).toNat = b := by
    change (q + 1023 + 52).toNat = b
    omega
  have hpack : pack .binary64 (.finite s m q h) = packComponents .binary64 s (BitVec.ofNat 11 b) (BitVec.ofNat 52 m) := by
    unfold pack
    dsimp only
    rw [hbias, if_neg (by omega), if_pos (by rw [log2_eq hle hlt]; rfl)]
  have hexp : (BitVec.ofNat 11 b).toNat = b := by
    rw [BitVec.toNat_ofNat, Nat.mod_eq_of_lt (by omega)]
  have hne : ∀ n : Nat, b ≠ n → ∀ e : BitVec 11, e.toNat = n → BitVec.ofNat 11 b ≠ e := by
    rintro n hn e he rfl
    exact hn (hexp.symm.trans he)
  have hmantissa : (1#1 ++ BitVec.ofNat 52 m).toNat = m := by
    rw [toNat_append_one, BitVec.toNat_ofNat]
    omega
  have hones : BitVec.ofNat 11 b ≠ -1#_ := hne 2047 (by omega) _ rfl
  have hzeros : BitVec.ofNat 11 b ≠ 0#_ := hne 0 (by omega) _ rfl
  obtain ⟨hpos, hunpack⟩ := @unpack_packComponents .binary64 s _ (BitVec.ofNat 52 m) hones hzeros
  rw [hpack, hunpack]
  refine finite_congr hmantissa ?_
  rw [hexp]
  change (b : Int) - (1023 + 52) = q
  omega

theorem toNat_unpackExponent (b : BitVec 64) :
    (@unpackExponent .binary64 b).toNat = b.toNat / 4503599627370496 % 2048 := by
  simp [unpackExponent, Nat.shiftRight_eq_div_pow]

theorem toNat_unpackMantissa (b : BitVec 64) : (@unpackMantissa .binary64 b).toNat = b.toNat % 4503599627370496 := by
  simp [unpackMantissa]

theorem toNat_unpackSign (b : BitVec 64) : (@unpackSign .binary64 b).toNat = b.toNat / 9223372036854775808 % 2 := by
  change (BitVec.cast _ (b.extractLsb 63 63)).toNat = _
  simp [Nat.shiftRight_eq_div_pow]

theorem ofBitVec_unpackSign (b : BitVec 64) :
    Sign.ofBitVec (@unpackSign .binary64 b) = .negative ↔ 9223372036854775808 ≤ b.toNat := by
  have hlt := b.isLt
  have hsign := toNat_unpackSign b
  rw [Sign.ofBitVec]
  split
  · rename_i hpos
    rw [hpos] at hsign
    change 0 = _ at hsign
    constructor
    · intro hbit
      cases hbit
    · intro hbit
      omega
  · rename_i hneg
    have hbit : (@unpackSign .binary64 b).toNat ≠ 0 := fun he => hneg (BitVec.eq_of_toNat_eq he)
    exact ⟨fun _ => by omega, fun _ => rfl⟩

section
variable {b : BitVec 64} {s : Sign} {m : Nat} {q : Int} {h : 0 < m}

/-- The bits of a double with all its bits. -/
theorem bits_of_unpack (hb : unpack .binary64 b = .finite s m q h) (hle : 2 ^ 52 ≤ m) :
    b.toNat / 4503599627370496 % 2048 ≠ 2047 ∧ b.toNat / 4503599627370496 % 2048 ≠ 0 ∧
      4503599627370496 + b.toNat % 4503599627370496 = m ∧ ((b.toNat / 4503599627370496 % 2048 : Nat) : Int) - 1075 = q ∧
        (9223372036854775808 ≤ b.toNat ↔ s = .negative) := by
  have hexp := toNat_unpackExponent b
  have hmantissa := toNat_unpackMantissa b
  unfold unpack at hb
  dsimp only at hb
  by_cases hones : @unpackExponent .binary64 b = -1#_
  · rw [if_pos hones] at hb
    by_cases hrest : @unpackMantissa .binary64 b = 0#_
    · rw [if_pos hrest] at hb
      cases hb
    · rw [if_neg hrest] at hb
      cases hb
  by_cases hzeros : @unpackExponent .binary64 b = 0#_
  · rw [if_neg hones, if_pos hzeros] at hb
    by_cases hrest : @unpackMantissa .binary64 b = 0#_
    · rw [dif_pos hrest] at hb
      cases hb
    · -- a double without its first bit has a smaller mantissa
      rw [dif_neg hrest] at hb
      cases hb
      omega
  rw [if_neg hones, if_neg hzeros] at hb
  injection hb with hs hm hq
  rw [toNat_append_one, hmantissa] at hm
  rw [hexp] at hq
  exact ⟨fun he => hones (BitVec.eq_of_toNat_eq (hexp.trans he)), fun he => hzeros (BitVec.eq_of_toNat_eq (hexp.trans he)),
    hm, hq, by rw [← hs, ofBitVec_unpackSign]⟩

/-- The parts of a double with all its bits. -/
theorem exists_parts? {x : Float} (hx : x.toModel.unpack = .finite s m q h) (hle : 2 ^ 52 ≤ m) :
    ∃ p, parts? x = some p ∧ p.m = m ∧ p.q = q ∧ (p.negative = true ↔ s = .negative) ∧ (p.even = true → m = 2 ^ 52) := by
  obtain ⟨hones, hzeros, hm, hq, hs⟩ := bits_of_unpack (b := x.toModel.toBits.toBitVec) hx hle
  change x.toBits.toNat / 4503599627370496 % 2048 ≠ 2047 at hones
  change x.toBits.toNat / 4503599627370496 % 2048 ≠ 0 at hzeros
  unfold parts?
  dsimp only
  rw [if_neg hones, if_neg hzeros]
  refine ⟨_, rfl, hm, hq, decide_eq_true_iff.trans hs, fun heven => ?_⟩
  have hfirst : x.toBits.toNat % 4503599627370496 = 0 := by simpa using (Bool.and_eq_true_iff.mp heven).1
  change 4503599627370496 + x.toBits.toNat % 4503599627370496 = m at hm
  omega

end

/-! ## The nearest double -/

theorem RoundsTo.holds {m : Nat} {y v : ℚ} (h : RoundsTo m y) {p : Parts} (hm : p.m = m)
    (heven : p.even = true → m = 2 ^ 52) (hv : v = y * 2 ^ p.q) : p.interval.Holds v := by
  have hle := h.le
  have hden : (0 : ℚ) < p.interval.denominator := by
    rw [Parts.denominator_interval]
    positivity
  have hpow := two_zpow_pos (p.q - 2)
  have hquarters : v = 4 * y * 2 ^ (p.q - 2) := by
    rw [hv, Parts.two_zpow_sub_two]
    ring
  have hupper : (p.interval.upper : ℚ) / p.interval.denominator = (4 * m + 2 : Nat) * 2 ^ (p.q - 2) := by
    rw [← hm]
    exact Parts.quarters_div p (4 * p.m + 2)
  have hlower : (p.interval.lower : ℚ) / p.interval.denominator =
      (4 * m - if p.even then 1 else 2 : Nat) * 2 ^ (p.q - 2) := by
    rw [← hm]
    exact Parts.quarters_div p (4 * p.m - if p.even then 1 else 2)
  unfold Interval.Holds
  rw [← div_le_iff₀ hden, ← le_div_iff₀ hden, ← div_lt_iff₀ hden, ← lt_div_iff₀ hden, hupper, hlower, hquarters]
  have hclosed : p.interval.closed = (m % 2 == 0) := by rw [← hm]; rfl
  rw [hclosed]
  split
  · refine ⟨mul_le_mul_of_nonneg_right (le_trans ?_ h.lower) hpow.le, mul_le_mul_of_nonneg_right h.upper hpow.le⟩
    refine Nat.cast_le.mpr (Nat.sub_le_sub_left ?_ _)
    split
    · split <;> omega
    · rename_i hm heven'
      rw [if_neg (fun he => heven' (heven he))]
  · rename_i hodd
    have hodd : m % 2 = 1 := by
      have hne : ¬ m % 2 = 0 := by simpa using hodd
      omega
    have hneven : ¬ p.even = true := fun he => by
      rw [heven he] at hodd
      exact absurd hodd (by norm_num)
    rw [if_neg hneven]
    exact ⟨mul_lt_mul_of_pos_right (h.strict hodd).1 hpow, mul_lt_mul_of_pos_right (h.strict hodd).2 hpow⟩

namespace Nearest
variable {s : Sign} {u : UnpackedFloat} {v : ℚ}

theorem unpack_eq (h : Nearest s u v) : unpack .binary64 (pack .binary64 u) = u := by
  obtain ⟨m, q, hpos, y, rfl, -, hq, hq', hround⟩ := h
  exact unpack_pack hround.le hround.lt hq hq'

/-- The number lies in the interval of the double. -/
theorem exists_parts? (h : Nearest s u v) : ∃ p, parts? (.ofModel (.pack u)) = some p ∧
    (p.negative = true ↔ s = .negative) ∧ 2 ^ 52 ≤ p.m ∧ p.interval.Holds v := by
  have hunpack := h.unpack_eq
  obtain ⟨m, q, hpos, y, rfl, hv, -, -, hround⟩ := h
  obtain ⟨p, hp, hm, rfl, hs, heven⟩ := Double.exists_parts? (x := .ofModel (.pack (.finite s m q hpos))) hunpack hround.le
  exact ⟨p, hp, hs, hm ▸ hround.le, hround.holds hm heven hv⟩

theorem isFinite (h : Nearest s u v) : (Float.ofModel (.pack u)).isFinite = true := by
  change (unpack .binary64 (pack .binary64 u)).isFinite = true
  rw [h.unpack_eq]
  obtain ⟨m, q, hpos, y, rfl, -⟩ := h
  rfl

theorem neg (h : Nearest s u v) : Nearest (-s) u.neg v := by
  obtain ⟨m, q, hpos, y, rfl, h⟩ := h
  exact ⟨m, q, hpos, y, rfl, h⟩

theorem neg_ofModel (h : Nearest s u v) : -Float.ofModel (.pack u) = Float.ofModel (.pack u.neg) := by
  change Float.ofModel (.pack (unpack .binary64 (pack .binary64 u)).neg) = _
  rw [h.unpack_eq]

end Nearest

section
variable {m n : Nat} {e f : Int} {v : ℚ} (hm : 0 < m) (hn : 0 < n) (hlow : (2 : ℚ) ^ (-1000 : Int) ≤ v)
  (hhigh : v < 2 ^ (1000 : Int))
include hlow hhigh

theorem nearest_mul (hbits : 2 ^ 52 ≤ m * n) (hv : v = m * n * 2 ^ (e + f)) :
    Nearest .positive (mul .binary64 (.finite .positive m e hm) (.finite .positive n f hn)) v := by
  have hv : v = (m * n : Nat) * 2 ^ (e + f) := by rw [hv, Nat.cast_mul]
  rw [hv] at hlow hhigh ⊢
  exact nearest_roundWithAccuracy .positive (.exact (m * n)) hbits hlow hhigh

theorem nearest_div (hv : v = m / n * 2 ^ (e - f)) :
    Nearest .positive (div .binary64 (.finite .positive m e hm) (.finite .positive n f hn)) v := by
  have hn' : (0 : ℚ) < n := Nat.cast_pos.mpr hn
  have hlog : -1000 < (m.log2 : Int) + 1 - n.log2 + (e - f) := by
    refine (zpow_lt_zpow_iff_right₀ (by norm_num : (1 : ℚ) < 2)).mp (hlow.trans_lt ?_)
    have hup : (m : ℚ) < (2 ^ (m.log2 + 1) : Nat) := by exact_mod_cast Nat.lt_log2_self
    have hdown : ((2 ^ n.log2 : Nat) : ℚ) ≤ n := by exact_mod_cast Nat.log2_self_le hn.ne'
    push_cast at hup hdown
    rw [hv, zpow_add₀ (by norm_num), zpow_sub₀ (by norm_num) ((m.log2 : Int) + 1), ← Nat.cast_add_one, zpow_natCast,
      zpow_natCast]
    refine mul_lt_mul_of_pos_right ?_ (two_zpow_pos _)
    calc (m : ℚ) / n
      _ < 2 ^ (m.log2 + 1) / n := div_lt_div_of_pos_right hup hn'
      _ ≤ 2 ^ (m.log2 + 1) / 2 ^ n.log2 := div_le_div_of_nonneg_left (by positivity) (by positivity) hdown
  obtain ⟨t, ht⟩ : ∃ t, t = min (e - f) (Format.binary64.targetExponent (totalExponent m e - totalExponent n f)) := ⟨_, rfl⟩
  obtain ⟨k, hk⟩ : ∃ k, k = (e - f - t).toNat := ⟨_, rfl⟩
  have hdiv : div .binary64 (.finite .positive m e hm) (.finite .positive n f hn) = roundWithAccuracy .binary64 .positive
      (m * 2 ^ k / n) t (accuracyOfFraction (m * 2 ^ k % n) n) := by
    have hcore : divCore .binary64 m e n f = (m <<< k / n, t, accuracyOfFraction (m <<< k % n) n) := by
      rw [hk, ht]
      rfl
    rw [← Nat.shiftLeft_eq]
    unfold div
    dsimp only
    rw [hcore]
    rfl
  rw [targetExponent_eq, totalExponent, totalExponent] at ht
  have hbits : 2 ^ 52 ≤ m * 2 ^ k / n := by
    rw [Nat.le_div_iff_mul_le hn]
    calc 2 ^ 52 * n
      _ ≤ 2 ^ 52 * 2 ^ (n.log2 + 1) := Nat.mul_le_mul_left _ Nat.lt_log2_self.le
      _ = 2 ^ (n.log2 + 53) := by rw [← Nat.pow_add]; congr 1; omega
      _ ≤ 2 ^ (m.log2 + k) := Nat.pow_le_pow_right (by decide) (by omega)
      _ = 2 ^ m.log2 * 2 ^ k := Nat.pow_add ..
      _ ≤ m * 2 ^ k := Nat.mul_le_mul_right _ (Nat.log2_self_le hm.ne')
  have hv : v = (m * 2 ^ k : Nat) / n * 2 ^ t := by
    have hsplit : e - f = k + t := by omega
    rw [hv, hsplit, zpow_add₀ (by norm_num), zpow_natCast]
    push_cast
    ring
  rw [hv] at hlow hhigh
  rw [hdiv, hv]
  exact nearest_roundWithAccuracy .positive (.quotient _ hn) hbits hlow hhigh

end

end KeyboardPlate.Double
