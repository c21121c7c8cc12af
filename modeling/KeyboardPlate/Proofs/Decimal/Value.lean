import KeyboardPlate.Proofs.Decimal.Bound
import KeyboardPlate.Proofs.Decimal.Order
import Mathlib.Tactic.FieldSimp
import Mathlib.Tactic.Linarith
import Mathlib.Tactic.NormNum

/-!
# Results of decimal arithmetic as exact numbers

A sum whose digits fit is exact. Any other result is within one half of the exact one, since it keeps at
least its whole part.
-/

set_option autoImplicit false

namespace KeyboardPlate

namespace Decimal

variable {a b c : Decimal} {m n : Nat}

theorem toRat_neg (a : Decimal) : (-a).toRat = -a.toRat := by
  have hsigned : (-a).signed = -a.signed := by
    change (if (!a.negative) = true then -(a.mantissa : Int) else a.mantissa) =
      -(if a.negative = true then -(a.mantissa : Int) else a.mantissa)
    cases a.negative with
    | false => rfl
    | true => exact (Int.neg_neg _).symm
  unfold toRat
  rw [hsigned, Int.cast_neg, neg_div]
  rfl

theorem abs_toRat (a : Decimal) : |a.toRat| = a.mantissa / 10 ^ a.scale := by
  have habs : |(a.signed : ℚ)| = a.mantissa := by
    rw [← Int.cast_abs, Int.abs_eq_natAbs, natAbs_signed, Int.cast_natCast]
  unfold toRat
  rw [abs_div, habs, abs_of_pos a.pow_scale_pos]
  norm_cast

theorem within_iff_toRat : a.Within n ↔ |a.toRat| ≤ n := by
  rw [abs_toRat, div_le_iff₀ (by positivity)]
  exact_mod_cast Iff.rfl

theorem toRat_of_isZero (h : a.isZero = true) : a.toRat = 0 := by
  have hm : a.mantissa = 0 := isZero_iff.mp h
  have habs : |a.toRat| = 0 := by
    rw [abs_toRat, hm]
    simp
  exact abs_eq_zero.mp habs

theorem toRat_nonneg (h : a.negative = false) : 0 ≤ a.toRat := by
  unfold toRat signed
  rw [h, if_neg Bool.false_ne_true]
  exact div_nonneg (Int.cast_nonneg (Int.natCast_nonneg _)) a.pow_scale_pos.le

/-! ## Sign and magnitude -/

/-- A number of the given sign and magnitude. -/
def signedRat (negative : Bool) (x : ℚ) : ℚ := if negative then -x else x

theorem abs_signedRat (negative : Bool) (x : ℚ) : |signedRat negative x| = |x| := by
  cases negative with
  | false => rfl
  | true => exact abs_neg x

theorem abs_signedRat_sub (negative : Bool) (x y : ℚ) : |signedRat negative x - signedRat negative y| = |x - y| := by
  cases negative with
  | false => rfl
  | true =>
    change |-x - -y| = |x - y|
    rw [neg_sub_neg, abs_sub_comm]

theorem signedRat_div (negative : Bool) (x y : ℚ) : signedRat negative (x / y) = signedRat negative x / y := by
  cases negative with
  | false => rfl
  | true => exact (neg_div y x).symm

theorem signedRat_mul (p q : Bool) (x y : ℚ) : signedRat (p != q) (x * y) = signedRat p x * signedRat q y := by
  unfold signedRat
  cases p with
  | false =>
    cases q with
    | false => rfl
    | true => exact (mul_neg x y).symm
  | true =>
    cases q with
    | false => exact (neg_mul x y).symm
    | true => exact (neg_mul_neg x y).symm

theorem signedRat_natAbs (p : Int) : signedRat (decide (p < 0)) p.natAbs = p := by
  unfold signedRat
  rcases lt_or_ge p 0 with hneg | hpos
  · rw [decide_eq_true hneg, if_pos rfl, ← Int.cast_natCast, Int.ofNat_natAbs_of_nonpos hneg.le, Int.cast_neg, neg_neg]
  · rw [decide_eq_false (not_lt.mpr hpos), if_neg Bool.false_ne_true, ← Int.cast_natCast, Int.natAbs_of_nonneg hpos]

theorem toRat_eq_signedRat (a : Decimal) : a.toRat = signedRat a.negative (a.mantissa / 10 ^ a.scale) := by
  unfold toRat signed signedRat
  cases a.negative with
  | false => simp
  | true => simp [neg_div]

/-- The sign of zero does not matter. -/
theorem toRat_of_parts (h : a.mantissa = m) {negative : Bool} (hsign : a.negative = (negative && m != 0)) :
    a.toRat = signedRat negative (m / 10 ^ a.scale) := by
  rw [toRat_eq_signedRat, h, hsign]
  rcases Nat.eq_zero_or_pos m with rfl | hm
  · simp [signedRat]
  · have hne : (m != 0) = true := bne_iff_ne.mpr hm.ne'
    rw [hne, Bool.and_true]

/-! ## Results that fit -/

theorem roundDiv_mul (tie : Tie) (n : Nat) {d : Nat} (hd : 0 < d) : roundDiv tie (n * d) d = n := by
  unfold roundDiv
  rw [Nat.mul_mod_left, Nat.mul_div_cancel n hd]
  apply if_neg
  omega

theorem fit?_of_lt (negative : Bool) {n s : Nat} (hn : n < mantissaLimit) (hs : s ≤ scaleLimit) :
    fit? negative n s = some ⟨negative && n != 0, n, s, hn, hs⟩ := by
  have hmin : min s scaleLimit = s := Nat.min_eq_left hs
  have hround : roundDiv .toEven (n * Nat.pow 10 s) (Nat.pow 10 s) = n :=
    roundDiv_mul .toEven n (Nat.pow_pos (by decide))
  unfold fit?
  unfold nearest?
  simp only [hmin, hround, hn, dite_true]

theorem toRat_signed_mul {s : Nat} (hs : a.scale ≤ s) :
    ((a.signed * (Nat.pow 10 (s - a.scale) : Nat) : Int) : ℚ) / 10 ^ s = a.toRat := by
  have hpow : (10 : ℚ) ^ s = 10 ^ (s - a.scale) * 10 ^ a.scale := by
    rw [← pow_add, Nat.sub_add_cancel hs]
  unfold toRat
  push_cast
  rw [hpow]
  field_simp
  norm_cast

theorem exists_sumAt?_toRat {p q : Int} {s : Nat} (hs : s ≤ scaleLimit) (h : (p + q).natAbs < mantissaLimit) :
    ∃ c, sumAt? p q s = some c ∧ c.toRat = ((p + q : Int) : ℚ) / 10 ^ s := by
  unfold sumAt?
  split
  · rename_i hzero
    rw [fit?_of_lt false (by decide) hs, hzero.1]
    refine ⟨_, rfl, ?_⟩
    apply (toRat_of_isZero rfl).trans
    simp
  · rw [fit?_of_lt _ h hs]
    refine ⟨_, rfl, ?_⟩
    rw [toRat_of_parts rfl rfl, signedRat_div, signedRat_natAbs]

/-- A sum below 7.9 has all its digits, whatever the scales. -/
theorem exists_add?_toRat (h : |a.toRat + b.toRat| ≤ 7) :
    ∃ c, a.add? b = some c ∧ c.toRat = a.toRat + b.toRat := by
  unfold Decimal.add?
  split
  · rename_i hzero
    exact ⟨b, rfl, by rw [toRat_of_isZero hzero, zero_add]⟩
  · split
    · rename_i hzero
      exact ⟨a, rfl, by rw [toRat_of_isZero hzero, add_zero]⟩
    · dsimp only
      have ha := toRat_signed_mul (a := a) (Nat.le_max_left a.scale b.scale)
      have hb := toRat_signed_mul (a := b) (Nat.le_max_right a.scale b.scale)
      have hscale : max a.scale b.scale ≤ scaleLimit := Nat.max_le.mpr ⟨a.scale_le, b.scale_le⟩
      generalize max a.scale b.scale = s at ha hb hscale
      generalize a.signed * _ = p at ha
      generalize b.signed * _ = q at hb
      have hsum : a.toRat + b.toRat = ((p + q : Int) : ℚ) / 10 ^ s := by
        rw [← ha, ← hb, ← add_div, Int.cast_add]
      have hfits : (p + q).natAbs < mantissaLimit := by
        have habs : ((p + q).natAbs : ℚ) / 10 ^ s ≤ 7 := by
          rw [Nat.cast_natAbs, Int.cast_abs]
          rw [hsum, abs_div, abs_of_pos (by positivity : (0 : ℚ) < 10 ^ s)] at h
          exact h
        rw [div_le_iff₀ (by positivity)] at habs
        have hnat : (p + q).natAbs ≤ 7 * 10 ^ s := by exact_mod_cast habs
        have hpow : 7 * 10 ^ s ≤ 7 * 10 ^ 28 := Nat.mul_le_mul_left 7 (Nat.pow_le_pow_right (by decide) hscale)
        exact Nat.lt_of_le_of_lt (hnat.trans hpow) (by decide)
      rw [hsum]
      exact exists_sumAt?_toRat hscale hfits

theorem exists_sub?_toRat (h : |a.toRat - b.toRat| ≤ 7) :
    ∃ c, a.sub? b = some c ∧ c.toRat = a.toRat - b.toRat := by
  unfold Decimal.sub?
  split
  · rename_i hzero
    have ha := toRat_of_isZero hzero
    split
    · rename_i hzero'
      refine ⟨b, rfl, ?_⟩
      rw [ha, toRat_of_isZero hzero', sub_zero]
    · exact ⟨-b, rfl, by rw [ha, toRat_neg, zero_sub]⟩
  · have hsum : a.toRat + (-b).toRat = a.toRat - b.toRat := by rw [toRat_neg, sub_eq_add_neg]
    rw [← hsum] at h ⊢
    exact exists_add?_toRat h

/-- A product with one or minus one is exact. -/
theorem exists_mul?_unit {a : Decimal} (hmantissa : a.mantissa = 1) (hscale : a.scale = 0) (x : Decimal) :
    ∃ z, a.mul? x = some z ∧ z.toRat = a.toRat * x.toRat := by
  have ha : a.toRat = signedRat a.negative 1 := by
    rw [toRat_eq_signedRat, hmantissa, hscale]
    norm_num
  have hnonzero : a.isZero = false := by
    rw [← Bool.not_eq_true, isZero_iff, hmantissa]
    exact one_ne_zero
  unfold mul?
  by_cases hx : x.isZero = true
  · rw [if_pos (by rw [hx, Bool.or_true])]
    exact ⟨zero, rfl, by rw [toRat_of_isZero hx, mul_zero, toRat_of_isZero rfl]⟩
  · rw [if_neg (by simp [hnonzero, hx]), hmantissa, hscale, one_mul, zero_add, fit?_of_lt _ x.mantissa_lt x.scale_le]
    refine ⟨_, rfl, ?_⟩
    rw [toRat_of_parts rfl rfl, ha, toRat_eq_signedRat x, ← signedRat_mul, one_mul]

/-! ## Results that are rounded -/

/-- The step has a result that differs from `x` by at most one half. -/
def Near (x : ℚ) (r : Option Decimal) : Prop := ∃ c, r = some c ∧ |c.toRat - x| ≤ 1 / 2

theorem near_of_toRat {x : ℚ} (h : c.toRat = x) : Near x (some c) := by
  refine ⟨c, rfl, ?_⟩
  rw [h, sub_self, abs_zero]
  norm_num

theorem Near.eq_some {x : ℚ} {r : Option Decimal} (h : Near x r) (hc : r = some c) : |c.toRat - x| ≤ 1 / 2 := by
  obtain ⟨d, hd, hnear⟩ := h
  rw [hd] at hc
  cases hc
  exact hnear

theorem abs_roundDiv_sub_le (tie : Tie) (n : Nat) {d : Nat} (hd : 0 < d) :
    |(roundDiv tie n d : ℚ) - n / d| ≤ 1 / 2 := by
  have hpos : (0 : ℚ) < d := Nat.cast_pos.mpr hd
  have hdiv : (n : ℚ) / d = (n / d : Nat) + (n % d : Nat) / d := by
    have hn : ((d * (n / d) + n % d : Nat) : ℚ) = n := by rw [Nat.div_add_mod]
    push_cast at hn
    rw [← hn]
    field_simp
  unfold roundDiv
  rw [hdiv]
  split
  · rename_i hround
    have hup : d ≤ 2 * (n % d) := by omega
    have hlt : n % d < d := Nat.mod_lt n hd
    have h1 : (1 : ℚ) / 2 ≤ (n % d : Nat) / d := by
      rw [div_le_div_iff₀ two_pos hpos]
      exact_mod_cast (by omega : 1 * d ≤ n % d * 2)
    have h2 : ((n % d : Nat) : ℚ) / d ≤ 1 := by
      rw [div_le_one hpos]
      exact_mod_cast hlt.le
    rw [Nat.cast_add, Nat.cast_one, abs_le]
    constructor
    · linarith
    · linarith
  · rename_i hround
    have hdown : 2 * (n % d) ≤ d := by omega
    have h1 : ((n % d : Nat) : ℚ) / d ≤ 1 / 2 := by
      rw [div_le_div_iff₀ hpos two_pos]
      exact_mod_cast (by omega : n % d * 2 ≤ 1 * d)
    have h2 : (0 : ℚ) ≤ (n % d : Nat) / d := by positivity
    rw [abs_le]
    constructor
    · linarith
    · linarith

theorem abs_roundDiv_div_sub_le (tie : Tie) (n s : Nat) {d : Nat} (hd : 0 < d) :
    |(roundDiv tie (n * Nat.pow 10 s) d : ℚ) / 10 ^ s - n / d| ≤ 1 / 2 := by
  have hround := abs_roundDiv_sub_le tie (n * Nat.pow 10 s) hd
  generalize roundDiv tie (n * Nat.pow 10 s) d = r at hround
  have hpow : (1 : ℚ) ≤ 10 ^ s := one_le_pow₀ (by norm_num)
  have hcast : ((n * Nat.pow 10 s : Nat) : ℚ) = n * 10 ^ s := by
    rw [Nat.pow_eq, Nat.cast_mul, Nat.cast_pow]
    rfl
  have hsplit : (r : ℚ) / 10 ^ s - n / d = (r - n * 10 ^ s / d) / 10 ^ s := by field_simp
  rw [hcast] at hround
  rw [hsplit, abs_div, abs_of_pos (by positivity : (0 : ℚ) < 10 ^ s)]
  exact (div_le_self (abs_nonneg _) hpow).trans hround

theorem near_nearest? (negative : Bool) {n d k s : Nat} (hs : s ≤ scaleLimit) (hd : 0 < d)
    (hk : k < mantissaLimit) (h : n ≤ k * d) : Near (signedRat negative (n / d)) (nearest? negative n d s hs) := by
  obtain ⟨c, hc, -⟩ := fits_nearest? negative hs hd hk h
  refine ⟨c, hc, ?_⟩
  clear h
  induction s with
  | zero =>
    rw [nearest?] at hc
    split at hc
    · cases hc
      rw [toRat_of_parts rfl rfl, abs_signedRat_sub]
      exact abs_roundDiv_div_sub_le .toEven n 0 hd
    · cases hc
  | succ s ih =>
    rw [nearest?] at hc
    split at hc
    · cases hc
      rw [toRat_of_parts rfl rfl, abs_signedRat_sub]
      exact abs_roundDiv_div_sub_le .toEven n (s + 1) hd
    · exact ih _ hc

theorem near_fit? (negative : Bool) {n k s : Nat} (hk : k < mantissaLimit) (h : n ≤ k * 10 ^ s) :
    Near (signedRat negative (n / 10 ^ s)) (fit? negative n s) := by
  have hnear := near_nearest? negative (Nat.min_le_right s scaleLimit) (Nat.pow_pos (by decide) : 0 < Nat.pow 10 s) hk h
  push_cast at hnear
  exact hnear

theorem near_sumAt? {p q : Int} {k s : Nat} (hs : s ≤ scaleLimit) (hk : k < mantissaLimit)
    (h : (p + q).natAbs ≤ k * 10 ^ s) : Near (((p + q : Int) : ℚ) / 10 ^ s) (sumAt? p q s) := by
  rcases Nat.lt_or_ge (p + q).natAbs mantissaLimit with hfits | hlarge
  · obtain ⟨c, hc, hvalue⟩ := exists_sumAt?_toRat hs hfits
    rw [hc]
    exact near_of_toRat hvalue
  · have hne : ¬ (p + q = 0 ∧ p.natAbs < 4294967296) := by
      rintro ⟨hzero, -⟩
      rw [hzero] at hlarge
      exact absurd hlarge (by decide)
    unfold sumAt?
    rw [if_neg hne, ← signedRat_natAbs (p + q), ← signedRat_div]
    exact near_fit? _ hk h

theorem Within.near_add? (ha : a.Within m) (hb : b.Within n) (hk : m + n < mantissaLimit) :
    Near (a.toRat + b.toRat) (a.add? b) := by
  unfold Decimal.add?
  split
  · rename_i hzero
    apply near_of_toRat
    rw [toRat_of_isZero hzero, zero_add]
  · split
    · rename_i hzero
      apply near_of_toRat
      rw [toRat_of_isZero hzero, add_zero]
    · dsimp only
      have hleft := Nat.le_max_left a.scale b.scale
      have hright := Nat.le_max_right a.scale b.scale
      have hscale : max a.scale b.scale ≤ scaleLimit := Nat.max_le.mpr ⟨a.scale_le, b.scale_le⟩
      generalize max a.scale b.scale = s at hleft hright hscale
      have hsum := (Int.natAbs_add_le _ _).trans (Nat.add_le_add (ha.natAbs_le hleft) (hb.natAbs_le hright))
      rw [← Nat.add_mul] at hsum
      rw [← toRat_signed_mul hleft, ← toRat_signed_mul hright, ← add_div, ← Int.cast_add]
      exact near_sumAt? hscale hk hsum

theorem Within.near_sub? (ha : a.Within m) (hb : b.Within n) (hk : m + n < mantissaLimit) :
    Near (a.toRat - b.toRat) (a.sub? b) := by
  unfold Decimal.sub?
  split
  · rename_i hzero
    rw [toRat_of_isZero hzero, zero_sub]
    split
    · rename_i hzero'
      apply near_of_toRat
      rw [toRat_of_isZero hzero', neg_zero]
    · exact near_of_toRat (toRat_neg b)
  · rw [sub_eq_add_neg, ← toRat_neg]
    exact ha.near_add? hb.neg hk

theorem Within.near_mul? (ha : a.Within m) (hb : b.Within n) (hk : m * n < mantissaLimit) :
    Near (a.toRat * b.toRat) (a.mul? b) := by
  unfold Decimal.mul?
  split
  · rename_i hzero
    have hproduct : a.toRat * b.toRat = 0 := by
      rcases Bool.or_eq_true_iff.mp hzero with ha | hb
      · rw [toRat_of_isZero ha, zero_mul]
      · rw [toRat_of_isZero hb, mul_zero]
    rw [hproduct]
    exact near_of_toRat (toRat_of_isZero rfl)
  · have hwithin : a.mantissa * b.mantissa ≤ m * n * 10 ^ (a.scale + b.scale) := by
      calc a.mantissa * b.mantissa ≤ m * 10 ^ a.scale * (n * 10 ^ b.scale) := Nat.mul_le_mul ha hb
        _ = m * n * 10 ^ (a.scale + b.scale) := by rw [Nat.pow_add]; ring
    have hvalue : a.toRat * b.toRat =
        signedRat (a.negative != b.negative) ((a.mantissa * b.mantissa : Nat) / 10 ^ (a.scale + b.scale)) := by
      rw [toRat_eq_signedRat a, toRat_eq_signedRat b, ← signedRat_mul, div_mul_div_comm, ← pow_add, Nat.cast_mul]
    rw [hvalue]
    exact near_fit? _ hk hwithin

theorem dropZeros_toRat (floor m s : Nat) :
    ((dropZeros floor m s).1 : ℚ) / 10 ^ (dropZeros floor m s).2 = m / 10 ^ s := by
  fun_induction dropZeros floor m s with
  | case1 m => rfl
  | case2 m s h ih =>
    have hm : m / 10 * 10 = m := Nat.div_mul_cancel (Nat.dvd_of_mod_eq_zero h.2)
    rw [ih, pow_succ, ← hm, Nat.mul_div_cancel _ (by decide)]
    push_cast
    field_simp
  | case3 => rfl

theorem toRat_trimTo (floor : Nat) (a : Decimal) : (a.trimTo floor).toRat = a.toRat := by
  rw [toRat_eq_signedRat, toRat_eq_signedRat a]
  exact congrArg (signedRat a.negative) (dropZeros_toRat floor a.mantissa a.scale)

theorem near_half? (a : Decimal) : Near (a.toRat / 2) a.half? := by
  unfold half? div?
  rw [if_neg (by decide)]
  split
  · rename_i hzero
    apply near_of_toRat
    rw [toRat_of_isZero hzero, toRat_of_isZero rfl, zero_div]
  · have hwithin : a.mantissa * Nat.pow 10 two.scale ≤ 2 ^ 95 * (two.mantissa * Nat.pow 10 a.scale) := by
      calc a.mantissa * 1 ≤ (2 ^ 95 * 2) * 1 := Nat.mul_le_mul_right 1 (Nat.le_of_lt a.mantissa_lt)
        _ ≤ 2 ^ 95 * 2 * 10 ^ a.scale := Nat.mul_le_mul_left _ (Nat.pow_pos (by decide))
        _ = 2 ^ 95 * (2 * 10 ^ a.scale) := Nat.mul_assoc ..
    have hpos : 0 < two.mantissa * Nat.pow 10 a.scale := Nat.mul_pos (by decide) (Nat.pow_pos (by decide))
    obtain ⟨c, hc, hnear⟩ := near_nearest? (a.negative != two.negative) (Nat.le_refl scaleLimit) hpos
      (by decide : 2 ^ 95 < mantissaLimit) hwithin
    refine ⟨c.trimTo _, congrArg (Option.map _) hc, ?_⟩
    have hvalue : a.toRat / 2 = signedRat (a.negative != two.negative)
        ((a.mantissa * Nat.pow 10 two.scale : Nat) / (two.mantissa * Nat.pow 10 a.scale : Nat)) := by
      have hsign : (a.negative != two.negative) = a.negative := Bool.xor_false a.negative
      rw [toRat_eq_signedRat a, hsign, ← signedRat_div]
      congr 1
      change (a.mantissa : ℚ) / 10 ^ a.scale / 2 = (a.mantissa * 1 : Nat) / (2 * 10 ^ a.scale : Nat)
      push_cast
      field_simp
    rw [toRat_trimTo, hvalue]
    exact hnear

end Decimal

end KeyboardPlate
