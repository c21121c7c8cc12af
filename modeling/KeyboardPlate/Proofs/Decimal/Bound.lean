import KeyboardPlate.Decimal.Functions
import Mathlib.Tactic.Ring

/-!
# Decimals of bounded magnitude

A result has a decimal as soon as some whole number that fits bounds its magnitude. Halves always have
one, and so has the angle in radians.
-/

set_option autoImplicit false

namespace KeyboardPlate

theorem roundDiv_le {tie : Tie} {n d k : Nat} (hd : 0 < d) (h : n ≤ k * d) : roundDiv tie n d ≤ k := by
  have hk : n / d ≤ k := Nat.div_le_of_le_mul (by rwa [Nat.mul_comm])
  have hn : d * (n / d) + n % d = n := Nat.div_add_mod n d
  unfold roundDiv
  split
  · rename_i hround
    rcases Nat.lt_or_eq_of_le hk with hlt | heq
    · exact hlt
    · -- a quotient that is the bound itself leaves no remainder to round up
      rw [heq, Nat.mul_comm] at hn
      omega
  · exact hk

namespace Decimal

/-- The magnitude of the number is at most `n`. -/
def Within (n : Nat) (a : Decimal) : Prop := a.mantissa ≤ n * 10 ^ a.scale

instance (n : Nat) (a : Decimal) : Decidable (a.Within n) := inferInstanceAs (Decidable (_ ≤ _))

variable {a b : Decimal} {m n : Nat}

theorem Within.mono (h : a.Within m) (hmn : m ≤ n) : a.Within n :=
  Nat.le_trans h (Nat.mul_le_mul_right _ hmn)

theorem Within.neg (h : a.Within n) : (-a).Within n := h

theorem within_of_lt (a : Decimal) {n : Nat} (h : mantissaLimit ≤ n + 1) : a.Within n := by
  have hm : a.mantissa ≤ n := Nat.le_of_lt_succ (Nat.lt_of_lt_of_le a.mantissa_lt h)
  exact Nat.le_trans hm (Nat.le_mul_of_pos_right n (Nat.pow_pos (by decide)))

theorem isZero_iff : a.isZero = true ↔ a.mantissa = 0 := beq_iff_eq

theorem natAbs_signed (a : Decimal) : a.signed.natAbs = a.mantissa := by
  unfold signed
  split
  · rw [Int.natAbs_neg, Int.natAbs_natCast]
  · rw [Int.natAbs_natCast]

/-- The step has a result of magnitude at most `n`. -/
def Fits (n : Nat) (x : Option Decimal) : Prop := ∃ c, x = some c ∧ c.Within n

/-! ## One operation -/

theorem fits_nearest? (negative : Bool) {n d k s : Nat} (hs : s ≤ scaleLimit) (hd : 0 < d)
    (hk : k < mantissaLimit) (h : n ≤ k * d) : Fits k (nearest? negative n d s hs) := by
  have hround : ∀ s, roundDiv .toEven (n * Nat.pow 10 s) d ≤ k * 10 ^ s := by
    intro s
    apply roundDiv_le hd
    calc n * 10 ^ s ≤ k * d * 10 ^ s := Nat.mul_le_mul_right _ h
      _ = k * 10 ^ s * d := by ring
  induction s with
  | zero =>
    have hfits : roundDiv .toEven (n * Nat.pow 10 0) d < mantissaLimit :=
      Nat.lt_of_le_of_lt (by simpa using hround 0) hk
    rw [nearest?, dif_pos hfits]
    exact ⟨_, rfl, hround 0⟩
  | succ s ih =>
    rw [nearest?]
    split
    · exact ⟨_, rfl, hround (s + 1)⟩
    · exact ih (Nat.le_of_succ_le hs)

theorem fits_fit? (negative : Bool) {n k s : Nat} (hk : k < mantissaLimit) (h : n ≤ k * 10 ^ s) :
    Fits k (fit? negative n s) :=
  fits_nearest? negative _ (Nat.pow_pos (by decide)) hk h

theorem fits_sumAt? {p q : Int} {s : Nat} (hp : p.natAbs ≤ m * 10 ^ s) (hq : q.natAbs ≤ n * 10 ^ s)
    (hk : m + n < mantissaLimit) : Fits (m + n) (sumAt? p q s) := by
  have hsum : (p + q).natAbs ≤ (m + n) * 10 ^ s := by
    rw [Nat.add_mul]
    exact Nat.le_trans (Int.natAbs_add_le p q) (Nat.add_le_add hp hq)
  unfold sumAt?
  split
  · obtain ⟨c, hc, hwithin⟩ := fits_fit? false (s := s) hk (Nat.zero_le _)
    rw [hc]
    exact ⟨_, rfl, hwithin⟩
  · exact fits_fit? _ hk hsum

theorem Within.natAbs_le (h : a.Within n) {s : Nat} (hs : a.scale ≤ s) :
    (a.signed * (Nat.pow 10 (s - a.scale) : Nat)).natAbs ≤ n * 10 ^ s := by
  rw [Int.natAbs_mul, natAbs_signed, Int.natAbs_natCast]
  calc a.mantissa * 10 ^ (s - a.scale) ≤ n * 10 ^ a.scale * 10 ^ (s - a.scale) := Nat.mul_le_mul_right _ h
    _ = n * 10 ^ s := by rw [Nat.mul_assoc, ← Nat.pow_add, Nat.add_sub_cancel' hs]

theorem Within.add? (ha : a.Within m) (hb : b.Within n) (hk : m + n < mantissaLimit) :
    Fits (m + n) (a.add? b) := by
  unfold Decimal.add?
  split
  · exact ⟨b, rfl, hb.mono (Nat.le_add_left ..)⟩
  · split
    · exact ⟨a, rfl, ha.mono (Nat.le_add_right ..)⟩
    · exact fits_sumAt? (ha.natAbs_le (Nat.le_max_left ..)) (hb.natAbs_le (Nat.le_max_right ..)) hk

theorem Within.sub? (ha : a.Within m) (hb : b.Within n) (hk : m + n < mantissaLimit) :
    Fits (m + n) (a.sub? b) := by
  unfold Decimal.sub?
  split
  · split
    · exact ⟨b, rfl, hb.mono (Nat.le_add_left ..)⟩
    · exact ⟨-b, rfl, hb.neg.mono (Nat.le_add_left ..)⟩
  · exact ha.add? hb.neg hk

theorem Within.mul? (ha : a.Within m) (hb : b.Within n) (hk : m * n < mantissaLimit) :
    Fits (m * n) (a.mul? b) := by
  unfold Decimal.mul?
  split
  · exact ⟨zero, rfl, Nat.zero_le _⟩
  · apply fits_fit? _ hk
    calc a.mantissa * b.mantissa ≤ m * 10 ^ a.scale * (n * 10 ^ b.scale) := Nat.mul_le_mul ha hb
      _ = m * n * 10 ^ (a.scale + b.scale) := by rw [Nat.pow_add]; ring

theorem dropZeros_within (floor : Nat) {m s k : Nat} (h : m ≤ k * 10 ^ s) :
    (dropZeros floor m s).1 ≤ k * 10 ^ (dropZeros floor m s).2 := by
  induction s generalizing m with
  | zero => exact h
  | succ s ih =>
    rw [dropZeros]
    split
    · apply ih
      apply Nat.div_le_of_le_mul
      calc m ≤ k * 10 ^ (s + 1) := h
        _ = 10 * (k * 10 ^ s) := by rw [Nat.pow_succ]; ring
    · exact h

theorem Within.trimTo (h : a.Within n) (floor : Nat) : (a.trimTo floor).Within n :=
  dropZeros_within floor h

theorem fits_div? {k : Nat} (hb : 0 < b.mantissa) (hk : k < mantissaLimit)
    (h : a.mantissa * 10 ^ b.scale ≤ k * (b.mantissa * 10 ^ a.scale)) : Fits k (a.div? b) := by
  have hpos : ¬ b.isZero = true := by
    rw [isZero_iff]
    omega
  unfold Decimal.div?
  rw [if_neg hpos]
  split
  · exact ⟨zero, rfl, Nat.zero_le _⟩
  · obtain ⟨c, hc, hwithin⟩ := fits_nearest? (a.negative != b.negative) (Nat.le_refl scaleLimit)
      (Nat.mul_pos hb (Nat.pow_pos (by decide))) hk h
    exact ⟨c.trimTo _, congrArg (Option.map _) hc, hwithin.trimTo _⟩

/-- A divisor of magnitude at least one. -/
theorem Within.div? (ha : a.Within n) (hb : 10 ^ b.scale ≤ b.mantissa) (hk : n < mantissaLimit) :
    Fits n (a.div? b) := by
  apply fits_div? (Nat.lt_of_lt_of_le (Nat.pow_pos (by decide)) hb) hk
  calc a.mantissa * 10 ^ b.scale ≤ n * 10 ^ a.scale * b.mantissa := Nat.mul_le_mul ha hb
    _ = n * (b.mantissa * 10 ^ a.scale) := by ring

theorem Within.half? (ha : a.Within (2 * n)) (hk : n < mantissaLimit) : Fits n a.half? := by
  apply fits_div? (by decide) hk
  calc a.mantissa * 1 ≤ 2 * n * 10 ^ a.scale := by rwa [Nat.mul_one]
    _ = n * (2 * 10 ^ a.scale) := by ring

/-! ## Functions -/

theorem fits_half? (a : Decimal) : Fits (2 ^ 95) a.half? :=
  (a.within_of_lt (by decide)).half? (by decide)

theorem fits_radians (degrees : Decimal) : ∃ n, Fits n (do (← degrees.div? 180).mul? pi) := by
  obtain ⟨c, hc, hwithin⟩ : Fits (2 ^ 93) (degrees.div? 180) := by
    apply fits_div? (by decide) (by decide)
    have hall : degrees.Within (2 ^ 93 * 180) := degrees.within_of_lt (by decide)
    calc degrees.mantissa * 1 ≤ 2 ^ 93 * 180 * 10 ^ degrees.scale := by rwa [Nat.mul_one]
      _ = 2 ^ 93 * (180 * 10 ^ degrees.scale) := by ring
  rw [hc]
  exact ⟨2 ^ 93 * 4, hwithin.mul? (by decide) (by decide)⟩

theorem sqrtFrom_within {estimate : Decimal} (h : estimate.Within (2 ^ 95)) (steps : Nat) :
    (sqrtFrom a steps estimate).Within (2 ^ 95) := by
  induction steps generalizing estimate with
  | zero => exact h
  | succ steps ih =>
    -- every estimate but the first is a half
    have hnext : ∀ next, sqrtStep? a estimate = some next → next.Within (2 ^ 95) := by
      intro next hnext
      obtain ⟨quotient, -, hsum⟩ := Option.bind_eq_some_iff.mp hnext
      obtain ⟨sum, -, hhalf⟩ := Option.bind_eq_some_iff.mp hsum
      obtain ⟨half, heq, hwithin⟩ := sum.fits_half?
      rw [hhalf] at heq
      cases heq
      exact hwithin
    rw [sqrtFrom]
    split
    · exact h
    · rename_i next heq
      split
      · exact hnext next heq
      · exact ih (hnext next heq)

/-- The root of a number of at most `2 ^ 95`, if it has one. -/
theorem Within.sqrt? {root : Decimal} (ha : a.Within (2 ^ 95)) (h : a.sqrt? = some root) :
    root.Within (2 ^ 95) := by
  obtain ⟨start, hstart, hwithin⟩ := a.fits_half?
  unfold Decimal.sqrt? at h
  split at h
  · cases h
  · split at h
    · cases h
      exact Nat.zero_le _
    · rw [hstart] at h
      cases h
      apply sqrtFrom_within
      split
      · exact ha
      · exact hwithin

end Decimal

end KeyboardPlate
