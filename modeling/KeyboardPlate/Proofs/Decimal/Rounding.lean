import KeyboardPlate.Proofs.Decimal.Value

/-!
# Rounding keeps the order

A result that is rounded stays on its side of every decimal with no more fraction digits than were asked for.
So it keeps its sign, a sum is on the same side of its terms as the exact one, and it is negative only where
the exact one is.
-/

set_option autoImplicit false

namespace KeyboardPlate

/-! ## Quotients -/

section Quotients
variable {tie : Tie} {n d k : Nat}

theorem le_roundDiv (hd : 0 < d) (h : k * d ≤ n) : k ≤ roundDiv tie n d := by
  have hk : k ≤ n / d := (Nat.le_div_iff_mul_le hd).mpr h
  unfold roundDiv
  split
  · exact Nat.le_succ_of_le hk
  · exact hk

/-- More than a half above a number rounds to the next one at least. -/
theorem succ_le_roundDiv (hd : 0 < d) (h : (2 * k + 1) * d < 2 * n) : k + 1 ≤ roundDiv tie n d := by
  have hn : d * (n / d) + n % d = n := Nat.div_add_mod n d
  have hk : k ≤ n / d := by
    apply (Nat.le_div_iff_mul_le hd).mpr
    have hsplit : (2 * k + 1) * d = 2 * (k * d) + d := by ring
    omega
  unfold roundDiv
  rcases Nat.lt_or_eq_of_le hk with hlt | heq
  · split
    · omega
    · exact hlt
  · -- the quotient is the number itself, so the remainder is more than half the divisor
    have hup : d < 2 * (n % d) := by
      rw [← heq, Nat.mul_comm] at hn
      have hsplit : (2 * k + 1) * d = 2 * (k * d) + d := by ring
      omega
    rw [if_pos (Or.inl hup), ← heq]

/-- What rounds to a number or above it is at most a half below. -/
theorem le_of_le_roundDiv (hd : 0 < d) (h : k ≤ roundDiv tie n d) : 2 * k * d ≤ 2 * n + d := by
  have hn : d * (n / d) + n % d = n := Nat.div_add_mod n d
  have hsplit : ∀ q, 2 * q * d = 2 * (d * q) := fun q => by ring
  unfold roundDiv at h
  split at h
  · rename_i hround
    have hk := Nat.mul_le_mul_left d h
    rw [Nat.mul_add, Nat.mul_one] at hk
    rw [hsplit]
    omega
  · have hk := Nat.mul_le_mul_left d h
    rw [hsplit]
    omega

end Quotients

namespace Decimal

variable {a b c r x : Decimal} {n d s : Nat} {negative : Bool} {hs : s ≤ scaleLimit}

/-! ## The nearest decimal to a quotient -/

/-- The decimal has as many fraction digits as asked for, or with one more its mantissa would not fit. -/
structure Rounds (negative : Bool) (n d s : Nat) (r : Decimal) : Prop where
  scale_le : r.scale ≤ s
  mantissa : r.mantissa = roundDiv .toEven (n * 10 ^ r.scale) d
  sign : r.negative = (negative && r.mantissa != 0)
  longest : r.scale = s ∨ mantissaLimit ≤ roundDiv .toEven (n * 10 ^ (r.scale + 1)) d

theorem rounds_of_nearest? (h : nearest? negative n d s hs = some r) : Rounds negative n d s r := by
  induction s with
  | zero =>
    rw [nearest?] at h
    split at h
    · cases h
      exact ⟨Nat.le_refl 0, rfl, rfl, .inl rfl⟩
    · cases h
  | succ s ih =>
    rw [nearest?] at h
    split at h
    · cases h
      exact ⟨Nat.le_refl _, rfl, rfl, .inl rfl⟩
    · rename_i hlong
      obtain ⟨hscale, hmantissa, hsign, hlongest⟩ := ih h
      refine ⟨Nat.le_succ_of_le hscale, hmantissa, hsign, .inr ?_⟩
      rcases hlongest with heq | hlongest
      · rw [heq]
        exact Nat.le_of_not_lt hlong
      · exact hlongest

namespace Rounds

theorem toRat_eq (h : Rounds negative n d s r) : r.toRat = signedRat negative |r.toRat| := by
  rw [abs_toRat]
  exact toRat_of_parts rfl h.sign

/-- The magnitude does not sink below that of a decimal. -/
theorem mantissa_ge (h : Rounds negative n d s r) (hd : 0 < d) (hx : x.scale ≤ s)
    (hle : x.mantissa * d ≤ n * 10 ^ x.scale) : x.mantissa * 10 ^ r.scale ≤ r.mantissa * 10 ^ x.scale := by
  rcases le_or_gt x.scale r.scale with hshort | hlong
  · obtain ⟨k, hk⟩ := Nat.exists_eq_add_of_le hshort
    have hround : x.mantissa * 10 ^ k ≤ r.mantissa := by
      rw [h.mantissa, hk]
      apply le_roundDiv hd
      calc x.mantissa * 10 ^ k * d = x.mantissa * d * 10 ^ k := by ring
        _ ≤ n * 10 ^ x.scale * 10 ^ k := Nat.mul_le_mul_right _ hle
        _ = n * 10 ^ (x.scale + k) := by rw [Nat.pow_add, Nat.mul_assoc]
    calc x.mantissa * 10 ^ r.scale = x.mantissa * 10 ^ k * 10 ^ x.scale := by rw [hk, Nat.pow_add]; ring
      _ ≤ r.mantissa * 10 ^ x.scale := Nat.mul_le_mul_right _ hround
  · -- One more digit does not fit, so the mantissa is at least a tenth of the first that does not.
    have hlongest : mantissaLimit ≤ roundDiv .toEven (n * 10 ^ (r.scale + 1)) d := by
      rcases h.longest with heq | hlongest
      · omega
      · exact hlongest
    have hlimit : mantissaLimit = 79228162514264337593543950336 := rfl
    have hdigit : n * 10 ^ (r.scale + 1) = 10 * (n * 10 ^ r.scale) := by ring
    have hlarge := le_of_le_roundDiv hd hlongest
    rw [hdigit, hlimit] at hlarge
    have htenth : 7922816251426433759354395033 + 1 ≤ r.mantissa := by
      rw [h.mantissa]
      apply succ_le_roundDiv hd
      omega
    have hfits := x.mantissa_lt
    calc x.mantissa * 10 ^ r.scale ≤ r.mantissa * 10 * 10 ^ r.scale := Nat.mul_le_mul_right _ (by omega)
      _ = r.mantissa * 10 ^ (r.scale + 1) := by rw [Nat.pow_succ]; ring
      _ ≤ r.mantissa * 10 ^ x.scale :=
        Nat.mul_le_mul_left _ (Nat.pow_le_pow_right (by decide) (Nat.succ_le_of_lt hlong))

/-- The magnitude does not rise above that of a decimal. -/
theorem mantissa_le (h : Rounds negative n d s r) (hd : 0 < d) (hx : x.scale ≤ s)
    (hle : n * 10 ^ x.scale ≤ x.mantissa * d) : r.mantissa * 10 ^ x.scale ≤ x.mantissa * 10 ^ r.scale := by
  rcases le_or_gt x.scale r.scale with hshort | hlong
  · obtain ⟨k, hk⟩ := Nat.exists_eq_add_of_le hshort
    have hround : r.mantissa ≤ x.mantissa * 10 ^ k := by
      rw [h.mantissa, hk]
      apply roundDiv_le hd
      calc n * 10 ^ (x.scale + k) = n * 10 ^ x.scale * 10 ^ k := by rw [Nat.pow_add, Nat.mul_assoc]
        _ ≤ x.mantissa * d * 10 ^ k := Nat.mul_le_mul_right _ hle
        _ = x.mantissa * 10 ^ k * d := by ring
    calc r.mantissa * 10 ^ x.scale ≤ x.mantissa * 10 ^ k * 10 ^ x.scale := Nat.mul_le_mul_right _ hround
      _ = x.mantissa * 10 ^ r.scale := by rw [hk, Nat.pow_add]; ring
  · -- With as many digits as the other has, the mantissa would be no larger, and fit.
    have hfits : roundDiv .toEven (n * 10 ^ (r.scale + 1)) d ≤ x.mantissa := by
      apply roundDiv_le hd
      calc n * 10 ^ (r.scale + 1) ≤ n * 10 ^ x.scale :=
            Nat.mul_le_mul_left _ (Nat.pow_le_pow_right (by decide) (Nat.succ_le_of_lt hlong))
        _ ≤ x.mantissa * d := hle
    have hlimit := x.mantissa_lt
    rcases h.longest with heq | hlongest
    · omega
    · omega

theorem abs_ge (h : Rounds negative n d s r) (hd : 0 < d) (hx : x.scale ≤ s) (hle : |x.toRat| ≤ n / d) :
    |x.toRat| ≤ |r.toRat| := by
  have hpos : (0 : ℚ) < d := Nat.cast_pos.mpr hd
  rw [abs_toRat, div_le_div_iff₀ (by positivity) hpos] at hle
  rw [abs_toRat, abs_toRat, div_le_div_iff₀ (by positivity) (by positivity)]
  exact_mod_cast h.mantissa_ge hd hx (by exact_mod_cast hle)

theorem abs_le (h : Rounds negative n d s r) (hd : 0 < d) (hx : x.scale ≤ s) (hle : (n : ℚ) / d ≤ |x.toRat|) :
    |r.toRat| ≤ |x.toRat| := by
  have hpos : (0 : ℚ) < d := Nat.cast_pos.mpr hd
  rw [abs_toRat, div_le_div_iff₀ hpos (by positivity)] at hle
  rw [abs_toRat, abs_toRat, div_le_div_iff₀ (by positivity) (by positivity)]
  exact_mod_cast h.mantissa_le hd hx (by exact_mod_cast hle)

theorem le_of_le (h : Rounds negative n d s r) (hd : 0 < d) (hx : x.scale ≤ s)
    (hle : x.toRat ≤ signedRat negative (n / d)) : x.toRat ≤ r.toRat := by
  have hnonneg : (0 : ℚ) ≤ n / d := by positivity
  rw [h.toRat_eq]
  cases negative with
  | false =>
    change x.toRat ≤ (n : ℚ) / d at hle
    change x.toRat ≤ |r.toRat|
    rcases le_total x.toRat 0 with hneg | hpos
    · exact hneg.trans (abs_nonneg _)
    · have hmagnitude := h.abs_ge hd hx (by rwa [abs_of_nonneg hpos])
      rwa [abs_of_nonneg hpos] at hmagnitude
  | true =>
    change x.toRat ≤ -((n : ℚ) / d) at hle
    change x.toRat ≤ -|r.toRat|
    have hneg : x.toRat ≤ 0 := by linarith
    have hmagnitude := h.abs_le hd hx (by rw [abs_of_nonpos hneg]; linarith)
    rw [abs_of_nonpos hneg] at hmagnitude
    linarith

theorem ge_of_ge (h : Rounds negative n d s r) (hd : 0 < d) (hx : x.scale ≤ s)
    (hge : signedRat negative (n / d) ≤ x.toRat) : r.toRat ≤ x.toRat := by
  have hnonneg : (0 : ℚ) ≤ n / d := by positivity
  rw [h.toRat_eq]
  cases negative with
  | false =>
    change (n : ℚ) / d ≤ x.toRat at hge
    change |r.toRat| ≤ x.toRat
    have hpos : 0 ≤ x.toRat := hnonneg.trans hge
    have hmagnitude := h.abs_le hd hx (by rwa [abs_of_nonneg hpos])
    rwa [abs_of_nonneg hpos] at hmagnitude
  | true =>
    change -((n : ℚ) / d) ≤ x.toRat at hge
    change -|r.toRat| ≤ x.toRat
    rcases le_total 0 x.toRat with hpos | hneg
    · linarith [abs_nonneg r.toRat]
    · have hmagnitude := h.abs_ge hd hx (by rw [abs_of_nonpos hneg]; linarith)
      rw [abs_of_nonpos hneg] at hmagnitude
      linarith

theorem nonneg (h : Rounds false n d s r) : 0 ≤ r.toRat := by
  rw [h.toRat_eq]
  exact abs_nonneg _

end Rounds

/-! ## Products and halves -/

theorem nonneg_iff : 0 ≤ a ↔ 0 ≤ a.toRat := by
  have hzero : (0 : Decimal).toRat = 0 := toRat_of_isZero rfl
  rw [le_iff_toRat, hzero]

theorem pos_iff : 0 < a ↔ 0 < a.toRat := by
  have hzero : (0 : Decimal).toRat = 0 := toRat_of_isZero rfl
  rw [lt_iff_toRat, hzero]

theorem negative_of_nonneg (h : 0 ≤ a.toRat) (hzero : ¬ a.isZero = true) : a.negative = false := by
  rw [isZero_iff] at hzero
  by_contra hsign
  rw [Bool.not_eq_false] at hsign
  have hpos : (0 : ℚ) < a.mantissa / 10 ^ a.scale := by
    have hmantissa : (0 : ℚ) < a.mantissa := by exact_mod_cast Nat.pos_of_ne_zero hzero
    positivity
  rw [toRat_eq_signedRat, hsign] at h
  change 0 ≤ -((a.mantissa : ℚ) / 10 ^ a.scale) at h
  linarith

theorem mul?_nonneg (ha : 0 ≤ a.toRat) (hb : 0 ≤ b.toRat) (h : a.mul? b = some c) : 0 ≤ c.toRat := by
  unfold mul? at h
  split at h
  · cases h
    exact toRat_nonneg rfl
  · rename_i hzero
    rw [Bool.or_eq_true, not_or] at hzero
    rw [negative_of_nonneg ha hzero.1, negative_of_nonneg hb hzero.2] at h
    exact (rounds_of_nearest? h).nonneg

theorem half?_nonneg (ha : 0 ≤ a.toRat) (h : a.half? = some c) : 0 ≤ c.toRat := by
  unfold half? div? at h
  rw [if_neg (by decide)] at h
  split at h
  · cases h
    exact toRat_nonneg rfl
  · rename_i hzero
    obtain ⟨r, hr, rfl⟩ := Option.map_eq_some_iff.mp h
    rw [negative_of_nonneg ha hzero] at hr
    rw [toRat_trimTo]
    exact (rounds_of_nearest? hr).nonneg

/-! ## Sums -/

theorem sumAt?_eq_some {p q : Int} (hs : s ≤ scaleLimit) (h : sumAt? p q s = some c) :
    c.toRat = 0 ∧ p + q = 0 ∨ Rounds (decide (p + q < 0)) (p + q).natAbs (10 ^ s) s c := by
  unfold sumAt? at h
  split at h
  · rename_i hzero
    obtain ⟨r, hr, rfl⟩ := Option.map_eq_some_iff.mp h
    rw [fit?_of_lt false (by decide) hs] at hr
    cases hr
    exact .inl ⟨toRat_of_isZero rfl, hzero.1⟩
  · right
    have hmin : min s scaleLimit = s := Nat.min_eq_left hs
    have hrounds := rounds_of_nearest? h
    rw [hmin] at hrounds
    exact hrounds

/-- Where a sum is rounded, the exact one is a multiple of the last digit asked for. -/
theorem add?_eq_some (h : a.add? b = some c) :
    c.toRat = a.toRat + b.toRat ∨ ∃ t : Int, a.toRat + b.toRat = t / 10 ^ max a.scale b.scale ∧
      Rounds (decide (t < 0)) t.natAbs (10 ^ max a.scale b.scale) (max a.scale b.scale) c := by
  unfold add? at h
  split at h
  · rename_i hzero
    cases h
    rw [toRat_of_isZero hzero, zero_add]
    exact .inl rfl
  · split at h
    · rename_i hzero
      cases h
      rw [toRat_of_isZero hzero, add_zero]
      exact .inl rfl
    · have hleft := toRat_signed_mul (a := a) (Nat.le_max_left a.scale b.scale)
      have hright := toRat_signed_mul (a := b) (Nat.le_max_right a.scale b.scale)
      have hscale : max a.scale b.scale ≤ scaleLimit := Nat.max_le.mpr ⟨a.scale_le, b.scale_le⟩
      dsimp only at h
      generalize max a.scale b.scale = s at h hleft hright hscale ⊢
      generalize a.signed * _ = p at h hleft
      generalize b.signed * _ = q at h hright
      have hsum : a.toRat + b.toRat = ((p + q : Int) : ℚ) / 10 ^ s := by
        rw [← hleft, ← hright, ← add_div, Int.cast_add]
      rcases sumAt?_eq_some hscale h with ⟨hc, hzero⟩ | hrounds
      · left
        rw [hc, hsum, hzero, Int.cast_zero, zero_div]
      · exact .inr ⟨p + q, hsum, hrounds⟩

theorem signedRat_natAbs_div (t : Int) (s : Nat) :
    signedRat (decide (t < 0)) ((t.natAbs : ℚ) / (10 ^ s : Nat)) = t / 10 ^ s := by
  rw [signedRat_div, signedRat_natAbs]
  push_cast
  rfl

theorem le_add? (h : a.add? b = some c) (hx : x.scale ≤ max a.scale b.scale) (hle : x.toRat ≤ a.toRat + b.toRat) :
    x.toRat ≤ c.toRat := by
  rcases add?_eq_some h with hc | ⟨t, ht, hrounds⟩
  · rwa [hc]
  · apply hrounds.le_of_le (Nat.pow_pos (by decide)) hx
    rwa [signedRat_natAbs_div, ← ht]

theorem add?_le (h : a.add? b = some c) (hx : x.scale ≤ max a.scale b.scale) (hge : a.toRat + b.toRat ≤ x.toRat) :
    c.toRat ≤ x.toRat := by
  rcases add?_eq_some h with hc | ⟨t, ht, hrounds⟩
  · rwa [hc]
  · apply hrounds.ge_of_ge (Nat.pow_pos (by decide)) hx
    rwa [signedRat_natAbs_div, ← ht]

/-- A sum is negative only if the exact one is. -/
theorem add?_neg_iff (h : a.add? b = some c) : c.toRat < 0 ↔ a.toRat + b.toRat < 0 := by
  have hzero : zero.toRat = 0 := toRat_of_isZero rfl
  constructor
  · intro hneg
    by_contra hnot
    have hle := le_add? (x := zero) h (Nat.zero_le _) (by rw [hzero]; exact not_lt.mp hnot)
    rw [hzero] at hle
    exact absurd hneg (not_lt.mpr hle)
  · intro hneg
    rcases add?_eq_some h with hc | ⟨t, ht, hrounds⟩
    · rwa [hc]
    · -- A negative multiple of the last digit is at most that digit below zero.
      have hscale : max a.scale b.scale ≤ scaleLimit := Nat.max_le.mpr ⟨a.scale_le, b.scale_le⟩
      generalize max a.scale b.scale = s at ht hrounds hscale
      have hpow : (0 : ℚ) < 10 ^ s := by positivity
      let digit : Decimal := ⟨true, 1, s, by decide, hscale⟩
      have hdigit : digit.toRat = -(1 / 10 ^ s) := by
        rw [toRat_eq_signedRat]
        exact congrArg Neg.neg (congrArg (· / 10 ^ s) Nat.cast_one)
      have ht' : t ≤ -1 := by
        rw [ht, div_neg_iff] at hneg
        rcases hneg with ⟨-, hpow'⟩ | ⟨ht', -⟩
        · exact absurd hpow' (not_lt.mpr hpow.le)
        · exact Int.le_sub_one_of_lt (by exact_mod_cast ht')
      have hcast : (t : ℚ) ≤ -1 := by exact_mod_cast ht'
      have hle : c.toRat ≤ digit.toRat := by
        apply hrounds.ge_of_ge (Nat.pow_pos (by decide)) (Nat.le_refl s)
        rw [signedRat_natAbs_div, hdigit, ← neg_div]
        exact div_le_div_of_nonneg_right hcast hpow.le
      apply hle.trans_lt
      rw [hdigit, neg_lt_zero]
      positivity

theorem sub?_eq_some (h : a.sub? b = some c) : a.toRat = 0 ∧ c.toRat = -b.toRat ∨ a.add? (-b) = some c := by
  unfold sub? at h
  split at h
  · rename_i hzero
    left
    split at h
    · rename_i hzero'
      cases h
      rw [toRat_of_isZero hzero, toRat_of_isZero hzero', neg_zero]
      exact ⟨rfl, rfl⟩
    · cases h
      exact ⟨toRat_of_isZero hzero, toRat_neg b⟩
  · exact .inr h

/-- A sum is not below a term to which something is added. -/
theorem add?_nonpos (h : a.add? b = some c) (hsum : a.toRat + b.toRat ≤ 0) : c.toRat ≤ 0 := by
  have hzero : zero.toRat = 0 := toRat_of_isZero rfl
  have hle := add?_le (x := zero) h (Nat.zero_le _) (by rwa [hzero])
  rwa [hzero] at hle

theorem le_add?_left (h : a.add? b = some c) (hb : 0 ≤ b.toRat) : a.toRat ≤ c.toRat :=
  le_add? h (Nat.le_max_left _ _) (le_add_of_nonneg_right hb)

theorem sub?_le_left (h : a.sub? b = some c) (hb : 0 ≤ b.toRat) : c.toRat ≤ a.toRat := by
  rcases sub?_eq_some h with ⟨ha, hc⟩ | h
  · rw [ha, hc]
    linarith
  · apply add?_le h (Nat.le_max_left _ _)
    rw [toRat_neg]
    linarith

theorem sub?_neg_iff (h : a.sub? b = some c) : c.toRat < 0 ↔ a.toRat < b.toRat := by
  rcases sub?_eq_some h with ⟨ha, hc⟩ | h
  · rw [ha, hc, neg_lt_zero]
  · rw [add?_neg_iff h, toRat_neg, ← sub_eq_add_neg, sub_neg]

end Decimal

end KeyboardPlate
