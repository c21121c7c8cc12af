import KeyboardPlate.Key
import KeyboardPlate.Proofs.Decimal.Value

/-!
# Sines and cosines are of bounded magnitude

The Taylor sums are only taken of angles of at most one in radians, so that none of their fourteen terms is
longer than one. A point turned about another stays in range if it is not too far away, and so does the middle
of a key.
-/

set_option autoImplicit false

namespace KeyboardPlate

namespace Decimal

variable {a b x : Decimal} {m n : Nat}

/-! ## Taylor sums -/

theorem factorial_bounds : ∀ n < 28, 0 < factorial n ∧ factorial n < mantissaLimit := by decide

theorem exists_ofNat? (h : n < mantissaLimit) :
    ∃ d, ofNat? n = some d ∧ d.mantissa = n ∧ d.scale = 0 := by
  unfold ofNat?
  rw [fit?_of_lt false h (Nat.zero_le _)]
  exact ⟨_, rfl, rfl, rfl⟩

theorem Fits.bind {r : Option Decimal} {f : Decimal → Option Decimal} (h : Fits m r)
    (hf : ∀ c, c.Within m → Fits n (f c)) : Fits n (r >>= f) := by
  obtain ⟨c, rfl, hc⟩ := h
  exact hf c hc

/-- Each step of the fold adds at most `d` to the bound. -/
theorem fits_foldlM {β : Type} {f : Decimal → β → Option Decimal} {xs : List β} {d : Nat}
    (hf : ∀ y ∈ xs, ∀ c k, c.Within k → k + d < mantissaLimit → Fits (k + d) (f c y))
    (ha : a.Within n) (hn : n + d * xs.length < mantissaLimit) : Fits (n + d * xs.length) (xs.foldlM f a) := by
  induction xs generalizing a n with
  | nil => exact ⟨a, rfl, ha⟩
  | cons y xs ih =>
    have hlength : n + d * (y :: xs).length = n + d + d * xs.length := by
      rw [List.length_cons, Nat.mul_succ]
      omega
    rw [hlength] at hn ⊢
    rw [List.foldlM_cons]
    apply (hf y List.mem_cons_self a n ha (by omega)).bind
    intro c hc
    apply ih _ hc hn
    intro z hz
    exact hf z (List.mem_cons_of_mem y hz)

theorem Within.normalize (h : a.Within n) : a.normalize.Within n := by
  unfold Decimal.normalize
  split
  · exact Nat.zero_le _
  · exact h.trimTo 0

theorem fits_product {square : Decimal} (h : square.Within 1) (n : Nat) :
    Fits 1 ((List.replicate n square).foldlM mul? one) := by
  have hstep : ∀ y ∈ List.replicate n square, ∀ (c : Decimal) k, c.Within k → k + 0 < mantissaLimit →
      Fits (k + 0) (c.mul? y) := by
    intro y hy c k hc hk
    rw [List.eq_of_mem_replicate hy]
    simpa using hc.mul? h (by simpa using hk)
  have hproduct := fits_foldlM (n := 1) hstep (by decide : one.Within 1) (by simp)
  simpa using hproduct

theorem Within.fits_pow? (h : x.Within 1) (n : Nat) : Fits 1 (x.pow? n) := by
  have hsquare : Fits 1 (x.mul? x) := h.mul? h (by decide)
  unfold pow?
  split
  · exact ⟨one, rfl, by decide⟩
  · exact ⟨x, rfl, h⟩
  · exact hsquare
  · split
    · exact ⟨zero, rfl, by decide⟩
    · apply hsquare.bind
      intro square hs
      apply (fits_product hs (n / 2)).bind
      intro even he
      dsimp only
      split
      · apply (h.mul? he (by decide)).bind
        intro power hp
        exact ⟨power.normalize, rfl, hp.normalize⟩
      · exact ⟨even.normalize, rfl, he.normalize⟩

theorem Within.fits_seriesTerm? (h : x.Within 1) (hn : n < 28) : Fits 1 (seriesTerm? x n) := by
  obtain ⟨hpos, hlt⟩ := factorial_bounds n hn
  obtain ⟨d, hd, hmantissa, hscale⟩ := exists_ofNat? hlt
  have hone : 10 ^ d.scale ≤ d.mantissa := by
    rw [hmantissa, hscale]
    exact hpos
  apply (h.fits_pow? n).bind
  intro power hp
  rw [hd]
  exact hp.div? hone (by decide)

theorem Within.fits_seriesSum? (h : x.Within 1) {degrees : List Nat} (hdegrees : ∀ n ∈ degrees, n < 28)
    (hlength : degrees.length < mantissaLimit) : Fits degrees.length (seriesSum? x degrees) := by
  have hsum : Fits (0 + 1 * degrees.zipIdx.length) (seriesSum? x degrees) := by
    apply fits_foldlM
    · intro p hp sum k hsum hk
      apply (h.fits_seriesTerm? (hdegrees p.1 (List.fst_mem_of_mem_zipIdx hp))).bind
      intro term hterm
      split
      · exact hsum.add? hterm hk
      · exact hsum.sub? hterm hk
    · exact Nat.zero_le _
    · simpa using hlength
  simpa using hsum

theorem Within.smallSin (h : x.Within 1) : (smallSin x).Within 14 := by
  obtain ⟨c, hc, hwithin⟩ : Fits 14 (seriesSum? x ((List.range terms).map fun n => 2 * n + 1)) :=
    h.fits_seriesSum? (by decide) (by decide)
  unfold Decimal.smallSin
  rw [hc]
  exact hwithin

theorem Within.smallCos (h : x.Within 1) : (smallCos x).Within 14 := by
  obtain ⟨c, hc, hwithin⟩ : Fits 14 (seriesSum? x ((List.range terms).map (2 * ·))) :=
    h.fits_seriesSum? (by decide) (by decide)
  unfold Decimal.smallCos
  rw [hc]
  exact hwithin

/-! ## Angles brought into the first eighth of a turn -/

theorem negative_abs (x : Decimal) : (if x.negative then -x else x).negative = false := by
  split
  · rename_i h
    exact congrArg (!·) h
  · rename_i h
    exact Bool.eq_false_of_not_eq_true h

theorem toRat_abs (x : Decimal) : (if x.negative then -x else x).toRat = |x.toRat| := by
  rw [← abs_of_nonneg (toRat_nonneg (negative_abs x))]
  split
  · rw [toRat_neg, abs_neg]
  · rfl

theorem toRat_angleDifference (h : |a.toRat - b.toRat| ≤ 7) :
    (angleDifference a b).toRat = a.toRat - b.toRat := by
  obtain ⟨c, hc, hvalue⟩ := exists_sub?_toRat h
  unfold angleDifference
  rw [hc]
  exact hvalue

theorem within_one (h : |a.toRat| ≤ 1) : a.Within 1 := within_iff_toRat.mpr (by exact_mod_cast h)

theorem toRat_turn : turn.toRat = 62831853071795864769252867666 / 10 ^ 28 := by norm_num [toRat, signed, turn]
theorem toRat_pi : pi.toRat = 31415926535897932384626433833 / 10 ^ 28 := by norm_num [toRat, signed, pi]
theorem toRat_quarterTurn : quarterTurn.toRat = 15707963267948966192313216916 / 10 ^ 28 := by
  norm_num [toRat, signed, quarterTurn]
theorem toRat_eighthTurn : eighthTurn.toRat = 7853981633974483096156608458 / 10 ^ 28 := by
  norm_num [toRat, signed, eighthTurn]

/-- What the sums are taken of, for an angle of about a quarter turn at most. -/
theorem within_one_of_quarter {y : Decimal} (hnonneg : 0 ≤ y.toRat) (h : y.toRat ≤ 8 / 5) :
    (eighthTurn < y → (angleDifference quarterTurn y).Within 1) ∧ (¬ eighthTurn < y → y.Within 1) := by
  constructor
  · intro hlt
    rw [lt_iff_toRat, toRat_eighthTurn] at hlt
    have hdiff : |quarterTurn.toRat - y.toRat| ≤ 1 := by
      rw [toRat_quarterTurn]
      exact abs_le.mpr ⟨by linarith, by linarith⟩
    apply within_one
    rw [toRat_angleDifference (hdiff.trans (by norm_num))]
    exact hdiff
  · intro hle
    rw [lt_iff_toRat, toRat_eighthTurn, not_lt] at hle
    apply within_one
    exact abs_le.mpr ⟨by linarith, by linarith⟩

theorem within_quarterSin (h : |x.toRat| ≤ 8 / 5) : (quarterSin x).Within 14 := by
  have habs := toRat_abs x
  unfold quarterSin
  generalize (if x.negative then -x else x) = y at habs
  obtain ⟨hlarge, hsmall⟩ := within_one_of_quarter (habs ▸ abs_nonneg _) (habs ▸ h)
  have hvalue : (if eighthTurn < y then smallCos (angleDifference quarterTurn y) else smallSin y).Within 14 := by
    split
    · rename_i hlt
      exact (hlarge hlt).smallCos
    · rename_i hle
      exact (hsmall hle).smallSin
  split
  · exact Nat.zero_le _
  · dsimp only
    split
    · exact hvalue.neg
    · exact hvalue

theorem within_quarterCos (h : |x.toRat| ≤ 8 / 5) : (quarterCos x).Within 14 := by
  have habs := toRat_abs x
  unfold quarterCos
  generalize (if x.negative then -x else x) = y at habs
  obtain ⟨hlarge, hsmall⟩ := within_one_of_quarter (habs ▸ abs_nonneg _) (habs ▸ h)
  split
  · decide
  · dsimp only
    split
    · rename_i hlt
      exact (hlarge hlt).smallSin
    · rename_i hle
      exact (hsmall hle).smallCos

/-- What is left of an angle of about half a turn at most. -/
theorem quarter_of_half (hnonneg : 0 ≤ x.toRat) (h : x.toRat ≤ 63 / 20) :
    |(angleDifference quarterTurn x).toRat| ≤ 8 / 5 := by
  have hdiff : |quarterTurn.toRat - x.toRat| ≤ 8 / 5 := by
    rw [toRat_quarterTurn]
    exact abs_le.mpr ⟨by linarith, by linarith⟩
  rw [toRat_angleDifference (hdiff.trans (by norm_num))]
  exact hdiff

theorem abs_le_of_not_eighthTurn_lt (hnonneg : 0 ≤ x.toRat) (h : ¬ eighthTurn < x) : |x.toRat| ≤ 8 / 5 := by
  rw [lt_iff_toRat, toRat_eighthTurn, not_lt] at h
  exact abs_le.mpr ⟨by linarith, by linarith⟩

theorem within_halfSin (hnonneg : 0 ≤ x.toRat) (h : x.toRat ≤ 63 / 20) : (halfSin x).Within 14 := by
  unfold halfSin
  split
  · exact within_quarterCos (quarter_of_half hnonneg h)
  · rename_i hle
    exact within_quarterSin (abs_le_of_not_eighthTurn_lt hnonneg hle)

theorem within_halfCos (hnonneg : 0 ≤ x.toRat) (h : x.toRat ≤ 63 / 20) : (halfCos x).Within 14 := by
  unfold halfCos
  split
  · exact within_quarterSin (quarter_of_half hnonneg h)
  · rename_i hle
    exact within_quarterCos (abs_le_of_not_eighthTurn_lt hnonneg hle)

/-- A remainder fits at the last scale if the divisor does. -/
theorem exists_rem? (ha : a.negative = false) (hb : 0 < b.mantissa) (hscale : b.scale = scaleLimit) :
    ∃ r, a.rem? b = some r ∧ 0 ≤ r.toRat ∧ r.toRat ≤ |b.toRat| := by
  have hmax : max a.scale b.scale = b.scale := Nat.max_eq_right (hscale ▸ a.scale_le)
  have hone : b.mantissa * Nat.pow 10 0 = b.mantissa := Nat.mul_one _
  have hzero : ¬ b.isZero = true := by
    rw [isZero_iff]
    omega
  unfold rem?
  simp only [if_neg hzero, hmax, Nat.sub_self, ha, hone]
  have hmod := Nat.mod_lt (a.mantissa * Nat.pow 10 (b.scale - a.scale)) hb
  generalize a.mantissa * Nat.pow 10 (b.scale - a.scale) % b.mantissa = m at hmod
  rw [fit?_of_lt false (hmod.trans b.mantissa_lt) b.scale_le]
  refine ⟨_, rfl, toRat_nonneg rfl, ?_⟩
  apply (le_abs_self _).trans
  rw [abs_toRat, abs_toRat]
  apply div_le_div_of_nonneg_right _ (by positivity)
  exact_mod_cast hmod.le

theorem withinTurn_bounds (h : x.negative = false) :
    0 ≤ (withinTurn x).toRat ∧ (withinTurn x).toRat ≤ turn.toRat := by
  unfold withinTurn
  split
  · obtain ⟨r, hr, hlow, hhigh⟩ := exists_rem? (b := turn) h (by decide) rfl
    rw [hr]
    exact ⟨hlow, hhigh.trans_eq (abs_of_nonneg (toRat_nonneg rfl))⟩
  · rename_i hlt
    rw [le_iff_toRat, not_le] at hlt
    exact ⟨toRat_nonneg h, hlt.le⟩

/-- What is left of an angle of at most a turn after half a turn. -/
theorem half_of_turn {y : Decimal} (h : y.toRat ≤ turn.toRat) (hpi : pi ≤ y) :
    0 ≤ (angleDifference y pi).toRat ∧ (angleDifference y pi).toRat ≤ 63 / 20 := by
  rw [le_iff_toRat, toRat_pi] at hpi
  rw [toRat_turn] at h
  rw [toRat_angleDifference, toRat_pi]
  · exact ⟨by linarith, by linarith⟩
  · rw [toRat_pi]
    exact abs_le.mpr ⟨by linarith, by linarith⟩

theorem le_of_not_pi_le {y : Decimal} (h : ¬ pi ≤ y) : y.toRat ≤ 63 / 20 := by
  rw [le_iff_toRat, toRat_pi, not_le] at h
  linarith

theorem sin_within (x : Decimal) : (sin x).Within 14 := by
  have hsign := negative_abs x
  unfold sin
  generalize (if x.negative then -x else x) = y at hsign
  obtain ⟨hnonneg, hturn⟩ := withinTurn_bounds hsign
  generalize withinTurn y = z at hnonneg hturn
  have hvalue : (if pi ≤ z then -halfSin (angleDifference z pi) else halfSin z).Within 14 := by
    split
    · rename_i hpi
      obtain ⟨hlow, hhigh⟩ := half_of_turn hturn hpi
      exact (within_halfSin hlow hhigh).neg
    · rename_i hpi
      exact within_halfSin hnonneg (le_of_not_pi_le hpi)
  dsimp only
  split
  · exact hvalue.neg
  · exact hvalue

theorem cos_within (x : Decimal) : (cos x).Within 14 := by
  have hsign := negative_abs x
  unfold cos
  generalize (if x.negative then -x else x) = y at hsign
  obtain ⟨hnonneg, hturn⟩ := withinTurn_bounds hsign
  generalize withinTurn y = z at hnonneg hturn
  dsimp only
  split
  · rename_i hpi
    obtain ⟨hlow, hhigh⟩ := half_of_turn hturn hpi
    exact (within_halfCos hlow hhigh).neg
  · rename_i hpi
    exact within_halfCos hnonneg (le_of_not_pi_le hpi)

/-! ## Turned points -/

/-- A point turned about another keeps a bound on all coordinates up to a factor. -/
theorem exists_rotate? {x y degrees cx cy : Decimal} (hx : x.Within n) (hy : y.Within n) (hcx : cx.Within n)
    (hcy : cy.Within n) (hn : 57 * n < mantissaLimit) :
    ∃ p, rotate? x y degrees cx cy = some p ∧ p.1.Within (57 * n) ∧ p.2.Within (57 * n) := by
  unfold rotate?
  split
  · exact ⟨(x, y), rfl, hx.mono (by omega), hy.mono (by omega)⟩
  · have hs := sin_within (radians degrees)
    have hc := cos_within (radians degrees)
    generalize sin (radians degrees) = s at hs
    generalize cos (radians degrees) = c at hc
    obtain ⟨dx, hdx, hdx'⟩ := hx.sub? hcx (by omega)
    obtain ⟨dy, hdy, hdy'⟩ := hy.sub? hcy (by omega)
    obtain ⟨xc, hxc, hxc'⟩ := hdx'.mul? hc (by omega)
    obtain ⟨ys, hys, hys'⟩ := hdy'.mul? hs (by omega)
    obtain ⟨xs, hxs, hxs'⟩ := hdx'.mul? hs (by omega)
    obtain ⟨yc, hyc, hyc'⟩ := hdy'.mul? hc (by omega)
    obtain ⟨tx, htx, htx'⟩ := hxc'.sub? hys' (by omega)
    obtain ⟨ty, hty, hty'⟩ := hxs'.add? hyc' (by omega)
    obtain ⟨rx, hrx, hrx'⟩ := htx'.add? hcx (by omega)
    obtain ⟨ry, hry, hry'⟩ := hty'.add? hcy (by omega)
    refine ⟨(rx, ry), ?_, hrx'.mono (by omega), hry'.mono (by omega)⟩
    simp only [hdx, hdy, hxc, hys, hxs, hyc, htx, hty, hrx, hry, Option.bind_eq_bind, Option.bind_some]
    rfl

end Decimal

/-- The middle of a placement of moderate size. -/
theorem Placement.exists_center? {p : Placement} {n m : Nat} (hx : p.x.Within n) (hy : p.y.Within n)
    (hwidth : p.width.Within (2 * m)) (hheight : p.height.Within (2 * m)) (hrx : p.rotationX.Within n)
    (hry : p.rotationY.Within n) (hfits : 57 * (n + m) < Decimal.mantissaLimit) :
    ∃ c, p.center? = some c ∧ c.1.Within (57 * (n + m)) ∧ c.2.Within (57 * (n + m)) := by
  obtain ⟨halfWidth, hw, hw'⟩ := Decimal.Within.half? hwidth (by omega)
  obtain ⟨halfHeight, hh, hh'⟩ := Decimal.Within.half? hheight (by omega)
  obtain ⟨cx, hcx, hcx'⟩ := hx.add? hw' (by omega)
  obtain ⟨cy, hcy, hcy'⟩ := hy.add? hh' (by omega)
  unfold center?
  simp only [hw, hh, hcx, hcy, Option.bind_eq_bind, Option.bind_some]
  exact Decimal.exists_rotate? hcx' hcy' (hrx.mono (Nat.le_add_right n m)) (hry.mono (Nat.le_add_right n m)) hfits

end KeyboardPlate
