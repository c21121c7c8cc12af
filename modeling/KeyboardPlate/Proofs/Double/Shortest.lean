import KeyboardPlate.Proofs.Double.Interval
import Mathlib.Data.Nat.Log

/-!
# Which digits are the shortest

The search for digits starts at the place of the first digit of a double and goes on to finer places, so its first
hit is the coarsest decimal that reads back. No decimal of fewer digits reads back then, and none of as many digits
is nearer. A decimal of at most fifteen digits is told apart by any double with all its bits, so it is that hit.
-/

set_option autoImplicit false

namespace KeyboardPlate.Double

/-! ## Zeros at the end -/

namespace Digits

/-- The number of the digits. -/
def value (d : Digits) : ℚ := d.digits * 10 ^ d.exponent

theorem exists_strip (fuel : Nat) (d : Digits) :
    ∃ j : Nat, d.digits = (d.strip fuel).digits * 10 ^ j ∧ (d.strip fuel).exponent = d.exponent + j := by
  induction fuel generalizing d with
  | zero => exact ⟨0, (Nat.mul_one _).symm, (Int.add_zero _).symm⟩
  | succ fuel ih =>
    rw [strip]
    split
    · rename_i hzero
      obtain ⟨j, hj, hexponent⟩ := ih ⟨d.digits / 10, d.exponent + 1⟩
      have hj : d.digits / 10 = _ := hj
      refine ⟨j + 1, ?_, ?_⟩
      · rw [Nat.pow_succ, ← Nat.mul_assoc, ← hj, Nat.div_mul_cancel (Nat.dvd_of_mod_eq_zero hzero)]
      · rw [hexponent]
        push_cast
        ring
    · exact ⟨0, (Nat.mul_one _).symm, (Int.add_zero _).symm⟩

theorem value_strip (fuel : Nat) (d : Digits) : (d.strip fuel).value = d.value := by
  obtain ⟨j, hdigits, hexponent⟩ := d.exists_strip fuel
  rw [value, value, hexponent, hdigits, zpow_add₀ (by norm_num), zpow_natCast]
  push_cast
  ring

theorem strip_mul_pow {n : Nat} (hn : n % 10 ≠ 0) {fuel j : Nat} (hj : j ≤ fuel) (e : Int) :
    strip fuel ⟨n * 10 ^ j, e⟩ = ⟨n, e + j⟩ := by
  induction fuel generalizing j e with
  | zero =>
    obtain rfl : j = 0 := by omega
    simp [strip]
  | succ fuel ih =>
    cases j with
    | zero => simp [strip, hn]
    | succ j =>
      have hshift : n * 10 ^ (j + 1) = n * 10 ^ j * 10 := by rw [Nat.pow_succ, Nat.mul_assoc]
      rw [strip, if_pos (by rw [hshift, Nat.mul_mod_left]), hshift, Nat.mul_div_cancel _ (by decide),
        ih (by omega)]
      congr 1
      push_cast
      ring

end Digits

/-! ## The search -/

theorem findSome?_range {β : Type} {f : Nat → Option β} {m : Nat} {b : β} (h : (List.range m).findSome? f = some b) :
    ∃ n < m, f n = some b ∧ ∀ j < n, f j = none := by
  induction m with
  | zero => cases h
  | succ m ih =>
    rw [List.range_succ, List.findSome?_append, Option.or_eq_some_iff] at h
    rcases h with h | ⟨hnone, h⟩
    · obtain ⟨n, hn, hb, hbefore⟩ := ih h
      exact ⟨n, by omega, hb, hbefore⟩
    · refine ⟨m, by omega, by simpa using h, fun j hj => ?_⟩
      exact List.findSome?_eq_none_iff.mp hnone j (List.mem_range.mpr hj)

namespace Parts
variable {p : Parts}

/-- The place of the `n`-th digit after the first. -/
def place (p : Parts) (n : Nat) : Int := p.interval.magnitude - n - 1

/-- The first place with a hit, and the hit. -/
structure FirstHit (p : Parts) (n x : Nat) : Prop where
  lt : n < 17
  isHit : p.interval.IsHit (p.place n) x
  shortest : p.shortest = Digits.strip 17 ⟨x, p.place n⟩
  before : ∀ j < n, ∀ y : Nat, ¬ p.interval.Holds (y * 10 ^ p.place j)

theorem Ranged.exists_firstHit (h : p.Ranged) : ∃ n x, p.FirstHit n x := by
  cases hfind : (List.range 17).findSome? fun (n : Nat) => p.interval.atExponent (p.place n) with
  | none =>
    obtain ⟨x, hx⟩ := h.exists_holds
    have hnone := List.findSome?_eq_none_iff.mp hfind 16 (by decide)
    rcases h.sound.atExponent_cases (p.place 16) with ⟨y, hsome, -⟩ | ⟨-, hmiss⟩
    · rw [hsome] at hnone
      cases hnone
    · refine absurd ?_ (hmiss x)
      rwa [place, show p.interval.magnitude - (16 : Nat) - 1 = p.interval.magnitude - 17 by push_cast; ring]
  | some d =>
    obtain ⟨n, hn, hd, hbefore⟩ := findSome?_range hfind
    rcases h.sound.atExponent_cases (p.place n) with ⟨x, hsome, hhit⟩ | ⟨hnone, -⟩
    · rw [hsome, Option.some_inj] at hd
      refine ⟨n, x, hn, hhit, ?_, fun j hj => ?_⟩
      · rw [shortest, if_neg h.pos.ne', hd]
        dsimp only [place] at hfind
        dsimp only
        rw [hfind]
      · rcases h.sound.atExponent_cases (p.place j) with ⟨y, hsome', -⟩ | ⟨-, hmiss⟩
        · rw [hbefore j hj] at hsome'
          cases hsome'
        · exact hmiss
    · rw [hnone] at hd
      cases hd

namespace FirstHit
variable {n x y : Nat} {e : Int} (hit : p.FirstHit n x)
include hit

theorem value_shortest : p.shortest.value = x * 10 ^ p.place n := by
  rw [hit.shortest, Digits.value_strip]
  rfl

theorem exists_digits : ∃ j, x = p.shortest.digits * 10 ^ j := by
  obtain ⟨j, hj, -⟩ := Digits.exists_strip 17 ⟨x, p.place n⟩
  exact ⟨j, hit.shortest ▸ hj⟩

/-- If the first place has no hit, no decimal of a coarser place than the one with the hit reads back. -/
theorem le_place (hn : 0 < n) (hy : p.interval.Holds (y * 10 ^ e)) : e ≤ p.place n := by
  by_contra hlt
  have hplace : p.place (n - 1) = p.place n + 1 := by
    rw [place, place]
    omega
  rw [mul_zpow_eq (show p.place (n - 1) ≤ e by omega)] at hy
  exact hit.before (n - 1) (by omega) _ hy

section
variable (h : p.Ranged)
include h

theorem pos : 0 < x := by
  have hvalue := h.sound.pos_of_holds hit.isHit.holds
  exact_mod_cast pos_of_mul_pos_left hvalue (ten_zpow_pos _).le

theorem digits_bounds : 0 < p.shortest.digits ∧ p.shortest.digits ≤ x := by
  obtain ⟨j, hj⟩ := hit.exists_digits
  exact ⟨Nat.pos_of_mul_pos_right ((hit.pos h).trans_eq hj),
    (Nat.le_mul_of_pos_right _ (Nat.pow_pos (by decide))).trans_eq hj.symm⟩

theorem le_pow : x ≤ 10 ^ (n + 1) := by
  have hten := ten_zpow_pos (p.place n)
  have hfloor := h.sound.floor_le (p.place n)
  rw [center_interval] at hfloor
  have hlt : (p.interval.floor (p.place n) : ℚ) < (10 ^ (n + 1) : Nat) := by
    refine lt_of_mul_lt_mul_right (hfloor.trans_lt (h.magnitude_spec.2.trans_eq ?_)) hten.le
    rw [Nat.cast_pow, Nat.cast_ofNat, ← zpow_natCast, ← zpow_add₀ (by norm_num)]
    congr 1
    rw [place]
    push_cast
    ring
  exact hit.isHit.le.trans (Nat.cast_lt.mp hlt)

/-- There are no more digits than places up to the hit. -/
theorem log_le : Nat.log 10 p.shortest.digits ≤ n := by
  obtain ⟨hpos, hle⟩ := hit.digits_bounds h
  rcases (hit.le_pow h).lt_or_eq with hlt | heq
  · exact Nat.lt_succ_iff.mp (Nat.log_lt_of_lt_pow hpos.ne' (hle.trans_lt hlt))
  · have hone : p.shortest = ⟨1, p.place n + (n + 1 : Nat)⟩ := by
      rw [hit.shortest, heq, ← Nat.one_mul (10 ^ (n + 1)), Digits.strip_mul_pow (by decide) (by have := hit.lt; omega)]
    rw [hone, Nat.log_one_right]
    exact Nat.zero_le n

/-- No decimal of fewer digits reads back: it would be smaller, and a power of ten of a coarser place would stand
between. -/
theorem fewest (hy : p.interval.Holds (y * 10 ^ e)) : Nat.log 10 p.shortest.digits ≤ Nat.log 10 y := by
  obtain ⟨hpos, hle⟩ := hit.digits_bounds h
  have hlog := hit.log_le h
  have hfirst := Nat.pow_log_le_self 10 hpos.ne'
  generalize Nat.log 10 p.shortest.digits = c at hlog hfirst ⊢
  by_contra hfew
  have hyc : y < 10 ^ c := Nat.lt_pow_of_log_lt (by decide) (not_le.mp hfew)
  have hplace := hit.le_place (by omega) hy
  have hround : p.interval.Holds ((10 ^ c : Nat) * 10 ^ p.place n) := by
    refine hy.between hit.isHit.holds ?_ ?_
    · exact mul_le_mul (Nat.cast_le.mpr hyc.le) (ten_zpow_le hplace) (ten_zpow_pos e).le (Nat.cast_nonneg _)
    · exact mul_le_mul_of_nonneg_right (Nat.cast_le.mpr (hfirst.trans hle)) (ten_zpow_pos _).le
  obtain ⟨c', rfl⟩ : ∃ c', c = c' + 1 := ⟨c - 1, by omega⟩
  have hcoarse : p.interval.Holds ((10 ^ c' : Nat) * 10 ^ (p.place n + 1)) := by
    rwa [mul_zpow_eq (show p.place n ≤ p.place n + 1 by omega), show (p.place n + 1 - p.place n).toNat = 1 by omega,
      ← Nat.pow_add]
  have hback := hit.le_place (by omega) hcoarse
  omega

/-- No decimal of as many digits is nearer: one of a finer place is below the unit of the first place, and that is
not above the double. -/
theorem nearest (hy : p.interval.Holds (y * 10 ^ e)) (hsame : Nat.log 10 y = Nat.log 10 p.shortest.digits) :
    |p.magnitude - p.shortest.value| ≤ |p.magnitude - y * 10 ^ e| := by
  rw [hit.value_shortest, ← center_interval]
  rcases lt_or_ge e (p.place n) with hplace | hplace
  · have hyn : y < 10 ^ (n + 1) := Nat.lt_pow_of_log_lt (by decide) (Nat.lt_succ_of_le (hsame.trans_le (hit.log_le h)))
    have hunit : ((10 ^ n : Nat) : ℚ) * 10 ^ p.place n = 10 ^ (p.interval.magnitude - 1) := by
      rw [Nat.cast_pow, Nat.cast_ofNat, ← zpow_natCast, ← zpow_add₀ (by norm_num)]
      congr 1
      rw [place]
      omega
    have hfiner : (y : ℚ) * 10 ^ e ≤ (10 ^ n : Nat) * 10 ^ p.place n := by
      calc (y : ℚ) * 10 ^ e
        _ ≤ (10 ^ (n + 1) : Nat) * 10 ^ e := mul_le_mul_of_nonneg_right (Nat.cast_le.mpr hyn.le) (ten_zpow_pos e).le
        _ = (10 ^ n : Nat) * 10 ^ (e + 1) := by
          rw [zpow_add_one₀ (by norm_num), Nat.pow_succ]
          push_cast
          ring
        _ ≤ (10 ^ n : Nat) * 10 ^ p.place n := mul_le_mul_of_nonneg_left (ten_zpow_le hplace) (Nat.cast_nonneg _)
    have hcenter : ((10 ^ n : Nat) : ℚ) * 10 ^ p.place n ≤ p.interval.center := by
      rw [hunit, center_interval]
      exact h.magnitude_spec.1
    refine (hit.isHit.nearest _ (hy.between h.sound.holds_center hfiner hcenter)).trans ?_
    rw [abs_of_nonneg (sub_nonneg.mpr hcenter)]
    exact (sub_le_sub_left hfiner _).trans (le_abs_self _)
  · rw [mul_zpow_eq hplace] at hy ⊢
    exact hit.isHit.nearest _ hy

end

end FirstHit

/-- Digits that read back as the double, as few as any that do, and of those as few as near to it as any. -/
structure IsShortest (p : Parts) (d : Digits) : Prop where
  holds : p.interval.Holds d.value
  fewest : ∀ (n : Nat) (e : Int), p.interval.Holds (n * 10 ^ e) → Nat.log 10 d.digits ≤ Nat.log 10 n
  nearest : ∀ (n : Nat) (e : Int), p.interval.Holds (n * 10 ^ e) → Nat.log 10 n = Nat.log 10 d.digits →
    |p.magnitude - d.value| ≤ |p.magnitude - n * 10 ^ e|

theorem Ranged.isShortest (h : p.Ranged) : p.IsShortest p.shortest := by
  obtain ⟨n, x, hit⟩ := h.exists_firstHit
  exact ⟨hit.value_shortest ▸ hit.isHit.holds, fun _ _ => hit.fewest h, fun _ _ => hit.nearest h⟩

/-- A decimal that reads back has no coarser place than the digits, unless it is a power of ten. -/
theorem Ranged.le_exponent (h : p.Ranged) {n : Nat} {e : Int} (hn : 2 ≤ n) (hx : p.interval.Holds (n * 10 ^ e)) :
    e ≤ p.shortest.exponent := by
  obtain ⟨j, x, hit⟩ := h.exists_firstHit
  obtain ⟨zeros, -, hexponent⟩ := Digits.exists_strip 17 ⟨x, p.place j⟩
  rw [← hit.shortest] at hexponent
  have hplace : p.place j ≤ p.shortest.exponent := by
    rw [hexponent]
    exact Int.le_add_of_nonneg_right (Int.natCast_nonneg _)
  refine le_trans ?_ hplace
  rcases Nat.eq_zero_or_pos j with rfl | hj
  · have hsmall : (10 : ℚ) ^ e < 10 ^ p.interval.magnitude := by
      have hdouble := h.sound.le_two_mul_center hx
      have htwo := mul_le_mul_of_nonneg_right (Nat.cast_le (α := ℚ).mpr hn) (ten_zpow_pos e).le
      have hbelow := h.magnitude_spec.2
      rw [center_interval] at hdouble
      push_cast at htwo
      linarith
    have hlt := (zpow_lt_zpow_iff_right₀ (by norm_num : (1 : ℚ) < 10)).mp hsmall
    rw [place]
    omega
  · exact hit.le_place hj hx

/-- There are at most eighteen digits, and the first of them is not zero. -/
theorem Ranged.shortest_bounds (h : p.Ranged) : 0 < p.shortest.digits ∧ p.shortest.digits < 10 ^ 18 := by
  obtain ⟨n, x, hit⟩ := h.exists_firstHit
  obtain ⟨hpos, hle⟩ := hit.digits_bounds h
  refine ⟨hpos, ?_⟩
  calc p.shortest.digits
    _ ≤ x := hle
    _ ≤ 10 ^ (n + 1) := hit.le_pow h
    _ < 10 ^ 18 := Nat.pow_lt_pow_right (by decide) (by have := hit.lt; omega)

/-! ## Few digits -/

/-- With all its bits a double lies next to at most one multiple of a power of ten that its unit in the last
place does not reach. -/
theorem Ranged.eq_of_holds (h : p.Ranged) {x y : Nat} {e : Int} (hq : (2 : ℚ) ^ p.q < 10 ^ e)
    (hx : p.interval.Holds (x * 10 ^ e)) (hy : p.interval.Holds (y * 10 ^ e)) : x = y := by
  have hpow := ten_zpow_pos e
  obtain ⟨hxlow, hxhigh⟩ := h.interval_spec hx
  obtain ⟨hylow, hyhigh⟩ := h.interval_spec hy
  have hle : ∀ {a b : Nat}, (a : ℚ) * 10 ^ e - b * 10 ^ e ≤ 2 ^ p.q → a ≤ b := by
    intro a b hab
    by_contra hlt
    have hsucc : (b : ℚ) + 1 ≤ a := by exact_mod_cast not_le.mp hlt
    have hmul := mul_le_mul_of_nonneg_right hsucc hpow.le
    linarith
  exact Nat.le_antisymm (hle (by linarith)) (hle (by linarith))

section
variable (h : p.Ranged) (hnormal : 2 ^ 52 ≤ p.m) {n : Nat} {e : Int} (hpos : 0 < n) (hlt : n < 10 ^ 15)
  (hx : p.interval.Holds (n * 10 ^ e))
include h hnormal hpos hlt hx

/-- The unit in the last place of the double is smaller than those of the decimal and of the first digit, and
these are not far from each other. -/
theorem Ranged.places : (2 : ℚ) ^ p.q < 10 ^ (min e (p.interval.magnitude - 1)) ∧
    p.interval.magnitude ≤ e + 16 ∧ e ≤ p.interval.magnitude := by
  obtain ⟨hlow, hhigh⟩ := h.interval_spec hx
  obtain ⟨hfirst, hfirst'⟩ := h.magnitude_spec
  have hunit := two_zpow_pos p.q
  have hplace := ten_zpow_pos e
  have hbits : (2 : ℚ) ^ 52 * 2 ^ p.q ≤ p.magnitude :=
    mul_le_mul_of_nonneg_right (by exact_mod_cast hnormal) hunit.le
  have hdigits : (n : ℚ) * 10 ^ e < 10 ^ 15 * 10 ^ e := mul_lt_mul_of_pos_right (by exact_mod_cast hlt) hplace
  have hone : (10 : ℚ) ^ e ≤ n * 10 ^ e := le_mul_of_one_le_left hplace.le (by exact_mod_cast hpos)
  generalize p.interval.magnitude = k at hfirst hfirst'
  have hten : (10 : ℚ) ^ k = 10 * 10 ^ (k - 1) := by
    rw [← zpow_one_add₀ (by norm_num)]
    congr 1
    omega
  refine ⟨?_, ?_, ?_⟩
  · rcases Int.le_total e (k - 1) with hle | hle
    · rw [min_eq_left hle]
      linarith
    · rw [min_eq_right hle]
      linarith
  · have hsmall : (10 : ℚ) ^ (k - 1) < 10 ^ (16 + e) := by
      rw [zpow_add₀ (by norm_num), zpow_ofNat]
      linarith
    have hle := (zpow_lt_zpow_iff_right₀ (by norm_num : (1 : ℚ) < 10)).mp hsmall
    omega
  · have hsmall : (10 : ℚ) ^ e < 10 ^ (k + 1) := by
      rw [zpow_add_one₀ (by norm_num)]
      linarith
    have hle := (zpow_lt_zpow_iff_right₀ (by norm_num : (1 : ℚ) < 10)).mp hsmall
    omega

/-- A decimal of at most fifteen digits that reads back as a double with all its bits is the one it is
written as. -/
theorem Ranged.shortest_eq (hn : n % 10 ≠ 0) : p.shortest = ⟨n, e⟩ := by
  obtain ⟨hunit, hnear, hnear'⟩ := h.places hnormal hpos hlt hx
  obtain ⟨j, y, hit⟩ := h.exists_firstHit
  obtain ⟨k, hk⟩ : ∃ k, k = p.place j := ⟨_, rfl⟩
  obtain ⟨s, hs⟩ : ∃ s, s = min e (p.interval.magnitude - 1) := ⟨_, rfl⟩
  rw [← hs] at hunit
  have hfirst : s ≤ k := by
    rcases Nat.eq_zero_or_pos j with rfl | hj
    · rw [hk, place]
      omega
    · have hplace := hit.le_place hj hx
      omega
  have hsame : y * 10 ^ (k - s).toNat = n * 10 ^ (e - s).toNat := by
    have hholds := hit.isHit.holds
    rw [← hk, mul_zpow_eq hfirst] at hholds
    rw [mul_zpow_eq (show s ≤ e by omega)] at hx
    exact h.eq_of_holds hunit hholds hx
  have hle : k ≤ e := by
    by_contra hcoarse
    have hscale : (k - s).toNat = (k - e - 1).toNat + 1 + (e - s).toNat := by omega
    rw [hscale, Nat.pow_add, ← Nat.mul_assoc] at hsame
    have hten := Nat.eq_of_mul_eq_mul_right (Nat.pow_pos (by decide)) hsame
    rw [Nat.pow_succ, ← Nat.mul_assoc] at hten
    exact hn (hten ▸ Nat.mul_mod_left ..)
  have hdigits : y = n * 10 ^ (e - k).toNat := by
    have hscale : (e - s).toNat = (e - k).toNat + (k - s).toNat := by omega
    rw [hscale, Nat.pow_add, ← Nat.mul_assoc] at hsame
    exact Nat.eq_of_mul_eq_mul_right (Nat.pow_pos (by decide)) hsame
  have hfuel : (e - k).toNat ≤ 17 := by
    have hj := hit.lt
    rw [hk, place]
    omega
  rw [hit.shortest, hdigits, ← hk, Digits.strip_mul_pow hn hfuel]
  congr 1
  omega

end

end Parts

end KeyboardPlate.Double
