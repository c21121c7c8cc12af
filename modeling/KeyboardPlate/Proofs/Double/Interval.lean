import KeyboardPlate.Double.Shortest
import Mathlib.Algebra.Order.Field.Power
import Mathlib.Data.Nat.Cast.Order.Field
import Mathlib.Data.Rat.Cast.Order
import Mathlib.Tactic.FieldSimp
import Mathlib.Tactic.Linarith
import Mathlib.Tactic.NormNum
import Mathlib.Tactic.Ring

/-!
# The decimals that read back as a double

A decimal reads back as a double if it lies between the midpoints to the neighbours of the double. Of one place
the two decimals next to the double decide: if any decimal of that place reads back, one of these does, and it is
a nearest one. The midpoints are never nearer to each other than the units of the seventeenth digit.
-/

set_option autoImplicit false

namespace KeyboardPlate.Double

/-! ## Powers -/

theorem zpow_eq_div (b : ℚ) (e : Int) : b ^ e = b ^ e.toNat / b ^ (-e).toNat := by
  rcases Int.le_total 0 e with h | h
  · obtain ⟨n, rfl⟩ := Int.eq_ofNat_of_zero_le h
    have hneg : (-(n : Int)).toNat = 0 := by omega
    rw [hneg, pow_zero, div_one, Int.toNat_natCast, zpow_natCast]
  · obtain ⟨n, hn⟩ := Int.eq_ofNat_of_zero_le (Int.neg_nonneg_of_nonpos h)
    obtain rfl : e = -n := by omega
    have hneg : (-(n : Int)).toNat = 0 := by omega
    rw [hneg, pow_zero, neg_neg, Int.toNat_natCast, zpow_neg, zpow_natCast, one_div]

theorem ten_zpow_pos (e : Int) : (0 : ℚ) < 10 ^ e := zpow_pos (by norm_num) e

theorem two_zpow_pos (e : Int) : (0 : ℚ) < 2 ^ e := zpow_pos (by norm_num) e

theorem ten_zpow_le {a b : Int} (h : a ≤ b) : (10 : ℚ) ^ a ≤ 10 ^ b := zpow_le_zpow_right₀ (by norm_num) h

/-- The same decimal at a finer place. -/
theorem mul_zpow_eq {s e : Int} (h : s ≤ e) (n : Nat) : (n : ℚ) * 10 ^ e = (n * 10 ^ (e - s).toNat : Nat) * 10 ^ s := by
  have hsplit : (10 : ℚ) ^ e = 10 ^ (e - s).toNat * 10 ^ s := by
    rw [← zpow_natCast, ← zpow_add₀ (by norm_num)]
    congr 1
    omega
  rw [hsplit]
  push_cast
  ring

/-! ## Decimals in an interval -/

namespace Interval
variable {i : Interval} {n : Nat} {e : Int} {x y : ℚ}

/-- Whether a number lies in the interval. -/
def Holds (i : Interval) (x : ℚ) : Prop :=
  if i.closed then i.lower ≤ x * i.denominator ∧ x * i.denominator ≤ i.upper
  else i.lower < x * i.denominator ∧ x * i.denominator < i.upper

theorem holds_iff : i.holds n e = true ↔ i.Holds (n * 10 ^ e) := by
  have hpow : (0 : ℚ) < 10 ^ (-e).toNat := by positivity
  have hscale : (n : ℚ) * 10 ^ e * i.denominator = (n * 10 ^ e.toNat * i.denominator : Nat) / 10 ^ (-e).toNat := by
    rw [zpow_eq_div 10]
    push_cast
    ring
  unfold holds Holds
  dsimp only
  rw [hscale, le_div_iff₀ hpow, div_le_iff₀ hpow, lt_div_iff₀ hpow, div_lt_iff₀ hpow]
  split
  · rw [Bool.and_eq_true, decide_eq_true_iff, decide_eq_true_iff]
    exact_mod_cast Iff.rfl
  · rw [Bool.and_eq_true, decide_eq_true_iff, decide_eq_true_iff]
    exact_mod_cast Iff.rfl

theorem Holds.le (h : i.Holds x) : i.lower ≤ x * i.denominator ∧ x * i.denominator ≤ i.upper := by
  unfold Holds at h
  split at h
  · exact h
  · exact ⟨h.1.le, h.2.le⟩

theorem holds_of_lt (hlower : i.lower < x * i.denominator) (hupper : x * i.denominator < i.upper) : i.Holds x := by
  unfold Holds
  split
  · exact ⟨hlower.le, hupper.le⟩
  · exact ⟨hlower, hupper⟩

/-- What lies between two numbers of the interval lies in it. -/
theorem Holds.between {z : ℚ} (hx : i.Holds x) (hz : i.Holds z) (hxy : x ≤ y) (hyz : y ≤ z) : i.Holds y := by
  have hden : (0 : ℚ) ≤ i.denominator := Nat.cast_nonneg _
  have hlow := mul_le_mul_of_nonneg_right hxy hden
  have hhigh := mul_le_mul_of_nonneg_right hyz hden
  unfold Holds at hx hz ⊢
  split
  · rename_i hclosed
    rw [if_pos hclosed] at hx hz
    exact ⟨hx.1.trans hlow, hhigh.trans hz.2⟩
  · rename_i hclosed
    rw [if_neg hclosed] at hx hz
    exact ⟨hx.1.trans_le hlow, hhigh.trans_lt hz.2⟩

/-- The number the interval is about. -/
def center (i : Interval) : ℚ := i.value / i.denominator

/-- An interval around its number, over a power of two. -/
structure Sound (i : Interval) : Prop where
  value_pos : 0 < i.value
  lower_pos : 0 < i.lower
  lower_lt : i.lower < i.value
  lt_upper : i.value < i.upper
  upper_le : i.upper ≤ 2 * i.value
  denominator : ∃ j, i.denominator = 2 ^ j

namespace Sound
variable (h : i.Sound)
include h

theorem denominator_pos : 0 < i.denominator := by
  obtain ⟨j, hj⟩ := h.denominator
  rw [hj]
  exact Nat.pow_pos (by decide)

theorem center_mul : i.center * i.denominator = i.value := by
  have hne : (i.denominator : ℚ) ≠ 0 := Nat.cast_ne_zero.mpr h.denominator_pos.ne'
  rw [center, div_mul_cancel₀ _ hne]

theorem holds_center : i.Holds i.center := by
  refine holds_of_lt ?_ ?_
  · rw [h.center_mul]
    exact Nat.cast_lt.mpr h.lower_lt
  · rw [h.center_mul]
    exact Nat.cast_lt.mpr h.lt_upper

theorem pos_of_holds (hx : i.Holds x) : 0 < x := by
  have hlow : (0 : ℚ) < i.lower := Nat.cast_pos.mpr h.lower_pos
  exact pos_of_mul_pos_left (hlow.trans_le hx.le.1) (Nat.cast_nonneg _)

theorem le_two_mul_center (hx : i.Holds x) : x ≤ 2 * i.center := by
  have hden : (0 : ℚ) < i.denominator := Nat.cast_pos.mpr h.denominator_pos
  have hupper : (i.upper : ℚ) ≤ 2 * i.value := by exact_mod_cast h.upper_le
  refine le_of_mul_le_mul_right ?_ hden
  rw [mul_assoc, h.center_mul]
  exact hx.le.2.trans hupper

/-! ## The place of the first digit -/

theorem reaches_iff (k : Int) :
    i.denominator * Nat.pow 10 k.toNat ≤ i.value * Nat.pow 10 (-k).toNat ↔ (10 : ℚ) ^ k ≤ i.center := by
  have hden : (0 : ℚ) < i.denominator := Nat.cast_pos.mpr h.denominator_pos
  have hpow : (0 : ℚ) < 10 ^ (-k).toNat := by positivity
  rw [center, zpow_eq_div 10, div_le_div_iff₀ hpow hden, mul_comm ((10 : ℚ) ^ k.toNat)]
  exact_mod_cast Iff.rfl

/-- The power of two the search sets out from. -/
theorem pow_le_center : (2 : ℚ) ^ ((i.value.log2 : Int) - i.denominator.log2) ≤ i.center ∧
    i.center < 2 ^ ((i.value.log2 : Int) - i.denominator.log2 + 1) := by
  obtain ⟨j, hj⟩ := h.denominator
  have hlog : i.denominator.log2 = j := by rw [hj, Nat.log2_two_pow]
  have hden : (0 : ℚ) < 2 ^ j := by positivity
  have hlow : (2 : ℚ) ^ i.value.log2 ≤ i.value := by exact_mod_cast Nat.log2_self_le h.value_pos.ne'
  have hhigh : (i.value : ℚ) < 2 ^ (i.value.log2 + 1) := by exact_mod_cast Nat.lt_log2_self
  have hcenter : i.center = i.value / 2 ^ j := by
    rw [center, hj]
    norm_cast
  rw [hlog, hcenter, show (i.value.log2 : Int) - j + 1 = (i.value.log2 + 1 : Nat) - (j : Int) by push_cast; ring,
    zpow_sub₀ (by norm_num), zpow_sub₀ (by norm_num), zpow_natCast, zpow_natCast, zpow_natCast]
  exact ⟨div_le_div_of_nonneg_right hlow hden.le, div_lt_div_of_pos_right hhigh hden⟩

end Sound

/-- For all powers of two in and around the range of doubles, the guess of a power of ten is off by one at
most. -/
theorem guess_near {b : Int} (hlow : -1100 ≤ b) (hhigh : b ≤ 1100) :
    (10 : ℚ) ^ ((b * 30103).fdiv 100000 - 1) ≤ 2 ^ b ∧ (2 : ℚ) ^ (b + 1) ≤ 10 ^ ((b * 30103).fdiv 100000 + 2) := by
  have hall : (List.range 2201).all (fun n =>
      let b : Int := (n : Int) - 1100
      let k := (b * 30103).fdiv 100000
      decide (10 ^ (k - 1).toNat * 2 ^ (-b).toNat ≤ 2 ^ b.toNat * 10 ^ (-(k - 1)).toNat) &&
        decide (2 ^ (b + 1).toNat * 10 ^ (-(k + 2)).toNat ≤ 10 ^ (k + 2).toNat * 2 ^ (-(b + 1)).toNat)) = true := by
    decide +kernel
  have hb := List.all_eq_true.mp hall (b + 1100).toNat (List.mem_range.mpr (by omega))
  dsimp only at hb
  rw [show (((b + 1100).toNat : Nat) : Int) - 1100 = b by omega, Bool.and_eq_true, decide_eq_true_iff,
    decide_eq_true_iff] at hb
  have hpos : ∀ (c : ℚ) (n : Nat), 0 < c → 0 < c ^ n := fun c n hc => pow_pos hc n
  rw [zpow_eq_div 10 ((b * 30103).fdiv 100000 - 1), zpow_eq_div 2 b, zpow_eq_div 2 (b + 1),
    zpow_eq_div 10 ((b * 30103).fdiv 100000 + 2),
    div_le_div_iff₀ (hpos _ _ (by norm_num)) (hpos _ _ (by norm_num)),
    div_le_div_iff₀ (hpos _ _ (by norm_num)) (hpos _ _ (by norm_num))]
  exact ⟨by exact_mod_cast hb.1, by exact_mod_cast hb.2⟩

/-- The first digit stands at the place of the magnitude. -/
theorem Sound.magnitude_spec (h : i.Sound) (hlow : (2 : ℚ) ^ (-1100 : Int) ≤ i.center)
    (hhigh : i.center < 2 ^ (1100 : Int)) : (10 : ℚ) ^ (i.magnitude - 1) ≤ i.center ∧ i.center < 10 ^ i.magnitude := by
  obtain ⟨hbinary, hbinary'⟩ := h.pow_le_center
  unfold magnitude
  dsimp only
  generalize (i.value.log2 : Int) - i.denominator.log2 = b at hbinary hbinary'
  have hb : b < 1100 := (zpow_lt_zpow_iff_right₀ (by norm_num : (1 : ℚ) < 2)).mp (hbinary.trans_lt hhigh)
  have hb' : -1100 < b + 1 := (zpow_lt_zpow_iff_right₀ (by norm_num : (1 : ℚ) < 2)).mp (hlow.trans_lt hbinary')
  obtain ⟨hguess, hguess'⟩ := guess_near (b := b) (by omega) (by omega)
  generalize (b * 30103).fdiv 100000 = k at hguess hguess'
  simp only [h.reaches_iff, decide_eq_true_eq]
  split
  · rename_i hreach
    exact ⟨by rwa [show k + 2 - 1 = k + 1 by ring], hbinary'.trans_le hguess'⟩
  · rename_i hreach
    split
    · rename_i hreach'
      exact ⟨by rwa [show k + 1 - 1 = k by ring], not_le.mp hreach⟩
    · rename_i hreach'
      exact ⟨hguess.trans hbinary, not_le.mp hreach'⟩

/-! ## One place of the search -/

/-- How many whole units of a place there are in the number. -/
def floor (i : Interval) (e : Int) : Nat :=
  i.value * Nat.pow 10 (-e).toNat / (i.denominator * Nat.pow 10 e.toNat)

/-- What is left of the number beside these units. -/
def rest (i : Interval) (e : Int) : Nat :=
  i.value * Nat.pow 10 (-e).toNat % (i.denominator * Nat.pow 10 e.toNat)

theorem atExponent_eq : i.atExponent e =
    match i.holds (i.floor e) e, i.holds (i.floor e + 1) e with
    | true, true =>
      if 2 * i.rest e < i.denominator * Nat.pow 10 e.toNat ∨
          (2 * i.rest e = i.denominator * Nat.pow 10 e.toNat ∧ i.floor e % 2 = 0) then some ⟨i.floor e, e⟩
      else some ⟨i.floor e + 1, e⟩
    | true, false => some ⟨i.floor e, e⟩
    | false, true => some ⟨i.floor e + 1, e⟩
    | false, false => none := rfl

namespace Sound
variable (h : i.Sound)
include h

theorem unit_pos (e : Int) : (0 : ℚ) < (i.denominator * Nat.pow 10 e.toNat : Nat) :=
  Nat.cast_pos.mpr (Nat.mul_pos h.denominator_pos (Nat.pow_pos (by decide)))

theorem center_eq (e : Int) :
    i.center = i.floor e * 10 ^ e + i.rest e / (i.denominator * Nat.pow 10 e.toNat : Nat) * 10 ^ e := by
  have hden : (i.denominator : ℚ) ≠ 0 := Nat.cast_ne_zero.mpr h.denominator_pos.ne'
  have hunit := (h.unit_pos e).ne'
  have hdiv : (i.floor e : ℚ) + i.rest e / (i.denominator * Nat.pow 10 e.toNat : Nat) =
      (i.value * Nat.pow 10 (-e).toNat : Nat) / (i.denominator * Nat.pow 10 e.toNat : Nat) := by
    rw [eq_div_iff hunit, add_mul, div_mul_cancel₀ _ hunit]
    exact_mod_cast Nat.div_add_mod' _ _
  rw [← add_mul, hdiv, center, zpow_eq_div 10, Nat.pow_eq, Nat.pow_eq]
  push_cast
  field_simp

theorem floor_le (e : Int) : i.floor e * 10 ^ e ≤ i.center := by
  have hten := ten_zpow_pos e
  rw [h.center_eq e]
  exact le_add_of_nonneg_right (by positivity)

theorem lt_floor_succ (e : Int) : i.center < (i.floor e + 1 : Nat) * 10 ^ e := by
  rw [h.center_eq e, Nat.cast_succ, add_one_mul, add_lt_add_iff_left]
  refine mul_lt_of_lt_one_left (ten_zpow_pos e) ((div_lt_one (h.unit_pos e)).mpr ?_)
  exact Nat.cast_lt.mpr (Nat.mod_lt _ (Nat.cast_pos.mp (h.unit_pos e)))

/-- What is left is at most half a unit just if the lower neighbour is not the farther one, and at least half a
unit just if the upper one is not. -/
theorem two_mul_rest_iff (e : Int) :
    (2 * i.rest e ≤ i.denominator * Nat.pow 10 e.toNat ↔
      i.center - i.floor e * 10 ^ e ≤ (i.floor e + 1 : Nat) * 10 ^ e - i.center) ∧
    (i.denominator * Nat.pow 10 e.toNat ≤ 2 * i.rest e ↔
      (i.floor e + 1 : Nat) * 10 ^ e - i.center ≤ i.center - i.floor e * 10 ^ e) := by
  obtain ⟨part, hpart⟩ : ∃ part, part = (i.rest e : ℚ) / (i.denominator * Nat.pow 10 e.toNat : Nat) := ⟨_, rfl⟩
  have hten := ten_zpow_pos e
  have hcenter := h.center_eq e
  rw [← hpart] at hcenter
  have hlower : i.center - i.floor e * 10 ^ e = part * 10 ^ e := by linarith
  have hupper : (i.floor e + 1 : Nat) * 10 ^ e - i.center = (1 - part) * 10 ^ e := by
    push_cast
    linarith
  have hrest : (i.rest e : ℚ) = part * (i.denominator * Nat.pow 10 e.toNat : Nat) := by
    rw [hpart, div_mul_cancel₀ _ (h.unit_pos e).ne']
  rw [hlower, hupper, mul_le_mul_iff_of_pos_right hten, mul_le_mul_iff_of_pos_right hten,
    ← Nat.cast_le (α := ℚ), ← Nat.cast_le (α := ℚ), Nat.cast_mul 2, hrest, Nat.cast_ofNat, ← mul_assoc,
    mul_le_iff_le_one_left (h.unit_pos e), le_mul_iff_one_le_left (h.unit_pos e)]
  constructor
  · constructor
    · intro hle
      linarith
    · intro hle
      linarith
  · constructor
    · intro hle
      linarith
    · intro hle
      linarith

end Sound

/-- A decimal of a place that reads back, and the nearest of those to the number. -/
structure IsHit (i : Interval) (e : Int) (n : Nat) : Prop where
  holds : i.Holds (n * 10 ^ e)
  le : n ≤ i.floor e + 1
  nearest : ∀ m : Nat, i.Holds (m * 10 ^ e) → |i.center - n * 10 ^ e| ≤ |i.center - m * 10 ^ e|

namespace Sound
variable (h : i.Sound)
include h

/-- A decimal of a place that reads back is not between the neighbours of the number, so one of these reads back
as well. -/
theorem neighbour_of_holds {n : Nat} (hn : i.Holds (n * 10 ^ e)) :
    (n * 10 ^ e ≤ (i.floor e : ℚ) * 10 ^ e ∧ i.Holds (i.floor e * 10 ^ e)) ∨
    ((i.floor e + 1 : Nat) * 10 ^ e ≤ (n : ℚ) * 10 ^ e ∧ i.Holds ((i.floor e + 1 : Nat) * 10 ^ e)) := by
  have hten := (ten_zpow_pos e).le
  rcases Nat.lt_or_ge (i.floor e) n with hlt | hle
  · have hmul := mul_le_mul_of_nonneg_right (Nat.cast_le (α := ℚ).mpr (Nat.succ_le_of_lt hlt)) hten
    exact .inr ⟨hmul, h.holds_center.between hn (h.lt_floor_succ e).le hmul⟩
  · have hmul := mul_le_mul_of_nonneg_right (Nat.cast_le (α := ℚ).mpr hle) hten
    exact .inl ⟨hmul, hn.between h.holds_center hmul (h.floor_le e)⟩

theorem isHit_floor (hdown : i.Holds (i.floor e * 10 ^ e)) (hnear : i.Holds ((i.floor e + 1 : Nat) * 10 ^ e) →
    i.center - i.floor e * 10 ^ e ≤ (i.floor e + 1 : Nat) * 10 ^ e - i.center) : i.IsHit e (i.floor e) := by
  refine ⟨hdown, Nat.le_succ _, fun m hm => ?_⟩
  rw [abs_of_nonneg (sub_nonneg.mpr (h.floor_le e))]
  rcases h.neighbour_of_holds hm with ⟨hle, -⟩ | ⟨hle, hup⟩
  · exact (sub_le_sub_left hle _).trans (le_abs_self _)
  · rw [abs_sub_comm]
    exact (hnear hup).trans ((sub_le_sub_right hle _).trans (le_abs_self _))

theorem isHit_floor_succ (hup : i.Holds ((i.floor e + 1 : Nat) * 10 ^ e)) (hnear : i.Holds (i.floor e * 10 ^ e) →
    (i.floor e + 1 : Nat) * 10 ^ e - i.center ≤ i.center - i.floor e * 10 ^ e) : i.IsHit e (i.floor e + 1) := by
  refine ⟨hup, le_rfl, fun m hm => ?_⟩
  rw [abs_sub_comm, abs_of_nonneg (sub_nonneg.mpr (h.lt_floor_succ e).le)]
  rcases h.neighbour_of_holds hm with ⟨hle, hdown⟩ | ⟨hle, -⟩
  · exact (hnear hdown).trans ((sub_le_sub_left hle _).trans (le_abs_self _))
  · rw [abs_sub_comm]
    exact (sub_le_sub_right hle _).trans (le_abs_self _)

/-- A place has a hit, and that is the one that is found, or no decimal of it reads back. -/
theorem atExponent_cases (e : Int) : (∃ n, i.atExponent e = some ⟨n, e⟩ ∧ i.IsHit e n) ∨
    (i.atExponent e = none ∧ ∀ n : Nat, ¬ i.Holds (n * 10 ^ e)) := by
  obtain ⟨hlower, hupper⟩ := h.two_mul_rest_iff e
  rw [atExponent_eq]
  cases hdown : i.holds (i.floor e) e with
  | true =>
    have hdown := holds_iff.mp hdown
    cases hup : i.holds (i.floor e + 1) e with
    | true =>
      have hup := holds_iff.mp hup
      dsimp only
      split
      · rename_i hnear
        exact .inl ⟨_, rfl, h.isHit_floor hdown fun _ => hlower.mp (hnear.elim le_of_lt fun heq => heq.1.le)⟩
      · rename_i hfar
        exact .inl ⟨_, rfl, h.isHit_floor_succ hup fun _ => hupper.mp (not_lt.mp fun hlt => hfar (.inl hlt))⟩
    | false =>
      have hup := mt holds_iff.mpr (Bool.eq_false_iff.mp hup)
      exact .inl ⟨_, rfl, h.isHit_floor hdown fun hup' => absurd hup' hup⟩
  | false =>
    have hdown := mt holds_iff.mpr (Bool.eq_false_iff.mp hdown)
    cases hup : i.holds (i.floor e + 1) e with
    | true => exact .inl ⟨_, rfl, h.isHit_floor_succ (holds_iff.mp hup) fun hdown' => absurd hdown' hdown⟩
    | false =>
      have hup := mt holds_iff.mpr (Bool.eq_false_iff.mp hup)
      exact .inr ⟨rfl, fun n hn => (h.neighbour_of_holds hn).elim (fun hold => hdown hold.2) fun hold => hup hold.2⟩

/-- An interval that is wider than the unit of a place holds a decimal of that place. -/
theorem exists_holds (hwide : 10 ^ e < (i.upper : ℚ) / i.denominator - i.lower / i.denominator) :
    ∃ n : Nat, i.Holds (n * 10 ^ e) := by
  have hden : (0 : ℚ) < i.denominator := Nat.cast_pos.mpr h.denominator_pos
  have hlower : (i.lower : ℚ) < i.value := Nat.cast_lt.mpr h.lower_lt
  have hupper : (i.value : ℚ) < i.upper := Nat.cast_lt.mpr h.lt_upper
  have hfloor := mul_le_mul_of_nonneg_right (h.floor_le e) hden.le
  have hsucc := mul_lt_mul_of_pos_right (h.lt_floor_succ e) hden
  rw [h.center_mul] at hfloor hsucc
  rw [← sub_div, lt_div_iff₀ hden] at hwide
  by_cases hlow : (i.lower : ℚ) < i.floor e * 10 ^ e * i.denominator
  · exact ⟨_, holds_of_lt hlow (hfloor.trans_lt hupper)⟩
  · refine ⟨_, holds_of_lt (hlower.trans hsucc) ?_⟩
    push_cast
    linarith

end Sound

end Interval

/-! ## The interval of a double -/

/-- The parts of some double other than zero. -/
structure Parts.Ranged (p : Parts) : Prop where
  pos : 0 < p.m
  lt : p.m < 2 ^ 53
  le_q : -1074 ≤ p.q
  q_le : p.q ≤ 971
  eq_of_even : p.even = true → p.m = 2 ^ 52

theorem ranged_of_parts? {x : Float} {p : Parts} (h : parts? x = some p) (hpos : 0 < p.m) : p.Ranged := by
  have hbits := x.toBits.toNat_lt
  unfold parts? at h
  dsimp only at h
  split at h
  · cases h
  split at h
  · cases h
    dsimp only at hpos
    exact ⟨hpos, by dsimp only; omega, by dsimp only; omega, by dsimp only; omega, nofun⟩
  · cases h
    refine ⟨hpos, by dsimp only; omega, by dsimp only; omega, by dsimp only; omega, fun heven => ?_⟩
    have hfraction := (Bool.and_eq_true_iff.mp heven).1
    dsimp only
    rw [beq_iff_eq.mp hfraction]
    norm_num

namespace Parts
variable {p : Parts} {x : ℚ}

/-- The magnitude of the double. -/
def magnitude (p : Parts) : ℚ := p.m * 2 ^ p.q

theorem denominator_interval : p.interval.denominator = 2 ^ (2 - p.q).toNat := rfl

theorem Ranged.sound (h : p.Ranged) : p.interval.Sound := by
  have hunit : 0 < Nat.pow 2 (p.q - 2).toNat := Nat.pow_pos (by decide)
  have hm := h.pos
  refine ⟨Nat.mul_pos (by omega) hunit, Nat.mul_pos ?_ hunit, Nat.mul_lt_mul_of_pos_right ?_ hunit,
    Nat.mul_lt_mul_of_pos_right (by omega) hunit, ?_, ⟨_, denominator_interval⟩⟩
  · split <;> omega
  · split <;> omega
  · change (4 * p.m + 2) * Nat.pow 2 (p.q - 2).toNat ≤ 2 * (4 * p.m * Nat.pow 2 (p.q - 2).toNat)
    rw [← Nat.mul_assoc]
    exact Nat.mul_le_mul_right _ (by omega)

/-- What `n` quarters of the unit in the last place are in the terms of the interval. -/
theorem quarters_div (p : Parts) (n : Nat) :
    ((n * Nat.pow 2 (p.q - 2).toNat : Nat) : ℚ) / p.interval.denominator = n * 2 ^ (p.q - 2) := by
  have hneg : (2 - p.q).toNat = (-(p.q - 2)).toNat := by omega
  rw [denominator_interval, zpow_eq_div 2 (p.q - 2), hneg, Nat.pow_eq]
  push_cast
  ring

theorem two_zpow_sub_two (q : Int) : (2 : ℚ) ^ (q - 2) = 2 ^ q / 4 := by
  rw [zpow_sub₀ (by norm_num)]
  norm_num

theorem center_interval (p : Parts) : p.interval.center = p.magnitude := by
  have hcenter := quarters_div p (4 * p.m)
  rw [two_zpow_sub_two] at hcenter
  rw [Interval.center, magnitude]
  refine hcenter.trans ?_
  push_cast
  ring

theorem upper_div (p : Parts) : (p.interval.upper : ℚ) / p.interval.denominator = p.magnitude + 2 ^ p.q / 2 := by
  have hquarters := quarters_div p (4 * p.m + 2)
  rw [two_zpow_sub_two] at hquarters
  refine hquarters.trans ?_
  rw [magnitude]
  push_cast
  ring

theorem Ranged.lower_div (h : p.Ranged) : (p.interval.lower : ℚ) / p.interval.denominator =
    p.magnitude - 2 ^ p.q / if p.even then 4 else 2 := by
  have hm := h.pos
  have hquarters := quarters_div p (4 * p.m - if p.even then 1 else 2)
  rw [two_zpow_sub_two, Nat.cast_sub (by split <;> omega)] at hquarters
  refine hquarters.trans ?_
  rw [magnitude]
  push_cast
  split
  · ring
  · ring

theorem Ranged.interval_spec (h : p.Ranged) (hx : p.interval.Holds x) :
    p.magnitude - 2 ^ p.q / 2 ≤ x ∧ x ≤ p.magnitude + 2 ^ p.q / 2 := by
  have hden : (0 : ℚ) < p.interval.denominator := Nat.cast_pos.mpr h.sound.denominator_pos
  have hpow := two_zpow_pos p.q
  obtain ⟨hlow, hhigh⟩ := hx.le
  rw [← div_le_iff₀ hden, h.lower_div] at hlow
  rw [← le_div_iff₀ hden, upper_div] at hhigh
  refine ⟨le_trans (sub_le_sub_left ?_ _) hlow, hhigh⟩
  split
  · linarith
  · rfl

theorem Ranged.magnitude_spec (h : p.Ranged) :
    (10 : ℚ) ^ (p.interval.magnitude - 1) ≤ p.magnitude ∧ p.magnitude < 10 ^ p.interval.magnitude := by
  have hm : (1 : ℚ) ≤ p.m := by exact_mod_cast h.pos
  have hm' : (p.m : ℚ) ≤ 2 ^ (53 : Int) := by exact_mod_cast h.lt.le
  have hpow := two_zpow_pos p.q
  rw [← center_interval]
  refine h.sound.magnitude_spec ?_ ?_
  · rw [center_interval, magnitude]
    calc (2 : ℚ) ^ (-1100 : Int)
      _ ≤ 2 ^ p.q := zpow_le_zpow_right₀ (by norm_num) (by have := h.le_q; omega)
      _ ≤ p.m * 2 ^ p.q := le_mul_of_one_le_left hpow.le hm
  · rw [center_interval, magnitude]
    calc (p.m : ℚ) * 2 ^ p.q
      _ ≤ 2 ^ (53 : Int) * 2 ^ p.q := mul_le_mul_of_nonneg_right hm' hpow.le
      _ = 2 ^ (53 + p.q) := (zpow_add₀ (by norm_num) ..).symm
      _ < 2 ^ (1100 : Int) := zpow_lt_zpow_right₀ (by norm_num) (by have := h.q_le; omega)

/-- Seventeen digits are always enough. -/
theorem Ranged.exists_holds (h : p.Ranged) : ∃ n : Nat, p.interval.Holds (n * 10 ^ (p.interval.magnitude - 17)) := by
  have hunit := two_zpow_pos p.q
  have hplace : (10 : ℚ) ^ (p.interval.magnitude - 17) * 10 ^ 16 ≤ p.m * 2 ^ p.q := by
    rw [← zpow_ofNat, ← zpow_add₀ (by norm_num), show p.interval.magnitude - 17 + 16 = p.interval.magnitude - 1 by ring]
    exact h.magnitude_spec.1
  refine h.sound.exists_holds ?_
  rw [upper_div, h.lower_div]
  cases heven : p.even with
  | true =>
    rw [h.eq_of_even heven] at hplace
    rw [if_pos rfl]
    push_cast at hplace
    linarith
  | false =>
    have hlt : p.m * (2 : ℚ) ^ p.q < 2 ^ 53 * 2 ^ p.q := mul_lt_mul_of_pos_right (by exact_mod_cast h.lt) hunit
    rw [if_neg (by decide)]
    linarith

end Parts

end KeyboardPlate.Double
