import KeyboardPlate.Proofs.Double.Scientific
import KeyboardPlate.Proofs.Json.Bracketed
import KeyboardPlate.Proofs.Json.NumberText
import Mathlib.Data.Nat.Factorization.Basic

/-!
# Numbers as they are written

A number in a text is kept as a whole number or as the nearest double. A whole number is written again with
its digits, and so is a double that was read from at most fifteen of them; then what is kept still denotes
what was written.
-/

set_option autoImplicit false

namespace KeyboardPlate.Json

open Double Decimal

/-! ## Doubles of few digits -/

/-- A number of at most fifteen digits, wherever its point may be. -/
def FewDigits (x : ℚ) : Prop := ∃ n : Nat, n < 10 ^ 15 ∧ ∃ k : Int, |x| = n * 10 ^ k

theorem numeralValue?_float {x : Float} {p : Parts} (hp : parts? x = some p) (hfinite : x.isFinite = true) :
    numeralValue? (numberText (.float x)).toList =
      some (signedRat p.negative (p.shortest.digits * 10 ^ p.shortest.exponent)) := by
  obtain ⟨n, -, hchars, hvalue⟩ := exists_numeral_double hp
  rw [numberText, if_pos hfinite, hchars, Numeral.numeralValue?_chars, hvalue]

/-- The digits of a number without zeros at their end. -/
theorem FewDigits.exists_normal {x : ℚ} (h : FewDigits x) (hx : x ≠ 0) :
    ∃ n : Nat, 0 < n ∧ n < 10 ^ 15 ∧ n % 10 ≠ 0 ∧ ∃ k : Int, |x| = n * 10 ^ k := by
  obtain ⟨n, hn, k, hk⟩ := h
  have hpos : n ≠ 0 := by
    rintro rfl
    rw [Nat.cast_zero, zero_mul, abs_eq_zero] at hk
    exact hx hk
  obtain ⟨j, r, hr, rfl⟩ := Nat.exists_eq_pow_mul_and_not_dvd hpos 10 (by decide)
  have hrpos : 0 < r := Nat.pos_of_ne_zero (by rintro rfl; exact hpos (Nat.mul_zero _))
  refine ⟨r, hrpos, lt_of_le_of_lt (Nat.le_mul_of_pos_left r (Nat.pow_pos (by decide))) hn,
    fun hmod => hr (Nat.dvd_of_mod_eq_zero hmod), j + k, ?_⟩
  rw [hk, Nat.mul_comm, mul_pow_mul_zpow]

/-- A decimal other than zero is far inside the range of the doubles with all their bits. -/
theorem abs_toRat_bounds {a : Decimal} (ha : a.toRat ≠ 0) :
    (2 : ℚ) ^ (-1000 : Int) ≤ |a.toRat| ∧ |a.toRat| < 2 ^ (1000 : Int) := by
  have hpow : (0 : ℚ) < 10 ^ a.scale := by positivity
  have hpow' : (10 : ℚ) ^ a.scale ≤ 10 ^ scaleLimit := pow_le_pow_right₀ (by norm_num) a.scale_le
  have hpos : 0 < a.mantissa := by
    refine Nat.pos_of_ne_zero fun hzero => abs_ne_zero.mpr ha ?_
    rw [abs_toRat, hzero, Nat.cast_zero, zero_div]
  have hone : (1 : ℚ) ≤ a.mantissa := by exact_mod_cast hpos
  have hlimit : (a.mantissa : ℚ) < 79228162514264337593543950336 := by exact_mod_cast a.mantissa_lt
  rw [abs_toRat]
  constructor
  · rw [le_div_iff₀ hpow]
    calc (2 : ℚ) ^ (-1000 : Int) * 10 ^ a.scale
      _ ≤ 2 ^ (-100 : Int) * 10 ^ scaleLimit :=
        mul_le_mul (zpow_le_zpow_right₀ (by norm_num) (by norm_num)) hpow' hpow.le (by positivity)
      _ ≤ 1 := by norm_num [scaleLimit]
      _ ≤ a.mantissa := hone
  · calc (a.mantissa : ℚ) / 10 ^ a.scale
      _ ≤ a.mantissa := div_le_self (by positivity) (one_le_pow₀ (by norm_num))
      _ < 79228162514264337593543950336 := hlimit
      _ = 2 ^ (96 : Int) := by norm_num
      _ < 2 ^ (1000 : Int) := zpow_lt_zpow_right₀ (by norm_num) (by norm_num)

/-- The double that a number other than zero is rounded to, with its parts: the number lies between the midpoints
to the neighbours of the double. -/
structure IsNearest (x : Float) (p : Parts) (v : ℚ) : Prop where
  isFinite : x.isFinite = true
  parts : parts? x = some p
  negative : p.negative = decide (v < 0)
  normal : 2 ^ 52 ≤ p.m
  holds : p.interval.Holds |v|

theorem IsNearest.ranged {x : Float} {p : Parts} {v : ℚ} (h : IsNearest x p v) : p.Ranged :=
  ranged_of_parts? h.parts ((Nat.pow_pos (by decide)).trans_le h.normal)

/-- The double that is read from the digits of a decimal is the nearest one. -/
theorem exists_isNearest {negative : Bool} {m : Nat} {e : Int} {a : Decimal}
    (ha : a.toRat = signedRat negative (m * 10 ^ e)) (hne : a.toRat ≠ 0) :
    (Double.ofScientific m e).isFinite = true ∧ ∃ x p,
      x = (if negative then -Double.ofScientific m e else Double.ofScientific m e) ∧ IsNearest x p a.toRat := by
  have hpow := ten_zpow_pos e
  have habs : |a.toRat| = m * 10 ^ e := by
    rw [ha, abs_signedRat, abs_of_nonneg (by positivity)]
  have hm : 0 < m := by
    refine Nat.pos_of_ne_zero fun hzero => hne (abs_eq_zero.mp ?_)
    rw [habs, hzero, Nat.cast_zero, zero_mul]
  obtain ⟨hlow, hhigh⟩ := abs_toRat_bounds hne
  obtain ⟨u, hu, hnearest⟩ := exists_ofScientific hm habs hlow hhigh
  obtain ⟨s, w, hs, hx, hw⟩ : ∃ s w, (s = Float.Model.UnpackedFloat.Sign.negative ↔ negative = true) ∧
      (if negative then -Double.ofScientific m e else Double.ofScientific m e) = .ofModel (.pack w) ∧
        Nearest s w |a.toRat| := by
    cases negative with
    | true =>
      refine ⟨-.positive, u.neg, ⟨fun _ => rfl, fun _ => rfl⟩, ?_, hnearest.neg⟩
      rw [if_pos rfl, hu, hnearest.neg_ofModel]
    | false =>
      refine ⟨.positive, u, ⟨nofun, nofun⟩, ?_, hnearest⟩
      rw [if_neg (by decide), hu]
  obtain ⟨p, hp, hnegative, hbits, hholds⟩ := hw.exists_parts?
  have hsign : negative = decide (a.toRat < 0) := by
    have hpos : (0 : ℚ) < m * 10 ^ e := by positivity
    rw [ha]
    cases negative with
    | true => exact (decide_eq_true (neg_lt_zero.mpr hpos)).symm
    | false => exact (decide_eq_false hpos.le.not_gt).symm
  exact ⟨by rw [hu]; exact hnearest.isFinite, _, p, hx.symm, hw.isFinite, hp,
    (Bool.eq_iff_iff.mpr (hnegative.trans hs)).trans hsign, hbits, hholds⟩

/-- A number of few digits is what is written of its double. -/
theorem IsNearest.shortest_eq {x : Float} {p : Parts} {v : ℚ} (h : IsNearest x p v) (hne : v ≠ 0) (hfew : FewDigits v) :
    signedRat p.negative p.shortest.value = v := by
  obtain ⟨n, hn, hlt, hnormal, k, hk⟩ := hfew.exists_normal hne
  have hholds := h.holds
  rw [hk] at hholds
  rw [h.ranged.shortest_eq h.normal hn hlt hholds hnormal, h.negative, Digits.value, ← hk]
  by_cases hneg : v < 0
  · rw [decide_eq_true hneg, signedRat, if_pos rfl, abs_of_neg hneg, neg_neg]
  · rw [decide_eq_false hneg, signedRat, if_neg (by decide), abs_of_nonneg (not_lt.mp hneg)]

/-- Digits of a place that decimals have, below the limit, are a decimal. -/
theorem exists_toRat_eq (negative : Bool) {d : Digits} (hdigits : d.digits < 10 ^ 18) (hplace : -28 ≤ d.exponent)
    (hlt : d.value < mantissaLimit) : ∃ b : Decimal, b.toRat = signedRat negative d.value := by
  obtain ⟨m, k, hm, hk, hvalue⟩ : ∃ m k : Nat, m < mantissaLimit ∧ k ≤ scaleLimit ∧ d.value = m / 10 ^ k := by
    rcases Int.le_total 0 d.exponent with hpos | hneg
    · have hwhole : d.value = (d.digits * 10 ^ d.exponent.toNat : Nat) := by
        rw [Digits.value, mul_zpow_eq hpos, Int.sub_zero, zpow_zero, mul_one]
      refine ⟨_, 0, ?_, Nat.zero_le _, by rw [pow_zero, div_one, hwhole]⟩
      rw [hwhole] at hlt
      exact Nat.cast_lt.mp hlt
    · refine ⟨d.digits, (-d.exponent).toNat, hdigits.trans (by decide), by rw [scaleLimit]; omega, ?_⟩
      rw [Digits.value, div_eq_mul_inv, ← zpow_natCast, ← zpow_neg, Int.toNat_of_nonneg (by omega), neg_neg]
  exact ⟨⟨negative && m != 0, m, k, hm, hk⟩, by rw [toRat_of_parts rfl rfl, hvalue]⟩

/-- What is written of the double of a decimal is a decimal again, if it is below the limit. -/
theorem IsNearest.exists_toRat_eq {x : Float} {p : Parts} {a : Decimal} (h : IsNearest x p a.toRat) (hne : a.toRat ≠ 0)
    (hlt : p.shortest.value < mantissaLimit) : ∃ b : Decimal, b.toRat = signedRat p.negative p.shortest.value := by
  by_cases hfew : FewDigits a.toRat
  · exact ⟨a, (h.shortest_eq hne hfew).symm⟩
  · have habs : |a.toRat| = a.mantissa * 10 ^ (-(a.scale : Int)) := by
      rw [abs_toRat, zpow_neg, zpow_natCast, div_eq_mul_inv]
    have hmany : 2 ≤ a.mantissa := by
      by_contra hone
      exact hfew ⟨a.mantissa, by omega, _, habs⟩
    have hholds := h.holds
    rw [habs] at hholds
    have hplace := h.ranged.le_exponent hmany hholds
    have hscale : a.scale ≤ 28 := a.scale_le
    exact KeyboardPlate.Json.exists_toRat_eq _ h.ranged.shortest_bounds.2 (by omega) hlt

/-- A decimal of few digits is kept in the double that is read from its digits. -/
theorem exists_float {negative : Bool} {m : Nat} {e : Int} {a : Decimal}
    (ha : a.toRat = signedRat negative (m * 10 ^ e)) (hfew : FewDigits a.toRat) :
    (Double.ofScientific m e).isFinite = true ∧ ∃ x,
      x = (if negative then -Double.ofScientific m e else Double.ofScientific m e) ∧
        numeralValue? (numberText (.float x)).toList = some a.toRat := by
  by_cases hne : a.toRat = 0
  · have hm : m = 0 := by
      have habs := congrArg abs ha
      rw [hne, abs_zero, abs_signedRat, abs_mul, Nat.abs_cast, abs_of_pos (ten_zpow_pos e)] at habs
      exact_mod_cast (mul_eq_zero.mp habs.symm).resolve_right (ten_zpow_pos e).ne'
    have hread : Double.ofScientific 0 e = 0.0 := if_pos rfl
    rw [hm, hread, hne]
    refine ⟨by decide +kernel, _, rfl, ?_⟩
    cases negative with
    | true => decide +kernel
    | false => decide +kernel
  · obtain ⟨hfinite, x, p, hx, hnearest⟩ := exists_isNearest ha hne
    refine ⟨hfinite, x, hx, ?_⟩
    rw [numeralValue?_float hnearest.parts hnearest.isFinite]
    exact congrArg some (hnearest.shortest_eq hne hfew)

/-! ## The parts of a written number -/

/-- A text that gives a power of ten, or no text if there is none. -/
def IsPower (s : List Char) : Option (Bool × List Char) → Prop
  | none => s = []
  | some (down, ds) => ∃ mark r, (mark = 'e' ∨ mark = 'E') ∧ s = mark :: r ∧ Relaxed.powerSign r = (down, ds) ∧
      AreDigits ds ∧ ds ≠ []

/-- What stands where in a written number. -/
structure Splits (s : List Char) (negative : Bool) (whole : List Char) (fraction : Option (List Char))
    (exponent : Option (Bool × List Char)) (tail : List Char) : Prop where
  eq_append : s = signChars negative ++ (whole ++ (fractionChars fraction ++ tail))
  areDigits_whole : AreDigits whole
  whole_ne_nil : whole ≠ []
  eq_zero_of_head : whole.head? = some '0' → whole = ['0']
  areDigits_fraction : ∀ f ∈ fraction, AreDigits f ∧ f ≠ []
  isPower : IsPower tail exponent

theorem Relaxed.powerSign_of_ne {s : List Char} (hminus : ∀ r, s = '-' :: r → False) (hplus : ∀ r, s = '+' :: r → False) :
    powerSign s = (false, s) := by
  cases s with
  | nil => rfl
  | cons c s =>
    unfold powerSign
    split
    · rename_i heq
      exact (hminus _ heq).elim
    · rename_i heq
      exact (hplus _ heq).elim
    · rfl

theorem eq_append_of_spanDigits {s ds r : List Char} (h : spanDigits s = (ds, r)) : s = ds ++ r ∧ AreDigits ds := by
  rw [spanDigits_eq, Prod.mk.injEq] at h
  obtain ⟨rfl, rfl⟩ := h
  refine ⟨List.takeWhile_append_dropWhile.symm, fun c hc => ?_⟩
  have hdigit : isDecimalDigit c = true := List.mem_takeWhile_imp hc
  exact isDigit_iff.mpr (of_decide_eq_true hdigit)

theorem isPower_of_readExponent {mark : Char} (hmark : mark = 'e' ∨ mark = 'E') {s : List Char}
    {exponent : Option (Bool × List Char)} (h : readExponent s = some (exponent, [])) : IsPower (mark :: s) exponent := by
  rw [readExponent_eq] at h
  split at h
  rename_i down r hsign
  have hsign : Relaxed.powerSign s = (down, r) := by
    split at hsign
    · exact hsign
    · exact hsign
    · rename_i hminus hplus
      cases hsign
      exact Relaxed.powerSign_of_ne hminus hplus
  split at h
  · cases h
  rename_i hne
  obtain ⟨rfl, hrest⟩ := Prod.mk.inj (Option.some.inj h)
  obtain ⟨hdigits, hare⟩ := eq_append_of_spanDigits (show spanDigits r = (_, []) by rw [← hrest])
  rw [List.append_nil] at hdigits
  exact ⟨mark, s, hmark, rfl, by rw [hsign, ← hdigits], hare, hne⟩

theorem powered?_eq_some {negative negative' : Bool} {whole whole' s : List Char} {fraction fraction' : Option (List Char)}
    {exponent : Option (Bool × List Char)}
    (h : powered? negative whole fraction s = some (negative', whole', fraction', exponent, [])) :
    negative = negative' ∧ whole = whole' ∧ fraction = fraction' ∧ IsPower s exponent := by
  unfold powered? at h
  split at h
  · obtain ⟨⟨p, r⟩, hp, h⟩ := Option.bind_eq_some_iff.mp h
    cases h
    exact ⟨rfl, rfl, rfl, isPower_of_readExponent (.inl rfl) hp⟩
  · obtain ⟨⟨p, r⟩, hp, h⟩ := Option.bind_eq_some_iff.mp h
    cases h
    exact ⟨rfl, rfl, rfl, isPower_of_readExponent (.inr rfl) hp⟩
  · cases h
    exact ⟨rfl, rfl, rfl, rfl⟩

theorem exists_splits {s : List Char} {negative : Bool} {whole : List Char} {fraction : Option (List Char)}
    {exponent : Option (Bool × List Char)} (h : readNumberParts? s = some (negative, whole, fraction, exponent, [])) :
    ∃ tail, Splits s negative whole fraction exponent tail := by
  unfold readNumberParts? at h
  split at h
  rename_i negative' s₁ hsign
  have hs : s = signChars negative' ++ s₁ := by
    split at hsign
    · cases hsign
      rfl
    · cases hsign
      rfl
  split at h
  rename_i whole' s₂ hwhole
  obtain ⟨hs₁, hdigits⟩ := eq_append_of_spanDigits hwhole
  dsimp only at h
  split at h
  · cases h
  rename_i hgood
  rw [not_or] at hgood
  have hzero : whole'.head? = some '0' → whole' = ['0'] := fun hhead => by
    by_contra hne
    exact hgood.2 ⟨hhead, hne⟩
  split at h
  · rename_i rest
    split at h
    · cases h
    rename_i hsome
    obtain ⟨hrest, hfraction⟩ := eq_append_of_spanDigits (Prod.mk.eta (p := spanDigits rest)).symm
    have h : powered? negative' whole' (some (spanDigits rest).1) (spanDigits rest).2 =
        some (negative, whole, fraction, exponent, []) := by
      unfold powered?
      simp only [readExponent_eq]
      exact h
    obtain ⟨rfl, rfl, rfl, hpower⟩ := powered?_eq_some h
    refine ⟨(spanDigits rest).2, ?_, hdigits, hgood.1, hzero, ?_, hpower⟩
    · rw [hs, hs₁, fractionChars, List.cons_append, ← hrest]
    · rintro f ⟨⟩
      exact ⟨hfraction, hsome⟩
  · have h : powered? negative' whole' none s₂ = some (negative, whole, fraction, exponent, []) := by
      unfold powered?
      simp only [readExponent_eq]
      exact h
    obtain ⟨rfl, rfl, rfl, hpower⟩ := powered?_eq_some h
    refine ⟨s₂, by rw [hs, hs₁]; rfl, hdigits, hgood.1, hzero, ?_, hpower⟩
    intro f hf
    cases hf

/-! ## Reading a written number -/

namespace Relaxed

/-- No number goes on with the text, not even one in another base. -/
def Stops (t : List Char) : Prop := ∀ c rest, t = c :: rest → isNumberChar c = false ∧ c.isAlpha = false

/-- The number of the given parts. A whole number has to fit 64 bits. -/
def numberOf? (negative : Bool) (whole : List Char) (fraction : Option (List Char)) (exponent : Option (Bool × List Char)) :
    Option Json :=
  if fraction = none ∧ exponent = none then
    let n : Int := if negative then -natOfDigits whole else natOfDigits whole
    if -9223372036854775808 ≤ n ∧ n < 9223372036854775808 then some (.number (.int n)) else none
  else double? negative whole (fraction.getD []) (power exponent)

section
variable {s t tail whole : List Char} {negative : Bool} {fraction : Option (List Char)}
  {exponent : Option (Bool × List Char)}

theorem Stops.isDigit (ht : Stops t) {c : Char} {r : List Char} (h : t = c :: r) : c.isDigit = false := by
  have hend := (ht c r h).1
  simp only [isNumberChar, isNumeralChar, Bool.or_eq_false_iff] at hend
  exact hend.1.1.1.1.1

theorem Stops.ne (ht : Stops t) {c : Char} {r : List Char} (h : t = c :: r) {d : Char}
    (hd : isNumberChar d = true ∨ d.isAlpha = true) : c ≠ d := by
  rintro rfl
  obtain ⟨hend, halpha⟩ := ht c r h
  rcases hd with hd | hd
  · rw [hend] at hd
    cases hd
  · rw [halpha] at hd
    cases hd

/-- What follows the digits of a number. -/
theorem head_power (hpower : IsPower tail exponent) (ht : Stops t) {c : Char} {r : List Char} (h : tail ++ t = c :: r) :
    c.isDigit = false ∧ c ≠ '.' ∧ c ≠ 'x' ∧ c ≠ 'X' := by
  cases exponent with
  | none =>
    obtain rfl : tail = [] := hpower
    exact ⟨ht.isDigit h, ht.ne h (.inl rfl), ht.ne h (.inr rfl), ht.ne h (.inr rfl)⟩
  | some p =>
    obtain ⟨mark, r', rfl | rfl, rfl, -⟩ := hpower
    · cases h
      decide
    · cases h
      decide

theorem powerSign_append_of_ne_nil (hs : (powerSign s).2 ≠ []) (t : List Char) :
    powerSign (s ++ t) = ((powerSign s).1, (powerSign s).2 ++ t) := by
  cases s with
  | nil => exact absurd rfl hs
  | cons c s =>
    by_cases hminus : c = '-'
    · subst hminus
      rfl
    by_cases hplus : c = '+'
    · subst hplus
      rfl
    have hkeep : ∀ s, powerSign (c :: s) = (false, c :: s) := fun s =>
      powerSign_of_ne (fun r h => hminus (List.cons.inj h).1) fun r h => hplus (List.cons.inj h).1
    rw [List.cons_append, hkeep, hkeep]
    rfl

theorem readPower_of_isPower (hpower : IsPower tail exponent) (ht : Stops t) :
    readPower (tail ++ t) = (exponent.map fun p => power (some p), t) := by
  cases exponent with
  | none =>
    obtain rfl : tail = [] := hpower
    cases t with
    | nil => rfl
    | cons c rest =>
      have hmark : ¬(c = 'e' ∨ c = 'E') := by
        rintro (h | h)
        · exact ht.ne rfl (.inr rfl) h
        · exact ht.ne rfl (.inr rfl) h
      rw [List.nil_append, readPower_cons, if_neg hmark]
      rfl
  | some p =>
    obtain ⟨down, ds⟩ := p
    obtain ⟨mark, r, hmark, rfl, hsign, hds, hne⟩ := hpower
    have happend := powerSign_append_of_ne_nil (s := r) (by rw [hsign]; exact hne) t
    have hspan := spanDigits_append_of_head hds (fun c rest => ht.isDigit)
    rw [List.cons_append, readPower_cons, if_pos hmark, happend, hsign, hspan, if_neg hne]
    rfl

theorem numberOf?_of_ne (h : fraction ≠ none ∨ exponent ≠ none) : numberOf? negative whole fraction exponent =
    double? negative whole (fraction.getD []) (power exponent) :=
  if_neg fun hnone => h.elim (fun hne => hne hnone.1) fun hne => hne hnone.2

theorem numberOf?_none : numberOf? negative whole none none =
    if -9223372036854775808 ≤ (if negative then -natOfDigits whole else natOfDigits whole : Int) ∧
        (if negative then -natOfDigits whole else natOfDigits whole : Int) < 9223372036854775808 then
      some (.number (.int (if negative then -natOfDigits whole else natOfDigits whole)))
    else none := rfl

theorem afterWhole?_point (rest : List Char) : afterWhole? negative whole ('.' :: rest) =
    (double? negative whole (spanDigits rest).1 ((readPower (spanDigits rest).2).1.getD 0)).map
      fun n => (n, (readPower (spanDigits rest).2).2) := rfl

theorem afterWhole?_of_isPower (hfraction : ∀ f ∈ fraction, AreDigits f ∧ f ≠ []) (hpower : IsPower tail exponent)
    (ht : Stops t) : afterWhole? negative whole (fractionChars fraction ++ (tail ++ t)) =
      (numberOf? negative whole fraction exponent).map fun n => (n, t) := by
  have hread := readPower_of_isPower hpower ht
  have hhead := fun c r => head_power hpower ht (c := c) (r := r)
  cases fraction with
  | some f =>
    have hspan := spanDigits_append_of_head (hfraction f rfl).1 (fun c r h => (hhead c r h).1)
    have hgetD : (exponent.map fun p => power (some p)).getD 0 = power exponent := by
      cases exponent with
      | none => rfl
      | some p => rfl
    rw [numberOf?_of_ne (.inl (Option.some_ne_none f)), fractionChars, List.cons_append, afterWhole?_point, hspan, hread,
      hgetD]
    rfl
  | none =>
    rw [fractionChars, List.nil_append]
    unfold afterWhole?
    split
    · rename_i rest heq
      exact absurd rfl (hhead _ _ heq).2.1
    · rw [hread]
      cases exponent with
      | some p =>
        rw [numberOf?_of_ne (.inr (Option.some_ne_none p))]
        rfl
      | none =>
        rw [numberOf?_none]
        dsimp only [Option.map_none]
        generalize (if negative = true then (-natOfDigits whole : Int) else natOfDigits whole) = n
        by_cases hfits : -9223372036854775808 ≤ n ∧ n < 9223372036854775808
        · rw [if_pos hfits, if_pos hfits]
          rfl
        · rw [if_neg hfits, if_neg hfits]
          rfl

/-- What follows the whole part of a number. -/
theorem head_rest (hsplits : Splits s negative whole fraction exponent tail) (ht : Stops t) {c : Char} {r : List Char}
    (h : fractionChars fraction ++ (tail ++ t) = c :: r) : c.isDigit = false ∧ c ≠ 'x' ∧ c ≠ 'X' := by
  cases fraction with
  | none =>
    obtain ⟨hdigit, -, hmark⟩ := head_power hsplits.isPower ht h
    exact ⟨hdigit, hmark⟩
  | some f =>
    cases h
    decide

theorem readUnsigned?_of_splits (hsplits : Splits s negative whole fraction exponent tail) (ht : Stops t) :
    readUnsigned? negative (whole ++ (fractionChars fraction ++ (tail ++ t))) =
      (numberOf? negative whole fraction exponent).map fun n => (n, t) := by
  have hafter := @afterWhole?_of_isPower _ _ whole negative _ _ hsplits.areDigits_fraction hsplits.isPower ht
  have hspan := spanDigits_append_of_head hsplits.areDigits_whole fun c r h => (head_rest hsplits ht h).1
  obtain ⟨c, ds, hwhole⟩ := List.exists_cons_of_ne_nil hsplits.whole_ne_nil
  have hdigits := hsplits.areDigits_whole
  have hpoint : c ≠ '.' := by
    rintro rfl
    rw [hwhole] at hdigits
    exact absurd hdigits.head (by decide)
  by_cases hc : c = '0'
  · have hzero : whole = ['0'] := hsplits.eq_zero_of_head (by rw [hwhole, hc]; rfl)
    rw [hzero] at hspan hafter ⊢
    rw [List.singleton_append, readUnsigned?_digit (by decide), ← List.singleton_append, hspan, if_neg (by simp), if_pos rfl]
    exact hafter
  · have hne := hsplits.whole_ne_nil
    rw [hwhole] at hspan hafter hne ⊢
    rw [List.cons_append, readUnsigned?_digit hpoint, ← List.cons_append, hspan, if_neg hne, if_neg hc]
    exact hafter

theorem isSpace_of_isDigit {c : Char} (h : c.isDigit = true) : isSpace c = false := by
  obtain ⟨hlow, hhigh⟩ := isDigit_iff.mp h
  have hlow : 48 ≤ c.toNat := hlow
  have hhigh : c.toNat ≤ 57 := hhigh
  have hne : c ≠ '\n' ∧ c ≠ '\r' := by
    constructor
    · rintro rfl
      exact absurd hlow (by decide)
    · rintro rfl
      exact absurd hlow (by decide)
  rw [Bool.eq_false_iff]
  intro hspace
  simp only [isSpace, isLineEnd, Bool.or_eq_true, Bool.and_eq_true, decide_eq_true_eq, beq_iff_eq, hne.1, hne.2,
    false_or] at hspace
  omega

theorem isHex_mark {x : Char} {v : List Char} (h : isHex ('0' :: x :: v) = true) : x = 'x' ∨ x = 'X' := by
  cases v with
  | nil => cases h
  | cons d v =>
    have hmark := (Bool.and_eq_true_iff.mp h).1
    simpa using hmark

/-- Where a number can stand, it is read as the number of its parts. -/
theorem read?_of_splits (hsplits : Splits s negative whole fraction exponent tail) (ht : Stops t) (fuel : Nat) :
    read? (fuel + 1) (s ++ t) = (numberOf? negative whole fraction exponent).map fun n => (n, t) := by
  have hunsigned := readUnsigned?_of_splits hsplits ht
  obtain ⟨c, ds, hwhole⟩ := List.exists_cons_of_ne_nil hsplits.whole_ne_nil
  have hdigit : c.isDigit = true := by
    have hdigits := hsplits.areDigits_whole
    rw [hwhole] at hdigits
    exact hdigits.head
  have hdecimal : isDecimalDigit c = true := decide_eq_true (isDigit_iff.mp hdigit)
  have hne : ∀ d : Char, d.isDigit = false → c ≠ d := by
    rintro d hd rfl
    rw [hdigit] at hd
    cases hd
  obtain ⟨u, hu⟩ : ∃ u, u = whole ++ (fractionChars fraction ++ (tail ++ t)) := ⟨_, rfl⟩
  obtain ⟨r, hr⟩ : ∃ r, u = c :: r := ⟨_, by rw [hu, hwhole, List.cons_append]⟩
  have hword : word? u = none := by
    rw [hr]
    exact word?_cons (fun h => h.elim (hne 'I' rfl) (hne 'N' rfl)) r
  have hhex : isHex u = false := by
    rw [Bool.eq_false_iff]
    intro hhex
    obtain ⟨x, v, hv⟩ := isHex_starts hhex
    have hzero : whole = ['0'] := hsplits.eq_zero_of_head (by
      rw [hwhole, List.head?_cons, ← (List.cons.inj (hr.symm.trans hv)).1])
    rw [hu, hzero] at hv
    obtain ⟨-, hx, hX⟩ := head_rest hsplits ht (List.cons.inj hv).2
    rw [hu, hzero, hv] at hhex
    rcases isHex_mark hhex with h | h
    · exact hx h
    · exact hX h
  have hs : s ++ t = signChars negative ++ u := by
    rw [hsplits.eq_append, hu]
    simp only [List.append_assoc]
  rw [hu] at hword hhex
  rw [hs, ← hunsigned]
  cases negative with
  | true =>
    rw [read?_number (c := '-') (t := u) rfl fuel (by rw [signChars]; exact skip_cons (by decide) u), readNumber?_minus, hu,
      hword, hhex]
    rfl
  | false =>
    have hstarts : startsNumber c = true := by simp [startsNumber, startsUnsigned, hdecimal]
    have hskip : skip (signChars false ++ u) = c :: r := by
      rw [signChars, if_neg (by decide), List.nil_append, hr, skip_cons (hne '/' rfl), isSpace_of_isDigit hdigit]
      rfl
    rw [read?_number hstarts fuel hskip, readNumber?_cons (hne '+' rfl) (hne '-' rfl), ← hr, hu, hword, hhex]
    rfl

end

end Relaxed

/-- A number without a point and without a power. -/
def isWhole (s : List Char) : Bool := s.all fun c => c.isDigit || c == '-'

/-- A number that is kept as it is written: a whole number of 64 bits, without a point and without a power, or
another number of at most fifteen digits. -/
def IsKept (s : List Char) (x : ℚ) : Prop :=
  if isWhole s then -9223372036854775808 ≤ x ∧ x < 9223372036854775808 else FewDigits x

section
variable {s t tail whole : List Char} {negative : Bool} {fraction : Option (List Char)}
  {exponent : Option (Bool × List Char)}

theorem Splits.isWhole_iff (h : Splits s negative whole fraction exponent tail) :
    isWhole s = true ↔ fraction = none ∧ exponent = none := by
  have hmem : ∀ c ∈ s, c.isDigit = false → c ≠ '-' → isWhole s ≠ true := by
    intro c hc hdigit hminus hall
    have hbad := List.all_eq_true.mp hall c hc
    simp [hdigit, hminus] at hbad
  constructor
  · intro hall
    constructor
    · rw [Option.eq_none_iff_forall_ne_some]
      rintro f rfl
      exact hmem '.' (by rw [h.eq_append]; simp [fractionChars]) (by decide) (by decide) hall
    · rw [Option.eq_none_iff_forall_ne_some]
      rintro p rfl
      obtain ⟨mark, r, hmark, htail, -⟩ := h.isPower
      have hin : mark ∈ s := by rw [h.eq_append, htail]; simp
      rcases hmark with rfl | rfl
      · exact hmem 'e' hin (by decide) (by decide) hall
      · exact hmem 'E' hin (by decide) (by decide) hall
  · rintro ⟨rfl, rfl⟩
    have htail : tail = [] := h.isPower
    rw [isWhole, List.all_eq_true, h.eq_append, htail]
    intro c hc
    rw [fractionChars, List.append_nil, List.append_nil] at hc
    rcases List.mem_append.mp hc with hc | hc
    · unfold signChars at hc
      split at hc
      · rw [List.mem_singleton.mp hc]
        rfl
      · cases hc
    · simp [h.areDigits_whole c hc]

theorem Splits.exists_cons (h : Splits s negative whole fraction exponent tail) :
    ∃ c r, s = c :: r ∧ (c = '-' ∨ c.isDigit = true) := by
  obtain ⟨c, ds, hwhole⟩ := List.exists_cons_of_ne_nil h.whole_ne_nil
  rw [h.eq_append, hwhole]
  cases negative with
  | true => exact ⟨'-', _, rfl, .inl rfl⟩
  | false => exact ⟨c, _, rfl, .inr (h.areDigits_whole c (hwhole ▸ List.mem_cons_self))⟩

/-- A number in a text has its parts, and denotes what they do. -/
theorem exists_splits_of_numeralValue? {x : ℚ} (h : numeralValue? s = some x) :
    ∃ negative whole fraction exponent tail, Splits s negative whole fraction exponent tail ∧
      x = numeralValue negative whole fraction exponent := by
  unfold numeralValue? at h
  split at h
  · rename_i negative whole fraction exponent hparts
    obtain ⟨tail, hsplits⟩ := exists_splits hparts
    exact ⟨negative, whole, fraction, exponent, tail, hsplits, (Option.some.inj h).symm⟩
  · cases h

theorem numeralValue_whole : numeralValue negative whole none none =
    (if negative then -(natOfDigits whole : Int) else natOfDigits whole : Int) := by
  rw [numeralValue, power, Option.getD_none, List.append_nil, List.length_nil, Nat.cast_zero, Int.sub_zero, zpow_zero,
    mul_one, signedRat]
  push_cast
  rfl

/-- A whole number is read if it fits 64 bits, and as itself. -/
theorem read?_whole {x : ℚ} (hvalue : numeralValue? s = some x) (hwhole : isWhole s = true) (ht : Relaxed.Stops t)
    (fuel : Nat) : ∃ n : Int, x = n ∧ Relaxed.read? (fuel + 1) (s ++ t) =
      if -9223372036854775808 ≤ n ∧ n < 9223372036854775808 then some (.number (.int n), t) else none := by
  obtain ⟨negative, whole, fraction, exponent, tail, hsplits, rfl⟩ := exists_splits_of_numeralValue? hvalue
  obtain ⟨rfl, rfl⟩ := hsplits.isWhole_iff.mp hwhole
  refine ⟨_, numeralValue_whole, ?_⟩
  rw [Relaxed.read?_of_splits hsplits ht, Relaxed.numberOf?_none, apply_ite (Option.map _)]
  rfl

/-- A whole number of more than 64 bits cannot be read. -/
theorem read?_eq_none {x : ℚ} (hvalue : numeralValue? s = some x) (hwhole : isWhole s = true)
    (hout : ¬ (-9223372036854775808 ≤ x ∧ x < 9223372036854775808)) (ht : Relaxed.Stops t) (fuel : Nat) :
    Relaxed.read? fuel (s ++ t) = none := by
  cases fuel with
  | zero => rfl
  | succ fuel =>
    obtain ⟨n, rfl, hread⟩ := read?_whole hvalue hwhole ht fuel
    exact hread.trans (if_neg fun hfits => hout (by exact_mod_cast hfits))

/-- Another number is read as the double of its parts, if that is finite. -/
theorem read?_double (hsplits : Splits s negative whole fraction exponent tail) (hwhole : isWhole s = false)
    (ht : Relaxed.Stops t) (fuel : Nat) {x : Float}
    (hx : x = Double.ofScientific (natOfDigits (whole ++ fraction.getD [])) (power exponent - (fraction.getD []).length))
    (hfinite : x.isFinite = true) :
    Relaxed.read? (fuel + 1) (s ++ t) = some (.number (.float (if negative then -x else x)), t) := by
  have hne : fraction ≠ none ∨ exponent ≠ none := by
    by_contra hnone
    rw [not_or, not_not, not_not] at hnone
    exact Bool.eq_false_iff.mp hwhole (hsplits.isWhole_iff.mpr hnone)
  rw [Relaxed.read?_of_splits hsplits ht, Relaxed.numberOf?_of_ne hne, Relaxed.double?, ← hx, if_pos hfinite]
  rfl

/-- Another number than zero is read as the nearest double. -/
theorem exists_read?_nearest {a : Decimal} (hvalue : numeralValue? s = some a.toRat) (hne : a.toRat ≠ 0)
    (hwhole : isWhole s = false) (ht : Relaxed.Stops t) (fuel : Nat) :
    ∃ x p, Relaxed.read? (fuel + 1) (s ++ t) = some (.number (.float x), t) ∧ IsNearest x p a.toRat := by
  obtain ⟨negative, whole, fraction, exponent, tail, hsplits, hparts⟩ := exists_splits_of_numeralValue? hvalue
  obtain ⟨hfinite, x, p, hx, hnearest⟩ := exists_isNearest hparts hne
  exact ⟨x, p, hx ▸ read?_double hsplits hwhole ht fuel rfl hfinite, hnearest⟩

/-- What is kept of a written number denotes what was written. -/
theorem exists_read? {a : Decimal} (hvalue : numeralValue? s = some a.toRat) (hkept : IsKept s a.toRat)
    (ht : Relaxed.Stops t) (fuel : Nat) : ∃ n, Relaxed.read? (fuel + 1) (s ++ t) = some (.number n, t) ∧
      numeralValue? (numberText n).toList = some a.toRat := by
  unfold IsKept at hkept
  split at hkept
  · rename_i hwhole
    obtain ⟨n, hn, hread⟩ := read?_whole hvalue hwhole ht fuel
    rw [hn] at hkept ⊢
    have hfits : -9223372036854775808 ≤ n ∧ n < 9223372036854775808 := by exact_mod_cast hkept
    obtain ⟨m, -, hchars, hm⟩ := exists_numeral_int n
    exact ⟨.int n, hread.trans (if_pos hfits), by rw [hchars, Numeral.numeralValue?_chars, hm]⟩
  · rename_i hwhole
    obtain ⟨negative, whole, fraction, exponent, tail, hsplits, hparts⟩ := exists_splits_of_numeralValue? hvalue
    obtain ⟨hfinite, x, hx, hnumber⟩ := exists_float hparts hkept
    exact ⟨.float x, hx ▸ read?_double hsplits (Bool.eq_false_iff.mpr hwhole) ht fuel rfl hfinite, hnumber⟩

end

end KeyboardPlate.Json
