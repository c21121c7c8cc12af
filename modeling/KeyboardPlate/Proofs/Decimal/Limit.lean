import KeyboardPlate.Proofs.Decimal.Text

/-!
# Texts of numbers beyond the decimals

No text of a number that reaches `2 ^ 96` is read. Digits are left out behind the point only, so the whole part
that is read fits a decimal, and a power of ten is never taken to a number that does not.
-/

set_option autoImplicit false

namespace KeyboardPlate.Decimal

variable {negative any : Bool} {m k : Nat} {r : Decimal} {whole s t : List Char} {fraction : Option (List Char)}

theorem abs_toRat_lt (a : Decimal) : |a.toRat| < mantissaLimit := by
  rw [abs_toRat]
  refine (div_le_self (Nat.cast_nonneg _) (one_le_pow₀ (by norm_num))).trans_lt ?_
  exact Nat.cast_lt.mpr a.mantissa_lt

/-! ## Plain texts -/

theorem lt_of_readDigits? (hs : AreDigits s) (hm : m < mantissaLimit)
    (h : readDigits? negative m k false any (s ++ t) = some r) : m * 10 ^ s.length + natOfDigits s < mantissaLimit := by
  induction s generalizing m any with
  | nil =>
    rw [List.length_nil, Nat.pow_zero, Nat.mul_one]
    exact hm
  | cons c s ih =>
    rw [List.cons_append, readDigits?_digit hs.head] at h
    simp only [Bool.false_and, Bool.false_eq_true, if_false] at h
    split at h
    · rename_i hnext
      have hrest := ih hs.tail hnext h
      rw [natOfDigits_cons, List.length_cons]
      calc m * 10 ^ (s.length + 1) + ((c.toNat - '0'.toNat) * 10 ^ s.length + natOfDigits s)
        _ = (10 * m + (c.toNat - '0'.toNat)) * 10 ^ s.length + natOfDigits s := by ring
        _ < mantissaLimit := hrest
    · cases h

theorem natOfDigits_lt_of_readPlain? (hwhole : AreDigits whole) (hne : whole ≠ [])
    (h : readPlain? (signChars negative ++ (whole ++ t)) = some r) : natOfDigits whole < mantissaLimit := by
  obtain ⟨c, ds, rfl⟩ := List.exists_cons_of_ne_nil hne
  rw [List.cons_append, readPlain?_sign hwhole.head, ← List.cons_append] at h
  have hlt := lt_of_readDigits? hwhole (by decide) h
  rwa [Nat.zero_mul, Nat.zero_add] at hlt

/-- A fraction does not carry a whole part past the limit. -/
theorem abs_numeralValue_lt (hfraction : AreDigits (fraction.getD [])) (hlt : natOfDigits whole < mantissaLimit) :
    |numeralValue negative whole fraction none| < mantissaLimit := by
  have hten : (0 : ℚ) < 10 ^ (fraction.getD []).length := by positivity
  have hdigits : natOfDigits (whole ++ fraction.getD []) < mantissaLimit * 10 ^ (fraction.getD []).length := by
    have hlast := natOfDigits_lt hfraction
    rw [natOfDigits_append]
    calc natOfDigits whole * 10 ^ (fraction.getD []).length + natOfDigits (fraction.getD [])
      _ < (natOfDigits whole + 1) * 10 ^ (fraction.getD []).length := by
        rw [Nat.succ_mul]
        omega
      _ ≤ mantissaLimit * 10 ^ (fraction.getD []).length := Nat.mul_le_mul_right _ hlt
  have hvalue : |numeralValue negative whole fraction none| =
      natOfDigits (whole ++ fraction.getD []) / 10 ^ (fraction.getD []).length := by
    rw [numeralValue, power, zero_sub, zpow_neg, zpow_natCast, ← div_eq_mul_inv, abs_signedRat,
      abs_of_nonneg (div_nonneg (Nat.cast_nonneg _) hten.le)]
  rw [hvalue, div_lt_iff₀ hten]
  exact_mod_cast hdigits

/-! ## Scientific texts -/

theorem readScientific?_eq_none (hs : ∀ c ∈ s, isExponentMark c = false) : readScientific? s = none := by
  have hdrop : s.dropWhile (fun c => !isExponentMark c) = [] :=
    List.dropWhile_eq_nil_iff.mpr fun c hc => by rw [hs c hc]; rfl
  unfold readScientific?
  rw [hdrop]
  cases readPlain? (s.takeWhile fun c => !isExponentMark c) with
  | none => rfl
  | some b => rfl

/-- Moving the point to the right loses nothing. -/
theorem mul_pow_of_shiftUp? {b : Decimal} (h : b.shiftUp? k = some r) :
    r.mantissa * 10 ^ b.scale = b.mantissa * 10 ^ (k + r.scale) := by
  unfold shiftUp? ofParts? at h
  split at h
  · rename_i hinside
    split at h
    · cases h
      dsimp only
      rw [Nat.add_sub_cancel' hinside]
    · cases h
  · rename_i hoverflow
    split at h
    · cases h
    · split at h
      · cases h
        dsimp only
        rw [Nat.pow_eq, Nat.mul_assoc, ← Nat.pow_add, Nat.sub_add_cancel (by omega), Nat.add_zero]
      · cases h

theorem eq_of_readExponent?_plus {ds : List Char} (hds : AreDigits ds) (hne : ds ≠ [])
    (h : readExponent? ('+' :: ds) = some k) : k = natOfDigits ds := by
  change (natOfDigits? ds >>= fun n => if n < 4294967296 then some n else none) = some k at h
  rw [natOfDigits?_eq hds hne] at h
  change (if natOfDigits ds < 4294967296 then some (natOfDigits ds) else none) = some k at h
  split at h
  · exact (Option.some.inj h).symm
  · cases h

/-- A scientific text that is read denotes a number below the limit. -/
theorem ShortBase.abs_numeralValue_lt (h : ShortBase whole fraction) {down : Bool} {ds : List Char} (hds : AreDigits ds)
    (hne : ds ≠ []) (hr : readChars?
      (signChars negative ++ (whole ++ (fractionChars fraction ++ powerChars (some (down, ds))))) = some r) :
    |numeralValue negative whole fraction (some (down, ds))| < mantissaLimit := by
  obtain ⟨b, hnormalized, hsign, hmantissa, hscale, hread⟩ := h.exists_base negative down ds
  have habs : |numeralValue negative whole fraction (some (down, ds))| =
      b.mantissa * 10 ^ (power (some (down, ds)) - b.scale) := by
    rw [numeralValue, ← hmantissa, ← hscale, abs_signedRat,
      abs_of_nonneg (mul_nonneg (Nat.cast_nonneg _) (zpow_nonneg (by norm_num) _))]
  rw [hread] at hr
  cases down with
  | true =>
    have hle : (10 : ℚ) ^ (power (some (true, ds)) - b.scale) ≤ 1 := by
      refine zpow_le_one_of_nonpos₀ (by norm_num) ?_
      rw [power, if_pos rfl]
      omega
    rw [habs]
    exact (mul_le_of_le_one_right (Nat.cast_nonneg _) hle).trans_lt (Nat.cast_lt.mpr b.mantissa_lt)
  | false =>
    rw [if_neg (by decide)] at hr
    obtain ⟨k, hk, hr⟩ := Option.bind_eq_some_iff.mp hr
    obtain rfl := eq_of_readExponent?_plus hds hne hk
    rw [habs, power, if_neg (by decide), ← abs_toRat_of_mul_pow (mul_pow_of_shiftUp? hr)]
    exact r.abs_toRat_lt

end KeyboardPlate.Decimal
