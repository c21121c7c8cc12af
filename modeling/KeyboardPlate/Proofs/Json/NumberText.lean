import KeyboardPlate.Proofs.Decimal.Limit
import KeyboardPlate.Proofs.Double.Shortest
import KeyboardPlate.Proofs.Json.Numeral

/-!
# Numbers and what their texts denote

A numeral is a sign, digits, perhaps fraction digits and perhaps a power of ten. The text of every number is
a numeral, and in front of its power it has few digits; so a decimal is read from it whenever the number
denoted is one.
-/

set_option autoImplicit false

namespace KeyboardPlate.Json

open Double Decimal

/-- The number that a text denotes by the rules for numbers in JSON. -/
def numeralValue? (s : List Char) : Option ℚ :=
  match readNumberParts? s with
  | some (negative, whole, fraction, exponent, []) => some (numeralValue negative whole fraction exponent)
  | _ => none

theorem spanDigits_append_of_head {ds : List Char} (hds : AreDigits ds) {rest : List Char}
    (hrest : ∀ c t, rest = c :: t → c.isDigit = false) : spanDigits (ds ++ rest) = (ds, rest) := by
  have hpos : ∀ c ∈ ds, isDecimalDigit c = true := by
    intro c hc
    rw [isDecimalDigit, decide_eq_true_iff]
    exact isDigit_iff.mp (hds c hc)
  rw [spanDigits_eq, List.takeWhile_append_of_pos hpos, List.dropWhile_append_of_pos hpos]
  cases rest with
  | nil => simp
  | cons c t =>
    have hc : isDecimalDigit c = false := by
      rw [isDecimalDigit, decide_eq_false_iff_not, ← isDigit_iff, hrest c t rfl]
      decide
    rw [List.takeWhile_cons_of_neg (by simp [hc]), List.dropWhile_cons_of_neg (by simp [hc]), List.append_nil]

theorem spanDigits_digits {ds : List Char} (hds : AreDigits ds) : spanDigits ds = (ds, []) := by
  have hspan := @spanDigits_append_of_head ds hds [] (fun _ _ h => by cases h)
  rwa [List.append_nil] at hspan

theorem isDigit_powerChars {exponent : Option (Bool × List Char)} {c : Char} {t : List Char}
    (h : powerChars exponent = c :: t) : c.isDigit = false := by
  cases exponent with
  | none => cases h
  | some p =>
    cases h
    rfl

theorem isDigit_fractionChars {fraction : Option (List Char)} {exponent : Option (Bool × List Char)} {c : Char}
    {t : List Char} (h : fractionChars fraction ++ powerChars exponent = c :: t) : c.isDigit = false := by
  cases fraction with
  | none => exact isDigit_powerChars h
  | some f =>
    cases h
    rfl

/-- A number from its power on. -/
def powered? (negative : Bool) (whole : List Char) (fraction : Option (List Char)) (s : List Char) :
    Option (Bool × List Char × Option (List Char) × Option (Bool × List Char) × List Char) :=
  match s with
  | 'e' :: rest => readExponent rest >>= fun p => pure (negative, whole, fraction, p.1, p.2)
  | 'E' :: rest => readExponent rest >>= fun p => pure (negative, whole, fraction, p.1, p.2)
  | _ => pure (negative, whole, fraction, none, s)

theorem powered?_powerChars (negative : Bool) (whole : List Char) (fraction : Option (List Char))
    {exponent : Option (Bool × List Char)} (h : ∀ p, exponent = some p → AreDigits p.2 ∧ p.2 ≠ []) :
    powered? negative whole fraction (powerChars exponent) = some (negative, whole, fraction, exponent, []) := by
  cases exponent with
  | none => rfl
  | some p =>
    obtain ⟨down, ds⟩ := p
    obtain ⟨hds, hne⟩ := h _ rfl
    have hread : readExponent ((if down then '-' else '+') :: ds) = some (some (down, ds), []) := by
      rw [readExponent_eq]
      cases down with
      | true => simp [spanDigits_digits hds, hne]
      | false => simp [spanDigits_digits hds, hne]
    change readExponent _ >>= _ = _
    rw [hread]
    rfl

/-- A numeral as JSON has it, but with a sign in its power. -/
structure Numeral where
  negative : Bool
  whole : List Char
  fraction : Option (List Char)
  exponent : Option (Bool × List Char)
  areDigits_whole : AreDigits whole
  whole_ne_nil : whole ≠ []
  eq_zero_of_head : whole.head? = some '0' → whole = ['0']
  areDigits_fraction : AreDigits (fraction.getD [])
  fraction_ne_nil : fraction ≠ some []
  areDigits_exponent : ∀ p, exponent = some p → AreDigits p.2 ∧ p.2 ≠ []

namespace Numeral

def chars (n : Numeral) : List Char :=
  signChars n.negative ++ (n.whole ++ (fractionChars n.fraction ++ powerChars n.exponent))

def value (n : Numeral) : ℚ := numeralValue n.negative n.whole n.fraction n.exponent

theorem readNumberParts?_chars (n : Numeral) :
    readNumberParts? n.chars = some (n.negative, n.whole, n.fraction, n.exponent, []) := by
  obtain ⟨negative, whole, fraction, exponent, hwhole, hne, hzero, hfraction, hfraction', hexponent⟩ := n
  dsimp only [chars]
  unfold readNumberParts?
  split
  rename_i negative' s hsign
  obtain ⟨rfl, rfl⟩ : negative' = negative ∧ s = whole ++ (fractionChars fraction ++ powerChars exponent) := by
    cases negative with
    | true =>
      cases hsign
      exact ⟨rfl, rfl⟩
    | false =>
      obtain ⟨c, ds, rfl⟩ := List.exists_cons_of_ne_nil hne
      split at hsign
      · rename_i heq
        cases heq
        cases hwhole.head
      · cases hsign
        exact ⟨rfl, rfl⟩
  rw [spanDigits_append_of_head hwhole (fun c t => isDigit_fractionChars)]
  have hbad : ¬ (whole = [] ∨ (whole.head? = some '0' ∧ whole ≠ ['0'])) := by
    rintro (h | ⟨h, h'⟩)
    · exact hne h
    · exact h' (hzero h)
  dsimp only
  rw [if_neg hbad]
  have hpowered := powered?_powerChars negative' whole fraction hexponent
  unfold powered? at hpowered
  simp only [readExponent_eq] at hpowered
  cases fraction with
  | none =>
    cases exponent with
    | none => rfl
    | some p => exact hpowered
  | some f =>
    have hf : f ≠ [] := fun h => hfraction' (by rw [h])
    have hspan : spanDigits (f ++ powerChars exponent) = (f, powerChars exponent) :=
      spanDigits_append_of_head hfraction fun c t => isDigit_powerChars
    split
    · rename_i rest heq
      obtain rfl : f ++ powerChars exponent = rest := (List.cons.inj heq).2
      rw [hspan, if_neg hf]
      exact hpowered
    · rename_i hpoint
      exact (hpoint _ rfl).elim

theorem numeralValue?_chars (n : Numeral) : numeralValue? n.chars = some n.value := by
  rw [numeralValue?, readNumberParts?_chars]
  rfl

/-- If the numeral has a power, it has one digit before the point and not many behind it. -/
def Short (n : Numeral) : Prop := n.exponent = none ∨ ShortBase n.whole n.fraction

/-- A short numeral is read as the number it denotes if some decimal is that number. -/
theorem Short.exists_readChars? {n : Numeral} (h : n.Short) {a : Decimal} (ha : a.toRat = n.value) :
    ∃ r, readChars? n.chars = some r ∧ r.toRat = n.value := by
  unfold value at ha ⊢
  unfold chars
  cases hexponent : n.exponent with
  | none =>
    rw [hexponent] at ha
    obtain ⟨r, hr, hvalue⟩ := exists_readPlain? n.negative n.areDigits_whole n.whole_ne_nil n.areDigits_fraction ha
    refine ⟨r, readChars?_of_readPlain? ?_, hvalue⟩
    rwa [powerChars, List.append_nil]
  | some p =>
    obtain ⟨down, ds⟩ := p
    obtain ⟨hds, hne⟩ := n.areDigits_exponent _ hexponent
    rw [hexponent] at ha
    rcases h with h | h
    · rw [hexponent] at h
      cases h
    · exact h.exists_readChars? hds hne ha

/-- A short numeral that is read denotes a number below the limit. -/
theorem Short.abs_value_lt {n : Numeral} (h : n.Short) {r : Decimal} (hr : readChars? n.chars = some r) :
    |n.value| < mantissaLimit := by
  unfold value
  unfold chars at hr
  cases hexponent : n.exponent with
  | none =>
    rw [hexponent, powerChars, List.append_nil, readChars?, readScientific?_eq_none fun c hc =>
      isExponentMark_of_mem n.areDigits_whole n.areDigits_fraction hc, Option.or_none] at hr
    exact abs_numeralValue_lt n.areDigits_fraction (natOfDigits_lt_of_readPlain? n.areDigits_whole n.whole_ne_nil hr)
  | some p =>
    obtain ⟨down, ds⟩ := p
    obtain ⟨hds, hne⟩ := n.areDigits_exponent _ hexponent
    rw [hexponent] at hr
    rcases h with h | h
    · rw [hexponent] at h
      cases h
    · exact h.abs_numeralValue_lt hds hne hr

theorem isBlank_of_mem_chars {n : Numeral} {c : Char} (hc : c ∈ n.chars) : isBlank c = false := by
  unfold chars at hc
  rcases List.mem_append.mp hc with hc | hc
  · unfold signChars at hc
    split at hc
    · rw [List.mem_singleton.mp hc]
      rfl
    · cases hc
  rcases List.mem_append.mp hc with hc | hc
  · exact isBlank_of_isDigit (n.areDigits_whole c hc)
  rcases List.mem_append.mp hc with hc | hc
  · cases hfraction : n.fraction with
    | none =>
      rw [hfraction] at hc
      cases hc
    | some f =>
      rw [hfraction] at hc
      rcases List.mem_cons.mp hc with rfl | hc
      · rfl
      · have hdigits := n.areDigits_fraction
        rw [hfraction] at hdigits
        exact isBlank_of_isDigit (hdigits c hc)
  · cases hexponent : n.exponent with
    | none =>
      rw [hexponent] at hc
      cases hc
    | some p =>
      rw [hexponent] at hc
      rcases List.mem_cons.mp hc with rfl | hc
      · rfl
      rcases List.mem_cons.mp hc with rfl | hc
      · cases p.1 <;> rfl
      · exact isBlank_of_isDigit ((n.areDigits_exponent _ hexponent).1 c hc)

theorem parse?_chars (n : Numeral) : Decimal.parse? (String.ofList n.chars) = readChars? n.chars := by
  have htrim := @trimBlanks_append [] n.chars [] (by simp) (fun c hc => isBlank_of_mem_chars hc) (by simp)
  rw [List.nil_append, List.append_nil] at htrim
  rw [Decimal.parse?, String.toList_ofList, htrim]

end Numeral

/-! ## Texts of doubles -/

theorem head_toDigits {n : Nat} (h : 0 < n) : (Nat.toDigits 10 n).head? ≠ some '0' := by
  intro hhead
  obtain ⟨t, ht⟩ : ∃ t, Nat.toDigits 10 n = '0' :: t := by
    cases hs : Nat.toDigits 10 n with
    | nil => exact absurd hs Nat.toDigits_ne_nil
    | cons c t =>
      rw [hs] at hhead
      cases hhead
      exact ⟨t, rfl⟩
  have hdigits := AreDigits.toDigits n
  have hvalue := natOfDigits_toDigits n
  rw [ht] at hdigits hvalue
  have hlt : n < 10 ^ t.length := by
    have hrest := natOfDigits_lt hdigits.tail
    rw [natOfDigits_cons] at hvalue
    simp only [Nat.sub_self, Nat.zero_mul, Nat.zero_add] at hvalue
    omega
  rcases Nat.eq_zero_or_pos t.length with hzero | hpos
  · rw [hzero] at hlt
    omega
  · have hle := (Nat.length_toDigits_le_iff (by decide) hpos).mpr hlt
    rw [ht, List.length_cons] at hle
    omega

/-- Digits that are not zero, or the plain zero. -/
def Proper (d : Digits) : Prop := d = ⟨0, 0⟩ ∨ 0 < d.digits

theorem mul_pow_mul_zpow (n j : Nat) (e : Int) : ((n * 10 ^ j : Nat) : ℚ) * 10 ^ e = n * 10 ^ (j + e) := by
  rw [zpow_add₀ (by norm_num), zpow_natCast]
  push_cast
  ring

/-- The value of a numeral whose digits are those of a number, perhaps with zeros at their ends. -/
theorem numeralValue_eq {negative : Bool} {whole f : List Char} {fraction : Option (List Char)}
    {exponent : Option (Bool × List Char)} {d : Digits} {j : Nat} (hf : fraction.getD [] = f)
    (hdigits : natOfDigits (whole ++ f) = d.digits * 10 ^ j) (hplace : j + (power exponent - f.length) = d.exponent) :
    numeralValue negative whole fraction exponent = signedRat negative (d.digits * 10 ^ d.exponent) := by
  rw [numeralValue, hf, hdigits, mul_pow_mul_zpow, hplace]

/-- A numeral with a point and no power. -/
theorem exists_pointed (negative : Bool) {whole f : List Char} {d : Digits} {j : Nat} (hwhole : AreDigits whole)
    (hne : whole ≠ []) (hzero : whole.head? = some '0' → whole = ['0']) (hf : AreDigits f) (hf' : f ≠ [])
    (hdigits : natOfDigits (whole ++ f) = d.digits * 10 ^ j) (hplace : (j : Int) - f.length = d.exponent) :
    ∃ n : Numeral, n.exponent = none ∧ n.chars = signChars negative ++ (whole ++ '.' :: f) ∧
      n.value = signedRat negative (d.digits * 10 ^ d.exponent) := by
  have hvalue : numeralValue negative whole (some f) none = signedRat negative (d.digits * 10 ^ d.exponent) := by
    refine numeralValue_eq (Option.getD_some ..) hdigits ?_
    rw [power, ← hplace]
    omega
  refine ⟨⟨negative, whole, some f, none, hwhole, hne, hzero, hf, fun h => hf' (Option.some.inj h), by simp⟩, rfl, ?_,
    hvalue⟩
  simp [Numeral.chars, fractionChars, powerChars]

/-- Digits written with a point are a numeral without a power, of the value of the digits. -/
theorem exists_positional {d : Digits} (hd : Proper d) (negative : Bool) :
    ∃ n : Numeral, n.exponent = none ∧ n.chars = signChars negative ++ d.positional true ∧
      n.value = signedRat negative (d.digits * 10 ^ d.exponent) := by
  have hdigits := AreDigits.toDigits d.digits
  have hvalue := natOfDigits_toDigits d.digits
  have hne : Nat.toDigits 10 d.digits ≠ [] := Nat.toDigits_ne_nil
  have hpos : 0 < (Nat.toDigits 10 d.digits).length := Nat.length_toDigits_pos
  have hhead : (Nat.toDigits 10 d.digits).head? = some '0' → Nat.toDigits 10 d.digits = ['0'] ∧ d = ⟨0, 0⟩ := by
    intro hhead
    rcases hd with rfl | hd
    · exact ⟨rfl, rfl⟩
    · exact absurd hhead (head_toDigits hd)
  unfold Digits.positional
  dsimp only
  generalize Nat.toDigits 10 d.digits = ds at hdigits hvalue hne hpos hhead
  split
  · rename_i hwhole
    have hall : natOfDigits (ds ++ List.replicate d.exponent.toNat '0' ++ ['0']) =
        d.digits * 10 ^ (d.exponent.toNat + 1) := by
      rw [natOfDigits_append, natOfDigits_append, hvalue, natOfDigits_zeros, List.length_replicate]
      change (_ + 0) * 10 ^ 1 + 0 = _
      ring
    refine exists_pointed negative (hdigits.append (.zeros _)) (by simp [hne]) (fun hzero => ?_) (.zeros 1)
      (by simp) hall ?_
    · rw [List.head?_append_of_ne_nil _ hne] at hzero
      obtain ⟨rfl, rfl⟩ := hhead hzero
      rfl
    · change ((d.exponent.toNat + 1 : Nat) : Int) - (1 : Nat) = d.exponent
      omega
  · rename_i hfraction
    have hzero : ds.head? ≠ some '0' := by
      intro hzero
      rw [(hhead hzero).2] at hfraction
      exact hfraction (Int.le_refl 0)
    split
    · rename_i hk
      have htake : ds.take (ds.length + d.exponent).toNat ≠ [] := by
        rw [← List.length_pos_iff, List.length_take]
        omega
      have hdrop : ds.drop (ds.length + d.exponent).toNat ≠ [] := by
        rw [← List.length_pos_iff, List.length_drop]
        omega
      refine exists_pointed (j := 0) negative (hdigits.of_subset (List.take_subset ..)) htake (fun hhead => ?_)
        (hdigits.of_subset (List.drop_subset ..)) hdrop ?_ ?_
      · rw [List.head?_take, if_neg (by omega)] at hhead
        exact absurd hhead hzero
      · rw [List.take_append_drop, hvalue, Nat.pow_zero, Nat.mul_one]
      · rw [List.length_drop]
        omega
    · rename_i hk
      refine exists_pointed (j := 0) negative (.zeros 1) (by simp) (fun _ => rfl)
        ((AreDigits.zeros (-(ds.length + d.exponent)).toNat).append hdigits) (by simp [hne]) ?_ ?_
      · rw [natOfDigits_append, natOfDigits_append, natOfDigits_zeros, hvalue, natOfDigits_zeros, Nat.pow_zero]
        omega
      · rw [List.length_append, List.length_replicate]
        omega

theorem power_toDigits (e : Int) : power (some (decide (e < 0), Nat.toDigits 10 e.natAbs)) = e := by
  rw [power, natOfDigits_toDigits]
  split
  · rename_i hdown
    have hneg := of_decide_eq_true hdown
    omega
  · rename_i hdown
    have hpos := not_lt.mp (of_decide_eq_false (Bool.eq_false_iff.mpr hdown))
    omega

/-- Digits written with one digit before the point are a short numeral of their value. -/
theorem exists_scientific {d : Digits} (hd : 0 < d.digits) (hlt : d.digits < 10 ^ 18) (negative : Bool) :
    ∃ n : Numeral, n.Short ∧ n.chars = signChars negative ++ d.scientific true ∧
      n.value = signedRat negative (d.digits * 10 ^ d.exponent) := by
  have hdigits := AreDigits.toDigits d.digits
  have hvalue := natOfDigits_toDigits d.digits
  have hlength : (Nat.toDigits 10 d.digits).length ≤ 18 := (Nat.length_toDigits_le_iff (by decide) (by decide)).mpr hlt
  have hhead := head_toDigits hd
  have hne : Nat.toDigits 10 d.digits ≠ [] := Nat.toDigits_ne_nil
  unfold Digits.scientific
  dsimp only
  generalize Nat.toDigits 10 d.digits = ds at hdigits hvalue hlength hhead hne
  obtain ⟨c, rest, rfl⟩ := List.exists_cons_of_ne_nil hne
  have hc : c ≠ '0' := by
    rintro rfl
    exact hhead rfl
  obtain ⟨e, he⟩ : ∃ e, e = ((c :: rest).length : Int) + d.exponent - 1 := ⟨_, rfl⟩
  rw [← he]
  rw [List.length_cons] at he hlength
  obtain ⟨fraction, hfraction, hfractionChars⟩ : ∃ fraction : Option (List Char), fraction.getD [] = rest ∧
      fraction ≠ some [] ∧ fractionChars fraction = if (c :: rest).length = 1 then [] else '.' :: rest := by
    cases rest with
    | nil => exact ⟨none, rfl, by simp, rfl⟩
    | cons c' rest => exact ⟨some (c' :: rest), rfl, by simp, rfl⟩
  have hvalue' : numeralValue negative [c] fraction (some (decide (e < 0), Nat.toDigits 10 e.natAbs)) =
      signedRat negative (d.digits * 10 ^ d.exponent) := by
    refine numeralValue_eq (j := 0) hfraction (by rw [List.singleton_append, hvalue, Nat.pow_zero, Nat.mul_one]) ?_
    rw [power_toDigits, he]
    omega
  have hwhole : AreDigits [c] := fun x hx => by
    rw [List.mem_singleton.mp hx]
    exact hdigits.head
  have hrest : AreDigits (fraction.getD []) := by
    rw [hfraction]
    exact hdigits.tail
  have hshort : (fraction.getD []).length < scaleLimit := by
    rw [hfraction]
    exact Nat.lt_of_le_of_lt (Nat.le_of_succ_le_succ hlength) (by decide)
  have hexponent : ∀ p : Bool × List Char, some (decide (e < 0), Nat.toDigits 10 e.natAbs) = some p →
      AreDigits p.2 ∧ p.2 ≠ [] := by
    intro p hp
    cases hp
    exact ⟨.toDigits _, Nat.toDigits_ne_nil⟩
  refine ⟨⟨negative, [c], fraction, _, hwhole, by simp, fun hzero => absurd (Option.some.inj hzero) hc, hrest,
    hfractionChars.1, hexponent⟩, .inr ⟨⟨c, rfl, hdigits.head, hc⟩, hrest, hshort⟩, ?_, hvalue'⟩
  unfold Numeral.chars
  dsimp only
  rw [hfractionChars.2]
  by_cases hneg : e < 0
  · simp [powerChars, hneg]
  · simp [powerChars, hneg]

/-- The text of a finite double is a short numeral of the value of its digits. -/
theorem exists_numeral_double {x : Float} {p : Parts} (hp : parts? x = some p) : ∃ n : Numeral, n.Short ∧
    (Double.text .json x).toList = n.chars ∧
      n.value = signedRat p.negative (p.shortest.digits * 10 ^ p.shortest.exponent) := by
  have hproper : Proper p.shortest ∧ p.shortest.digits < 10 ^ 18 := by
    rcases Nat.eq_zero_or_pos p.m with hzero | hpos
    · have hshortest : p.shortest = ⟨0, 0⟩ := if_pos hzero
      rw [hshortest]
      exact ⟨.inl rfl, by norm_num⟩
    · exact (ranged_of_parts? hp hpos).shortest_bounds.imp_left .inr
  have htext : (Double.text .json x).toList = signChars p.negative ++
      (if p.m = 0 ∨ Style.json.positional ((Nat.toDigits 10 p.shortest.digits).length + p.shortest.exponent) then
        p.shortest.positional true
      else p.shortest.scientific true) := by
    rw [Double.text, hp]
    exact String.toList_ofList
  by_cases hstyle : p.m = 0 ∨ Style.json.positional ((Nat.toDigits 10 p.shortest.digits).length + p.shortest.exponent)
  · rw [if_pos hstyle] at htext
    obtain ⟨n, hexponent, hchars, hvalue⟩ := exists_positional hproper.1 p.negative
    exact ⟨n, .inl hexponent, htext.trans hchars.symm, hvalue⟩
  · rw [if_neg hstyle] at htext
    have hpos : 0 < p.shortest.digits := by
      refine hproper.1.resolve_left fun hzero => hstyle (.inr ?_)
      rw [hzero]
      rfl
    obtain ⟨n, hshort, hchars, hvalue⟩ := exists_scientific hpos hproper.2 p.negative
    exact ⟨n, hshort, htext.trans hchars.symm, hvalue⟩

/-! ## Texts of whole numbers -/

theorem toList_toString_int (n : Int) :
    (toString n).toList = signChars (decide (n < 0)) ++ Nat.toDigits 10 n.natAbs := by
  cases n with
  | ofNat n =>
    change (Nat.repr n).toList = _
    have hsign : decide (Int.ofNat n < 0) = false := decide_eq_false (Int.not_lt.mpr (Int.natCast_nonneg n))
    rw [Nat.toList_repr, hsign]
    rfl
  | negSucc n =>
    change ("-" ++ Nat.repr (n + 1)).toList = _
    rw [String.toList_append, Nat.toList_repr, decide_eq_true (Int.negSucc_lt_zero n)]
    rfl

theorem exists_numeral_int (n : Int) : ∃ m : Numeral, m.Short ∧ (numberText (.int n)).toList = m.chars ∧
    m.value = n := by
  have hzero : (Nat.toDigits 10 n.natAbs).head? = some '0' → Nat.toDigits 10 n.natAbs = ['0'] := by
    intro hhead
    rcases Nat.eq_zero_or_pos n.natAbs with h | h
    · rw [h]
      rfl
    · exact absurd hhead (head_toDigits h)
  refine ⟨⟨decide (n < 0), _, none, none, .toDigits n.natAbs, Nat.toDigits_ne_nil, hzero, .nil, by simp, by simp⟩,
    .inl rfl, ?_, ?_⟩
  · change (toString n).toList = _
    rw [toList_toString_int]
    simp [Numeral.chars, fractionChars, powerChars]
  · unfold Numeral.value numeralValue
    dsimp only
    rw [Option.getD_none, List.append_nil, natOfDigits_toDigits, power]
    simp only [List.length_nil, Nat.cast_zero, sub_zero, zpow_zero, mul_one]
    exact signedRat_natAbs n

/-- The text of a number is a short numeral, unless it denotes nothing. -/
theorem exists_numeral {n : JsonNumber} {x : ℚ} (h : numeralValue? (numberText n).toList = some x) :
    ∃ m : Numeral, m.Short ∧ (numberText n).toList = m.chars ∧ m.value = x := by
  obtain ⟨m, hshort, hchars⟩ : ∃ m : Numeral, m.Short ∧ (numberText n).toList = m.chars := by
    cases n with
    | int n =>
      obtain ⟨m, hshort, hchars, -⟩ := exists_numeral_int n
      exact ⟨m, hshort, hchars⟩
    | float y =>
      by_cases hfinite : y.isFinite = true
      · obtain ⟨p, hp⟩ := exists_parts?_of_isFinite hfinite
        obtain ⟨m, hshort, hchars, -⟩ := exists_numeral_double hp
        refine ⟨m, hshort, ?_⟩
        rw [numberText, if_pos hfinite]
        exact hchars
      · rw [numberText, if_neg hfinite] at h
        cases h
  rw [hchars, Numeral.numeralValue?_chars] at h
  exact ⟨m, hshort, hchars, Option.some.inj h⟩

end KeyboardPlate.Json
