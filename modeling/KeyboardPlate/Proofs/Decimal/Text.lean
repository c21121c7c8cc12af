import KeyboardPlate.Json.Reader
import KeyboardPlate.Proofs.Decimal.Value
import Mathlib.Data.List.TakeWhile

/-!
# Reading decimals exactly

Digits with a point are read as the number they denote whenever a decimal is that number: of such digits
the reading leaves out only zeros. A decimal reads back from its own text, with its scale.
-/

set_option autoImplicit false

namespace KeyboardPlate

/-! ## Digits -/

def AreDigits (s : List Char) : Prop := ∀ c ∈ s, c.isDigit = true

namespace AreDigits
variable {s t : List Char}

theorem nil : AreDigits [] := fun _ h => by cases h

theorem head {c : Char} (h : AreDigits (c :: s)) : c.isDigit = true := h c (by simp)

theorem tail {c : Char} (h : AreDigits (c :: s)) : AreDigits s := fun d hd => h d (by simp [hd])

theorem append (hs : AreDigits s) (ht : AreDigits t) : AreDigits (s ++ t) := by
  intro c hc
  rcases List.mem_append.mp hc with hc | hc
  · exact hs c hc
  · exact ht c hc

theorem of_subset (hs : AreDigits s) (h : t ⊆ s) : AreDigits t := fun c hc => hs c (h hc)

theorem zeros (n : Nat) : AreDigits (List.replicate n '0') := by
  intro c hc
  rw [List.eq_of_mem_replicate hc]
  rfl

theorem toDigits (n : Nat) : AreDigits (Nat.toDigits 10 n) :=
  fun _ hc => Nat.isDigit_of_mem_toDigits (by omega) (by omega) hc

end AreDigits

theorem isDigit_iff {c : Char} : c.isDigit = true ↔ '0' ≤ c ∧ c ≤ '9' := by
  simp [Char.isDigit, Char.le_def, UInt32.le_iff_toNat_le]

theorem digitValue?_of_isDigit {c : Char} (h : c.isDigit = true) : digitValue? c = some (c.toNat - '0'.toNat) :=
  if_pos (isDigit_iff.mp h)

theorem digit_lt {c : Char} (h : c.isDigit = true) : c.toNat - '0'.toNat < 10 := by
  have hle : c.toNat ≤ '9'.toNat := (isDigit_iff.mp h).2
  have hnine : '9'.toNat = '0'.toNat + 9 := rfl
  omega

theorem natOfDigits_append (s t : List Char) : natOfDigits (s ++ t) = natOfDigits s * 10 ^ t.length + natOfDigits t := by
  change Nat.ofDigitChars 10 (s ++ t) 0 = Nat.ofDigitChars 10 s 0 * 10 ^ t.length + Nat.ofDigitChars 10 t 0
  rw [Nat.ofDigitChars_append, Nat.ofDigitChars_eq_ofDigitChars_zero, Nat.mul_comm]

theorem natOfDigits_cons (c : Char) (s : List Char) :
    natOfDigits (c :: s) = (c.toNat - '0'.toNat) * 10 ^ s.length + natOfDigits s := by
  have hone : natOfDigits [c] = c.toNat - '0'.toNat := by simp [natOfDigits]
  rw [← hone, ← natOfDigits_append, List.singleton_append]

theorem natOfDigits_toDigits (n : Nat) : natOfDigits (Nat.toDigits 10 n) = n := Nat.ofDigitChars_ten_toDigits

theorem natOfDigits_zeros (n : Nat) : natOfDigits (List.replicate n '0') = 0 := by
  change Nat.ofDigitChars 10 _ 0 = 0
  rw [Nat.ofDigitChars_replicate_zero, Nat.mul_zero]

theorem natOfDigits_lt {s : List Char} (h : AreDigits s) : natOfDigits s < 10 ^ s.length := by
  induction s with
  | nil => exact Nat.one_pos
  | cons c s ih =>
    have hdigit := digit_lt h.head
    have hrest := ih h.tail
    have hmul : (c.toNat - '0'.toNat) * 10 ^ s.length ≤ 9 * 10 ^ s.length := Nat.mul_le_mul_right _ (by omega)
    rw [natOfDigits_cons, List.length_cons, Nat.pow_succ]
    omega

theorem natOfDigits?_eq {s : List Char} (h : AreDigits s) (hne : s ≠ []) : natOfDigits? s = some (natOfDigits s) := by
  have hfold : ∀ (s : List Char) (n : Nat), AreDigits s →
      s.foldlM (fun n c => (digitValue? c).map (10 * n + ·)) n =
        some (s.foldl (fun n c => 10 * n + (c.toNat - '0'.toNat)) n) := by
    intro s
    induction s with
    | nil => exact fun n _ => rfl
    | cons c s ih =>
      intro n hs
      rw [List.foldlM_cons, digitValue?_of_isDigit hs.head]
      exact ih _ hs.tail
  have hempty : ¬ s.isEmpty = true := by simpa using hne
  rw [natOfDigits?, if_neg hempty]
  exact hfold s 0 h

namespace Decimal

variable {negative point any : Bool} {m k : Nat} {a : Decimal}

/-! ## The digit loop -/

theorem readDigits?_digit {c : Char} (hc : c.isDigit = true) (rest : List Char) :
    readDigits? negative m k point any (c :: rest) =
      if point && k == scaleLimit then roundAt? negative m k c
      else if 10 * m + (c.toNat - '0'.toNat) < mantissaLimit then
        readDigits? negative (10 * m + (c.toNat - '0'.toNat)) (if point then k + 1 else k) point true rest
      else if point then roundAt? negative m k c
      else none := by
  have hpoint : ¬ (c = '.' ∧ point = false) := by
    rintro ⟨rfl, -⟩
    cases hc
  have hscore : ¬ (c = '_' ∧ any = true) := by
    rintro ⟨rfl, -⟩
    cases hc
  rw [readDigits?, if_neg hpoint, if_neg hscore, digitValue?_of_isDigit hc]

/-- Digits that fit are all taken. -/
theorem readDigits?_append (negative point any : Bool) (m k : Nat) {s : List Char} (hs : AreDigits s)
    (rest : List Char) (hscale : point = true → k + s.length ≤ scaleLimit)
    (hlt : m * 10 ^ s.length + natOfDigits s < mantissaLimit) :
    readDigits? negative m k point any (s ++ rest) =
      readDigits? negative (m * 10 ^ s.length + natOfDigits s) (if point then k + s.length else k) point
        (any || !s.isEmpty) rest := by
  induction s generalizing m k any with
  | nil => simp [natOfDigits]
  | cons c s ih =>
    rw [natOfDigits_cons, List.length_cons] at hlt
    have hshift : m * 10 ^ (s.length + 1) + ((c.toNat - '0'.toNat) * 10 ^ s.length + natOfDigits s) =
        (10 * m + (c.toNat - '0'.toNat)) * 10 ^ s.length + natOfDigits s := by ring
    have hfull : ¬ (point && k == scaleLimit) = true := by
      intro h
      rw [Bool.and_eq_true, beq_iff_eq] at h
      have hlen := hscale h.1
      rw [List.length_cons] at hlen
      omega
    have hnext : 10 * m + (c.toNat - '0'.toNat) < mantissaLimit := by
      rw [hshift] at hlt
      exact Nat.lt_of_le_of_lt ((Nat.le_mul_of_pos_right _ (Nat.pow_pos (by decide))).trans (Nat.le_add_right ..)) hlt
    rw [List.cons_append, readDigits?_digit hs.head, if_neg hfull, if_pos hnext, ih _ _ _ hs.tail]
    · rw [natOfDigits_cons, List.length_cons, hshift]
      cases point with
      | false => simp
      | true => simp [Nat.add_comm, Nat.add_left_comm]
    · intro hp
      have hlen := hscale hp
      rw [List.length_cons] at hlen
      rw [if_pos hp]
      omega
    · rwa [← hshift]

theorem readDigits?_point (rest : List Char) :
    readDigits? negative m k false any ('.' :: rest) = readDigits? negative m k true any rest := by
  rw [readDigits?]
  rfl

theorem ofParts?_of_lt (hm : m < mantissaLimit) (hk : k ≤ scaleLimit) :
    ofParts? negative m k = some ⟨negative && m != 0, m, k, hm, hk⟩ :=
  dif_pos ⟨hm, hk⟩

/-! ## Digits that a decimal stands for -/

/-- The number that the digits read and the digits to come denote. -/
def Denotes (a : Decimal) (m k : Nat) (s : List Char) : Prop :=
  a.mantissa * 10 ^ (k + s.length) = (m * 10 ^ s.length + natOfDigits s) * 10 ^ a.scale

/-- Where no decimal can hold more digits, only zeros are still to come. -/
theorem Denotes.natOfDigits_eq_zero {s : List Char} (h : a.Denotes m k s) (hs : AreDigits s) (hk : a.scale ≤ k) :
    natOfDigits s = 0 := by
  have hscale : a.mantissa * 10 ^ (k - a.scale) * 10 ^ s.length = m * 10 ^ s.length + natOfDigits s := by
    refine Nat.eq_of_mul_eq_mul_right (Nat.pow_pos (n := a.scale) (by decide : 0 < 10)) ?_
    rw [← h, show k + s.length = (k - a.scale) + s.length + a.scale by omega]
    ring
  have hdvd : 10 ^ s.length ∣ natOfDigits s := by
    refine (Nat.dvd_add_right (Nat.dvd_mul_left _ m)).mp ?_
    rw [← hscale]
    exact Nat.dvd_mul_left ..
  exact Nat.eq_zero_of_dvd_of_lt hdvd (natOfDigits_lt hs)

theorem Denotes.cons {c : Char} {s : List Char} :
    a.Denotes m k (c :: s) ↔ a.Denotes (10 * m + (c.toNat - '0'.toNat)) (k + 1) s := by
  unfold Denotes
  rw [natOfDigits_cons, List.length_cons]
  constructor
  · intro h
    rw [show k + 1 + s.length = k + (s.length + 1) by omega, h]
    ring
  · intro h
    rw [show k + (s.length + 1) = k + 1 + s.length by omega, h]
    ring

/-- A digit that would carry the mantissa past the limit does not belong to the number. -/
theorem Denotes.scale_le {c : Char} {s : List Char} (h : a.Denotes m k (c :: s))
    (hfull : mantissaLimit ≤ 10 * m + (c.toNat - '0'.toNat)) : a.scale ≤ k := by
  by_contra hk
  rw [Denotes.cons] at h
  unfold Denotes at h
  have hpow : (10 : Nat) ^ (k + 1 + s.length) ≤ 10 ^ s.length * 10 ^ a.scale := by
    rw [← Nat.pow_add]
    exact Nat.pow_le_pow_right (by decide) (by omega)
  have hle : mantissaLimit * 10 ^ (k + 1 + s.length) ≤ a.mantissa * 10 ^ (k + 1 + s.length) := by
    rw [h, Nat.add_mul, Nat.mul_assoc]
    exact (Nat.mul_le_mul hfull hpow).trans (Nat.le_add_right ..)
  exact absurd a.mantissa_lt (Nat.not_lt.mpr (Nat.le_of_mul_le_mul_right hle (Nat.pow_pos (by decide))))

/-- A decimal with the sign of the text and the number the digits denote. -/
def Reads (r : Decimal) (negative : Bool) (m k : Nat) (s : List Char) : Prop :=
  r.negative = (negative && r.mantissa != 0) ∧ r.Denotes m k s

theorem exists_roundAt? (hm : m < mantissaLimit) (hk : k ≤ scaleLimit) {c : Char} {s : List Char}
    (h : a.Denotes m k (c :: s)) (hs : AreDigits (c :: s)) (hscale : a.scale ≤ k) :
    ∃ r, roundAt? negative m k c = some r ∧ r.Reads negative m k (c :: s) := by
  have hzero := h.natOfDigits_eq_zero hs hscale
  have hc : c.toNat - '0'.toNat = 0 := by
    rw [natOfDigits_cons] at hzero
    have hpos : 0 < 10 ^ s.length := Nat.pow_pos (by decide)
    rcases Nat.mul_eq_zero.mp (Nat.eq_zero_of_add_eq_zero_right hzero) with hc | hpow
    · exact hc
    · omega
  have hother : ¬ (c = '_' ∨ c = '.') := by
    rintro (rfl | rfl)
    · cases hs.head
    · cases hs.head
  have hround : roundAt? negative m k c = ofParts? negative m k := by
    unfold roundAt?
    rw [if_neg hother, digitValue?_of_isDigit hs.head, hc]
    rfl
  refine ⟨_, hround.trans (ofParts?_of_lt hm hk), rfl, ?_⟩
  change m * 10 ^ (k + (c :: s).length) = (m * 10 ^ (c :: s).length + natOfDigits (c :: s)) * 10 ^ k
  rw [hzero]
  ring

/-- Fraction digits of a number that some decimal stands for are read as that number. -/
theorem exists_readDigits? (negative : Bool) {s : List Char} (hs : AreDigits s) (hany : any = true ∨ s ≠ [])
    (hm : m < mantissaLimit) (hk : k ≤ scaleLimit) (h : a.Denotes m k s) :
    ∃ r, readDigits? negative m k true any s = some r ∧ r.Reads negative m k s := by
  induction s generalizing m k any with
  | nil =>
    have hany : any = true := by simpa using hany
    have hread : readDigits? negative m k true any [] = ofParts? negative m k := by rw [readDigits?, if_pos hany]
    refine ⟨_, hread.trans (ofParts?_of_lt hm hk), rfl, ?_⟩
    change m * 10 ^ (k + 0) = (m * 10 ^ 0 + 0) * 10 ^ k
    ring
  | cons c s ih =>
    rw [readDigits?_digit hs.head]
    by_cases hfull : k = scaleLimit
    · rw [if_pos (by simp [hfull])]
      exact exists_roundAt? hm hk h hs (by rw [hfull]; exact a.scale_le)
    rw [if_neg (by simp [hfull])]
    by_cases hnext : 10 * m + (c.toNat - '0'.toNat) < mantissaLimit
    · rw [if_pos hnext, if_pos rfl]
      obtain ⟨r, hr, hsign, hvalue⟩ := ih hs.tail (.inl rfl) hnext (by omega) (Denotes.cons.mp h)
      exact ⟨r, hr, hsign, Denotes.cons.mpr hvalue⟩
    · rw [if_neg hnext, if_pos rfl]
      exact exists_roundAt? hm hk h hs (h.scale_le (by omega))

/-! ## Numerals -/

/-- The sign of a text. -/
def signChars (negative : Bool) : List Char := if negative then ['-'] else []

/-- The fraction of a text with its point, if there is one. -/
def fractionChars : Option (List Char) → List Char
  | none => []
  | some ds => '.' :: ds

/-- The power of ten of a text with its mark and its sign, if there is one. -/
def powerChars : Option (Bool × List Char) → List Char
  | none => []
  | some (down, ds) => 'e' :: (if down then '-' else '+') :: ds

def power : Option (Bool × List Char) → Int
  | none => 0
  | some (down, ds) => if down then -natOfDigits ds else natOfDigits ds

/-- The number that sign, digits, fraction digits and power denote. -/
def numeralValue (negative : Bool) (whole : List Char) (fraction : Option (List Char))
    (exponent : Option (Bool × List Char)) : ℚ :=
  signedRat negative
    (natOfDigits (whole ++ fraction.getD []) * 10 ^ (power exponent - (fraction.getD []).length))

/-- A decimal of the magnitude of a number up to the scale. -/
theorem abs_toRat_of_mul_pow {r : Decimal} {n i j : Nat} (h : r.mantissa * 10 ^ i = n * 10 ^ (j + r.scale)) :
    |r.toRat| = n * 10 ^ ((j : Int) - i) := by
  have hq : (r.mantissa : ℚ) * 10 ^ i = n * 10 ^ (j + r.scale) := by exact_mod_cast h
  rw [abs_toRat, zpow_sub₀ (by norm_num), zpow_natCast, zpow_natCast]
  field_simp
  rw [hq]
  ring

theorem toRat_of_mul_pow {r : Decimal} {n i j : Nat} (hsign : r.negative = (negative && r.mantissa != 0))
    (h : r.mantissa * 10 ^ i = n * 10 ^ (j + r.scale)) : r.toRat = signedRat negative (n * 10 ^ ((j : Int) - i)) := by
  rw [toRat_of_parts rfl hsign, ← abs_toRat, abs_toRat_of_mul_pow h]

theorem mul_pow_of_toRat {n i j : Nat} (h : a.toRat = signedRat negative (n * 10 ^ ((j : Int) - i))) :
    a.mantissa * 10 ^ i = n * 10 ^ (j + a.scale) := by
  have habs := congrArg abs h
  have hpos : (0 : ℚ) ≤ n * 10 ^ ((j : Int) - i) :=
    mul_nonneg n.cast_nonneg (zpow_nonneg (by norm_num) _)
  rw [abs_toRat, abs_signedRat, abs_of_nonneg hpos, zpow_sub₀ (by norm_num), zpow_natCast, zpow_natCast] at habs
  field_simp at habs
  have hq : (a.mantissa : ℚ) * 10 ^ i = n * 10 ^ (j + a.scale) := by
    rw [pow_add, habs]
    ring
  exact_mod_cast hq

/-! ## Plain texts -/

theorem readPlain?_sign {c : Char} (hc : c.isDigit = true) (s : List Char) :
    readPlain? (signChars negative ++ c :: s) = readDigits? negative 0 0 false false (c :: s) := by
  cases negative with
  | true => rfl
  | false =>
    change readPlain? (c :: s) = _
    unfold readPlain?
    split
    · rename_i heq
      cases heq
      cases hc
    · rename_i heq
      cases heq
      cases hc
    · rfl

section
variable (negative : Bool) {whole : List Char} {fraction : Option (List Char)} (hwhole : AreDigits whole)
  (hne : whole ≠ []) (hfraction : AreDigits (fraction.getD []))
include hwhole hne hfraction

/-- Digits that fit are taken one by one, whatever follows them. -/
theorem readPlain?_append (hscale : (fraction.getD []).length ≤ scaleLimit)
    (hlt : natOfDigits (whole ++ fraction.getD []) < mantissaLimit) (rest : List Char) :
    readPlain? (signChars negative ++ (whole ++ (fractionChars fraction ++ rest))) =
      readDigits? negative (natOfDigits (whole ++ fraction.getD [])) (fraction.getD []).length fraction.isSome true
        rest := by
  obtain ⟨c, ds, rfl⟩ := List.exists_cons_of_ne_nil hne
  have hle : natOfDigits (c :: ds) ≤ natOfDigits (c :: ds ++ fraction.getD []) := by
    rw [natOfDigits_append]
    exact (Nat.le_mul_of_pos_right _ (Nat.pow_pos (by decide))).trans (Nat.le_add_right ..)
  have hdigits := readDigits?_append negative false false 0 0 hwhole (fractionChars fraction ++ rest)
    (fun h => by cases h) (by rw [Nat.zero_mul, Nat.zero_add]; exact hle.trans_lt hlt)
  rw [Nat.zero_mul, Nat.zero_add] at hdigits
  rw [List.cons_append, readPlain?_sign hwhole.head, ← List.cons_append, hdigits]
  cases fraction with
  | none =>
    rw [Option.getD_none, List.append_nil]
    rfl
  | some f =>
    rw [natOfDigits_append] at hlt
    have hrest := readDigits?_append negative true true (natOfDigits (c :: ds)) 0 hfraction rest
      (fun _ => by rw [Nat.zero_add]; exact hscale) hlt
    rw [if_pos rfl, Nat.zero_add, ← natOfDigits_append] at hrest
    exact (readDigits?_point (f ++ rest)).trans hrest

theorem readPlain?_of_lt (hscale : (fraction.getD []).length ≤ scaleLimit)
    (hlt : natOfDigits (whole ++ fraction.getD []) < mantissaLimit) :
    readPlain? (signChars negative ++ (whole ++ fractionChars fraction)) =
      ofParts? negative (natOfDigits (whole ++ fraction.getD [])) (fraction.getD []).length := by
  have hread := readPlain?_append negative hwhole hne hfraction hscale hlt []
  rw [List.append_nil] at hread
  rw [hread, readDigits?, if_pos rfl]

/-- A text without power is read as the number it denotes if some decimal is that number. -/
theorem exists_readPlain? (h : a.toRat = numeralValue negative whole fraction none) :
    ∃ r, readPlain? (signChars negative ++ (whole ++ fractionChars fraction)) = some r ∧
      r.toRat = numeralValue negative whole fraction none := by
  have hvalue : a.mantissa * 10 ^ (fraction.getD []).length =
      natOfDigits (whole ++ fraction.getD []) * 10 ^ a.scale := by
    rw [← Nat.zero_add a.scale]
    exact mul_pow_of_toRat h
  have hlt : natOfDigits whole < mantissaLimit := by
    have hle : natOfDigits whole * 10 ^ (fraction.getD []).length ≤ a.mantissa * 10 ^ (fraction.getD []).length := by
      rw [hvalue, natOfDigits_append]
      exact (Nat.le_add_right ..).trans (Nat.le_mul_of_pos_right _ (Nat.pow_pos (by decide)))
    exact (Nat.le_of_mul_le_mul_right hle (Nat.pow_pos (by decide))).trans_lt a.mantissa_lt
  cases fraction with
  | none =>
    have hlt : natOfDigits (whole ++ []) < mantissaLimit := by rwa [List.append_nil]
    have hread := readPlain?_of_lt negative hwhole hne hfraction (by decide) hlt
    refine ⟨_, hread.trans (ofParts?_of_lt hlt (by decide)), toRat_of_mul_pow rfl ?_⟩
    rfl
  | some f =>
    have hdenotes : a.Denotes (natOfDigits whole) 0 f := by
      unfold Denotes
      rw [Nat.zero_add, ← natOfDigits_append]
      exact hvalue
    obtain ⟨c, ds, rfl⟩ := List.exists_cons_of_ne_nil hne
    obtain ⟨r, hr, hsign, hmantissa⟩ := exists_readDigits? negative hfraction (.inl rfl) hlt (by decide) hdenotes
    have hdigits := readDigits?_append negative false false 0 0 hwhole ('.' :: f) (fun h => by cases h) (by rwa [Nat.zero_mul, Nat.zero_add])
    rw [Nat.zero_mul, Nat.zero_add] at hdigits
    refine ⟨r, ?_, toRat_of_mul_pow hsign ?_⟩
    · rw [List.cons_append, readPlain?_sign hwhole.head, ← List.cons_append]
      exact hdigits.trans ((readDigits?_point f).trans hr)
    · unfold Denotes at hmantissa
      rw [Nat.zero_add, ← natOfDigits_append] at hmantissa
      rw [Nat.zero_add]
      exact hmantissa

end

/-! ## The text of a decimal -/

/-- The decimal without the sign of a zero. -/
def unsignZero (a : Decimal) : Decimal := { a with negative := a.negative && a.mantissa != 0 }

theorem areDigits_paddedDigits (width m : Nat) : AreDigits (paddedDigits width m) :=
  (AreDigits.zeros _).append (.toDigits m)

theorem natOfDigits_paddedDigits (width m : Nat) : natOfDigits (paddedDigits width m) = m := by
  unfold paddedDigits
  rw [natOfDigits_append, natOfDigits_zeros, natOfDigits_toDigits, Nat.zero_mul, Nat.zero_add]

theorem le_length_paddedDigits (width m : Nat) : width ≤ (paddedDigits width m).length := by
  unfold paddedDigits
  rw [List.length_append, List.length_replicate]
  omega

/-- The digits before the point and those behind it. -/
theorem exists_toChars (a : Decimal) : ∃ whole fraction, AreDigits whole ∧ whole ≠ [] ∧
    AreDigits (Option.getD fraction []) ∧ natOfDigits (whole ++ fraction.getD []) = a.mantissa ∧
    (fraction.getD []).length = a.scale ∧
    a.toChars = signChars a.negative ++ (whole ++ fractionChars fraction) := by
  have hlength := le_length_paddedDigits (a.scale + 1) a.mantissa
  have hdigits := areDigits_paddedDigits (a.scale + 1) a.mantissa
  have hvalue := natOfDigits_paddedDigits (a.scale + 1) a.mantissa
  unfold toChars
  dsimp only
  generalize paddedDigits (a.scale + 1) a.mantissa = digits at hlength hdigits hvalue
  have hwhole : digits.take (digits.length - a.scale) ≠ [] := by
    rw [← List.length_pos_iff, List.length_take]
    omega
  by_cases hscale : a.scale = 0
  · rw [hscale, Nat.sub_zero, List.take_length] at hwhole
    refine ⟨digits, none, hdigits, hwhole, .nil, ?_, hscale.symm, ?_⟩
    · rw [Option.getD_none, List.append_nil, hvalue]
    · rw [hscale, Nat.sub_zero, List.take_length, if_pos rfl, List.append_assoc]
      rfl
  · refine ⟨_, some (digits.drop (digits.length - a.scale)), hdigits.of_subset (List.take_subset ..), hwhole,
      hdigits.of_subset (List.drop_subset ..), ?_, ?_, ?_⟩
    · rw [Option.getD_some, List.take_append_drop, hvalue]
    · rw [Option.getD_some, List.length_drop]
      omega
    · rw [if_neg hscale, List.append_assoc]
      rfl

theorem readPlain?_toChars (a : Decimal) : readPlain? a.toChars = some a.unsignZero := by
  obtain ⟨whole, fraction, hwhole, hne, hfraction, hmantissa, hscale, hchars⟩ := a.exists_toChars
  rw [hchars, readPlain?_of_lt a.negative hwhole hne hfraction (by rw [hscale]; exact a.scale_le)
    (by rw [hmantissa]; exact a.mantissa_lt), hmantissa, hscale]
  exact ofParts?_of_lt a.mantissa_lt a.scale_le

theorem readChars?_of_readPlain? {s : List Char} {r : Decimal} (h : readPlain? s = some r) : readChars? s = some r := by
  rw [readChars?, h]
  rfl

/-! ## White space around a text -/

theorem trimBlanks_append {before s after : List Char} (hbefore : ∀ c ∈ before, isBlank c = true)
    (hs : ∀ c ∈ s, isBlank c = false) (hafter : ∀ c ∈ after, isBlank c = true) :
    trimBlanks (before ++ (s ++ after)) = s := by
  have hkeep : ∀ (t u : List Char), (∀ c ∈ t, isBlank c = false) → (∀ c ∈ u, isBlank c = true) →
      (t ++ u).dropWhile isBlank = if t = [] then [] else t ++ u := by
    intro t u ht hu
    cases t with
    | nil =>
      rw [List.nil_append, if_pos rfl]
      exact List.dropWhile_eq_nil_iff.mpr hu
    | cons c t =>
      rw [List.cons_append, List.dropWhile_cons_of_neg (by simp [ht c]), if_neg (List.cons_ne_nil c t)]
  unfold trimBlanks
  rw [List.dropWhile_append_of_pos hbefore, hkeep s after hs hafter]
  by_cases hnil : s = []
  · rw [if_pos hnil, hnil]
    rfl
  · have hreverse := hkeep s.reverse [] (fun c hc => hs c (List.mem_reverse.mp hc)) (fun c hc => by cases hc)
    rw [if_neg (by simpa using hnil), List.append_nil] at hreverse
    rw [if_neg hnil, List.reverse_append,
      List.dropWhile_append_of_pos (fun c hc => hafter c (List.mem_reverse.mp hc)), hreverse, List.reverse_reverse]

theorem isBlank_of_isDigit {c : Char} (h : c.isDigit = true) : isBlank c = false := by
  have hle : '0'.toNat ≤ c.toNat ∧ c.toNat ≤ '9'.toNat := isDigit_iff.mp h
  have hzero : '0'.toNat = 48 := rfl
  have hnine : '9'.toNat = 57 := rfl
  rw [Bool.eq_false_iff]
  intro hblank
  simp only [isBlank, Bool.or_eq_true, Bool.and_eq_true, decide_eq_true_eq, beq_iff_eq] at hblank
  omega

theorem isBlank_of_mem_toChars {c : Char} (hc : c ∈ a.toChars) : isBlank c = false := by
  obtain ⟨whole, fraction, hwhole, -, hfraction, -, -, hchars⟩ := a.exists_toChars
  rw [hchars] at hc
  rcases List.mem_append.mp hc with hc | hc
  · unfold signChars at hc
    split at hc
    · rw [List.mem_singleton.mp hc]
      rfl
    · cases hc
  rcases List.mem_append.mp hc with hc | hc
  · exact isBlank_of_isDigit (hwhole c hc)
  cases fraction with
  | none => cases hc
  | some f =>
    rcases List.mem_cons.mp hc with rfl | hc
    · rfl
    · exact isBlank_of_isDigit (hfraction c hc)

/-- A decimal is read back from its text, with its scale. -/
theorem parse?_toChars (a : Decimal) {before after : List Char} (hbefore : ∀ c ∈ before, isBlank c = true)
    (hafter : ∀ c ∈ after, isBlank c = true) :
    parse? (String.ofList (before ++ (a.toChars ++ after))) = some a.unsignZero := by
  rw [parse?, String.toList_ofList, trimBlanks_append hbefore (fun c hc => isBlank_of_mem_toChars hc) hafter]
  exact readChars?_of_readPlain? a.readPlain?_toChars

/-! ## Scientific texts -/

/-- The base of a scientific text: one digit before the point, and not zero. -/
structure Normalized (b : Decimal) : Prop where
  le : 10 ^ b.scale ≤ b.mantissa
  lt : b.mantissa < 10 ^ (b.scale + 1)

/-- Moving the point to the left is exact if a decimal is the result. -/
theorem exists_shiftDown? {b : Decimal} (hb : b.Normalized) (h : a.mantissa * 10 ^ (b.scale + k) = b.mantissa * 10 ^ a.scale) :
    ∃ r, b.shiftDown? k = some r ∧ r.negative = (b.negative && r.mantissa != 0) ∧
      r.mantissa * 10 ^ (b.scale + k) = b.mantissa * 10 ^ r.scale := by
  have hpow : ∀ n, 0 < 10 ^ n := fun n => Nat.pow_pos (by decide)
  have hscale := a.scale_le
  have hk : k ≤ scaleLimit := by
    by_contra hk
    have hpos : 0 < a.mantissa := by
      refine Nat.pos_of_ne_zero fun hzero => ?_
      rw [hzero, Nat.zero_mul] at h
      exact absurd h (Nat.mul_pos ((hpow _).trans_le hb.le) (hpow _)).ne
    have hlt : b.mantissa * 10 ^ a.scale < a.mantissa * 10 ^ (b.scale + k) := by
      calc b.mantissa * 10 ^ a.scale
        _ < 10 ^ (b.scale + 1) * 10 ^ a.scale := Nat.mul_lt_mul_of_pos_right hb.lt (hpow _)
        _ = 10 ^ (b.scale + 1 + a.scale) := (Nat.pow_add ..).symm
        _ ≤ 10 ^ (b.scale + k) := Nat.pow_le_pow_right (by decide) (by omega)
        _ ≤ a.mantissa * 10 ^ (b.scale + k) := Nat.le_mul_of_pos_left _ hpos
    exact absurd h hlt.ne'
  obtain ⟨kept, hkept⟩ : ∃ kept, kept = min b.scale (scaleLimit - k) := ⟨_, rfl⟩
  have hdvd : 10 ^ (b.scale - kept) ∣ b.mantissa := by
    by_cases hfits : b.scale ≤ scaleLimit - k
    · rw [show b.scale - kept = 0 by omega]
      exact Nat.one_dvd _
    · refine ⟨a.mantissa * 10 ^ (scaleLimit - a.scale), Nat.eq_of_mul_eq_mul_right (hpow a.scale) ?_⟩
      rw [← h, show b.scale + k = (b.scale - kept) + (scaleLimit - a.scale) + a.scale by omega]
      ring
  obtain ⟨q, hq⟩ := hdvd
  have hround : roundDiv .away b.mantissa (Nat.pow 10 (b.scale - kept)) = q := by
    rw [hq, Nat.mul_comm]
    exact roundDiv_mul .away q (hpow _)
  have hlt : q < mantissaLimit := by
    refine Nat.lt_of_le_of_lt ?_ b.mantissa_lt
    rw [hq]
    exact Nat.le_mul_of_pos_left _ (hpow _)
  have hshift : b.shiftDown? k = ofParts? b.negative q (kept + k) := by
    unfold shiftDown?
    rw [if_neg (by omega)]
    dsimp only
    rw [← hkept, hround]
  refine ⟨_, hshift.trans (ofParts?_of_lt hlt (by omega)), rfl, ?_⟩
  change q * 10 ^ (b.scale + k) = b.mantissa * 10 ^ (kept + k)
  rw [hq, show b.scale + k = (b.scale - kept) + (kept + k) by omega, Nat.pow_add]
  ring

/-- Moving the point to the right is exact if a decimal is the result. -/
theorem exists_shiftUp? {b : Decimal} (hb : b.Normalized) (h : a.mantissa * 10 ^ b.scale = b.mantissa * 10 ^ (k + a.scale)) :
    ∃ r, b.shiftUp? k = some r ∧ r.negative = (b.negative && r.mantissa != 0) ∧
      r.mantissa * 10 ^ b.scale = b.mantissa * 10 ^ (k + r.scale) := by
  have hpow : ∀ n, 0 < 10 ^ n := fun n => Nat.pow_pos (by decide)
  unfold shiftUp?
  by_cases hinside : k ≤ b.scale
  · rw [if_pos hinside]
    have hle : b.scale - k ≤ scaleLimit := (Nat.sub_le ..).trans b.scale_le
    refine ⟨_, ofParts?_of_lt b.mantissa_lt hle, rfl, ?_⟩
    change b.mantissa * 10 ^ b.scale = b.mantissa * 10 ^ (k + (b.scale - k))
    rw [Nat.add_sub_cancel' hinside]
  · rw [if_neg hinside]
    have hmantissa : b.mantissa * 10 ^ (k - b.scale) ≤ a.mantissa := by
      refine Nat.le_of_mul_le_mul_right ?_ (hpow b.scale)
      rw [h, Nat.mul_assoc, ← Nat.pow_add]
      exact Nat.mul_le_mul_left _ (Nat.pow_le_pow_right (by decide) (by omega))
    have hk : ¬ scaleLimit < k := by
      intro hk
      have hle : 10 ^ (scaleLimit + 1) ≤ b.mantissa * 10 ^ (k - b.scale) := by
        calc 10 ^ (scaleLimit + 1)
          _ ≤ 10 ^ b.scale * 10 ^ (k - b.scale) := by
            rw [← Nat.pow_add]
            exact Nat.pow_le_pow_right (by decide) (by omega)
          _ ≤ b.mantissa * 10 ^ (k - b.scale) := Nat.mul_le_mul_right _ hb.le
      have hlimit : mantissaLimit < 10 ^ (scaleLimit + 1) := by decide
      have ha := a.mantissa_lt
      omega
    rw [if_neg hk]
    have hlt : b.mantissa * 10 ^ (k - b.scale) < mantissaLimit := hmantissa.trans_lt a.mantissa_lt
    refine ⟨_, ofParts?_of_lt hlt (by decide), rfl, ?_⟩
    change b.mantissa * 10 ^ (k - b.scale) * 10 ^ b.scale = b.mantissa * 10 ^ (k + 0)
    rw [Nat.mul_assoc, ← Nat.pow_add, Nat.sub_add_cancel (by omega), Nat.add_zero]

theorem le_of_shiftDown? {b r : Decimal} (h : b.shiftDown? k = some r) : k ≤ scaleLimit := by
  by_contra hk
  rw [shiftDown?, if_pos (by omega)] at h
  cases h

theorem le_of_shiftUp? {b r : Decimal} (h : b.shiftUp? k = some r) : k ≤ scaleLimit := by
  by_contra hk
  have hscale := b.scale_le
  rw [shiftUp?, if_neg (by omega), if_pos (by omega)] at h
  cases h

theorem readExponent?_digits {s : List Char} (hs : AreDigits s) (hne : s ≠ []) (hlt : natOfDigits s < 4294967296) :
    readExponent? s = some (natOfDigits s) := by
  unfold readExponent?
  split
  · cases hs.head
  · rw [natOfDigits?_eq hs hne]
    exact if_pos hlt

theorem readExponent?_plus {s : List Char} (hs : AreDigits s) (hne : s ≠ []) (hlt : natOfDigits s < 4294967296) :
    readExponent? ('+' :: s) = some (natOfDigits s) := by
  change (natOfDigits? s >>= fun n => if n < 4294967296 then some n else none) = _
  rw [natOfDigits?_eq hs hne]
  exact if_pos hlt

theorem readDigits?_mark (rest : List Char) : readDigits? negative m k point any ('e' :: rest) = none := by
  have hround : roundAt? negative m k 'e' = none := rfl
  have hdigit : digitValue? 'e' = none := rfl
  rw [readDigits?, hround, hdigit]
  split
  · rfl
  · rw [if_neg (by simp), if_neg (by simp)]

/-- One digit other than zero stands before the point, and few enough behind it for all of them to be
taken. -/
structure ShortBase (whole : List Char) (fraction : Option (List Char)) : Prop where
  first : ∃ c, whole = [c] ∧ c.isDigit = true ∧ c ≠ '0'
  areDigits_fraction : AreDigits (fraction.getD [])
  length_lt : (fraction.getD []).length < scaleLimit

theorem isExponentMark_of_isDigit {c : Char} (h : c.isDigit = true) : isExponentMark c = false := by
  rw [Bool.eq_false_iff]
  intro hmark
  simp only [isExponentMark, Bool.or_eq_true, beq_iff_eq] at hmark
  rcases hmark with rfl | rfl
  · cases h
  · cases h

theorem isExponentMark_of_mem {whole : List Char} {fraction : Option (List Char)} (hwhole : AreDigits whole)
    (hfraction : AreDigits (fraction.getD [])) {c : Char}
    (hc : c ∈ signChars negative ++ (whole ++ fractionChars fraction)) : isExponentMark c = false := by
  rcases List.mem_append.mp hc with hc | hc
  · cases negative with
    | false => cases hc
    | true =>
      rw [List.mem_singleton.mp hc]
      rfl
  rcases List.mem_append.mp hc with hc | hc
  · exact isExponentMark_of_isDigit (hwhole c hc)
  cases fraction with
  | none => cases hc
  | some f =>
    rcases List.mem_cons.mp hc with rfl | hc
    · rfl
    · exact isExponentMark_of_isDigit (hfraction c hc)

theorem readScientific?_mark {s : List Char} {b : Decimal} (hs : ∀ c ∈ s, isExponentMark c = false)
    (hb : readPlain? s = some b) (down : Bool) (ds : List Char) :
    readScientific? (s ++ powerChars (some (down, ds))) =
      if down then (readExponent? ds).bind b.shiftDown? else (readExponent? ('+' :: ds)).bind b.shiftUp? := by
  have hpos : ∀ c ∈ s, (!isExponentMark c) = true := fun c hc => by rw [hs c hc]; rfl
  have htake : (powerChars (some (down, ds))).takeWhile (fun c => !isExponentMark c) = [] := rfl
  have hdrop : (powerChars (some (down, ds))).dropWhile (fun c => !isExponentMark c) = powerChars (some (down, ds)) := rfl
  unfold readScientific?
  rw [List.takeWhile_append_of_pos hpos, List.dropWhile_append_of_pos hpos, htake, hdrop, List.append_nil, hb]
  cases down with
  | true => rfl
  | false => rfl

namespace ShortBase
variable {whole : List Char} {fraction : Option (List Char)} (h : ShortBase whole fraction)
include h

theorem areDigits : AreDigits whole := by
  obtain ⟨c, rfl, hc, -⟩ := h.first
  exact fun d hd => by rwa [List.mem_singleton.mp hd]

theorem ne_nil : whole ≠ [] := by
  obtain ⟨c, rfl, -⟩ := h.first
  simp

theorem le_digits : 10 ^ (fraction.getD []).length ≤ natOfDigits (whole ++ fraction.getD []) := by
  obtain ⟨c, rfl, hc, hzero⟩ := h.first
  have hpos : 1 ≤ c.toNat - '0'.toNat := by
    have hle : '0'.toNat ≤ c.toNat := (isDigit_iff.mp hc).1
    have hne : c.toNat ≠ '0'.toNat := fun heq => hzero (Char.toNat_inj.mp heq)
    omega
  rw [List.singleton_append, natOfDigits_cons]
  exact (Nat.le_mul_of_pos_left _ hpos).trans (Nat.le_add_right ..)

theorem digits_lt : natOfDigits (whole ++ fraction.getD []) < 10 ^ ((fraction.getD []).length + 1) := by
  obtain ⟨c, rfl, -⟩ := h.first
  have hlt := natOfDigits_lt (h.areDigits.append h.areDigits_fraction)
  rw [List.length_append, List.length_singleton, Nat.add_comm] at hlt
  exact hlt

theorem digits_lt_limit : natOfDigits (whole ++ fraction.getD []) < mantissaLimit := by
  have hpow : (10 : Nat) ^ ((fraction.getD []).length + 1) ≤ 10 ^ scaleLimit :=
    Nat.pow_le_pow_right (by decide) h.length_lt
  exact h.digits_lt.trans_le (hpow.trans (by decide))

theorem exists_readPlain? (negative : Bool) : ∃ b, readPlain? (signChars negative ++ (whole ++ fractionChars fraction)) =
    some b ∧ b.Normalized ∧ b.negative = negative ∧ b.mantissa = natOfDigits (whole ++ fraction.getD []) ∧
      b.scale = (fraction.getD []).length := by
  have hpos : 0 < natOfDigits (whole ++ fraction.getD []) := (Nat.pow_pos (by decide)).trans_le h.le_digits
  have hread := readPlain?_of_lt negative h.areDigits h.ne_nil h.areDigits_fraction h.length_lt.le h.digits_lt_limit
  refine ⟨_, hread.trans (ofParts?_of_lt h.digits_lt_limit h.length_lt.le), ⟨h.le_digits, h.digits_lt⟩, ?_, rfl, rfl⟩
  change (negative && natOfDigits (whole ++ fraction.getD []) != 0) = negative
  rw [bne_iff_ne.mpr hpos.ne', Bool.and_true]

/-- The base of a scientific text is read as it is, and then the point is moved. -/
theorem exists_base (negative down : Bool) (ds : List Char) : ∃ b : Decimal, b.Normalized ∧ b.negative = negative ∧
    b.mantissa = natOfDigits (whole ++ fraction.getD []) ∧ b.scale = (fraction.getD []).length ∧
    readChars? (signChars negative ++ (whole ++ (fractionChars fraction ++ powerChars (some (down, ds))))) =
      if down then (readExponent? ds).bind b.shiftDown? else (readExponent? ('+' :: ds)).bind b.shiftUp? := by
  have hplain : readPlain? (signChars negative ++ (whole ++ (fractionChars fraction ++ powerChars (some (down, ds))))) =
      none := by
    rw [readPlain?_append negative h.areDigits h.ne_nil h.areDigits_fraction h.length_lt.le h.digits_lt_limit]
    exact readDigits?_mark _
  obtain ⟨b, hb, hnormalized, hsign, hmantissa, hscale⟩ := h.exists_readPlain? negative
  have hscientific := readScientific?_mark
    (fun c hc => isExponentMark_of_mem h.areDigits h.areDigits_fraction hc) hb down ds
  simp only [List.append_assoc] at hscientific
  exact ⟨b, hnormalized, hsign, hmantissa, hscale, by rw [readChars?, hplain, Option.none_or, hscientific]⟩

/-- A scientific text is read as the number it denotes if some decimal is that number. -/
theorem exists_readChars? {down : Bool} {ds : List Char} (hds : AreDigits ds) (hne : ds ≠ [])
    (ha : a.toRat = numeralValue negative whole fraction (some (down, ds))) :
    ∃ r, readChars? (signChars negative ++ (whole ++ (fractionChars fraction ++ powerChars (some (down, ds))))) =
        some r ∧ r.toRat = numeralValue negative whole fraction (some (down, ds)) := by
  obtain ⟨b, hnormalized, hsign, hmantissa, hscale, hread⟩ := h.exists_base negative down ds
  rw [hread]
  unfold numeralValue power at ha ⊢
  rw [← hmantissa, ← hscale, ← hsign] at ha ⊢
  cases down with
  | true =>
    have hpower : -(natOfDigits ds : Int) - b.scale = ((0 : Nat) : Int) - (b.scale + natOfDigits ds : Nat) := by omega
    simp only [if_true] at ha ⊢
    rw [hpower] at ha ⊢
    have hvalue := mul_pow_of_toRat ha
    rw [Nat.zero_add] at hvalue
    obtain ⟨r, hr, hrsign, hrvalue⟩ := exists_shiftDown? hnormalized hvalue
    have hlt : natOfDigits ds < 4294967296 := (le_of_shiftDown? hr).trans_lt (by decide)
    refine ⟨r, ?_, toRat_of_mul_pow hrsign ?_⟩
    · rw [readExponent?_digits hds hne hlt]
      exact hr
    · rw [Nat.zero_add]
      exact hrvalue
  | false =>
    simp only [Bool.false_eq_true, if_false] at ha ⊢
    obtain ⟨r, hr, hrsign, hrvalue⟩ := exists_shiftUp? hnormalized (mul_pow_of_toRat ha)
    have hlt : natOfDigits ds < 4294967296 := (le_of_shiftUp? hr).trans_lt (by decide)
    refine ⟨r, ?_, toRat_of_mul_pow hrsign hrvalue⟩
    rw [readExponent?_plus hds hne hlt]
    exact hr

end ShortBase

/-! ## Zeros that are read -/

theorem unsignZero_of_ofParts? {r : Decimal} (h : ofParts? negative m k = some r) : r.unsignZero = r := by
  unfold ofParts? at h
  split at h
  · cases h
    unfold unsignZero
    simp
  · cases h

theorem unsignZero_of_roundAt? {r : Decimal} {c : Char} (h : roundAt? negative m k c = some r) : r.unsignZero = r := by
  unfold roundAt? at h
  extract_lets finish at h
  have hfinish : ∀ {d}, finish d = some r → r.unsignZero = r := by
    intro d h
    unfold finish at h
    split at h
    · exact unsignZero_of_ofParts? h
    split at h
    · exact unsignZero_of_ofParts? h
    split at h
    · cases h
    · exact unsignZero_of_ofParts? h
  split at h
  · obtain ⟨d, -, h⟩ := Option.bind_eq_some_iff.mp h
    exact hfinish h
  · obtain ⟨d, -, h⟩ := Option.bind_eq_some_iff.mp h
    exact hfinish h

theorem unsignZero_of_readDigits? {r : Decimal} {s : List Char} (h : readDigits? negative m k point any s = some r) :
    r.unsignZero = r := by
  induction s generalizing m k point any with
  | nil =>
    rw [readDigits?] at h
    split at h
    · exact unsignZero_of_ofParts? h
    · cases h
  | cons c s ih =>
    rw [readDigits?] at h
    split at h
    · exact unsignZero_of_roundAt? h
    split at h
    · exact ih h
    split at h
    · exact ih h
    split at h
    · cases h
    split at h
    · exact ih h
    split at h
    · exact unsignZero_of_roundAt? h
    · cases h

theorem unsignZero_of_readPlain? {r : Decimal} {s : List Char} (h : readPlain? s = some r) : r.unsignZero = r := by
  unfold readPlain? at h
  split at h
  · exact unsignZero_of_readDigits? h
  · exact unsignZero_of_readDigits? h
  · exact unsignZero_of_readDigits? h

theorem unsignZero_of_shiftDown? {b r : Decimal} (h : b.shiftDown? k = some r) : r.unsignZero = r := by
  unfold shiftDown? at h
  split at h
  · cases h
  · exact unsignZero_of_ofParts? h

theorem unsignZero_of_shiftUp? {b r : Decimal} (h : b.shiftUp? k = some r) : r.unsignZero = r := by
  unfold shiftUp? at h
  split at h
  · exact unsignZero_of_ofParts? h
  split at h
  · cases h
  · exact unsignZero_of_ofParts? h

/-- No text is read as a zero with a sign. -/
theorem unsignZero_of_readChars? {r : Decimal} {s : List Char} (h : readChars? s = some r) : r.unsignZero = r := by
  rcases Option.or_eq_some_iff.mp h with h | ⟨-, h⟩
  · exact unsignZero_of_readPlain? h
  obtain ⟨b, -, h⟩ := Option.bind_eq_some_iff.mp h
  split at h
  · cases h
  · obtain ⟨n, -, h⟩ := Option.bind_eq_some_iff.mp h
    exact unsignZero_of_shiftDown? h
  · obtain ⟨n, -, h⟩ := Option.bind_eq_some_iff.mp h
    exact unsignZero_of_shiftUp? h

end Decimal

end KeyboardPlate
