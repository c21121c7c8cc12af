import KeyboardPlate.Layout.Resolve
import KeyboardPlate.Proofs.Json.Written
import KeyboardPlate.Proofs.Layout.Faults

/-!
# Numbers of a layout

A number in a layout counts as what its text denotes, digit by digit: the text is read as a decimal, and no
binary fraction comes between. That text is the one of the number as it was kept, so it is what was written
as long as a whole number fits 64 bits and another number has at most fifteen digits.
-/

set_option autoImplicit false

namespace KeyboardPlate.Layout

open Decimal Json

/-- A number is read as the numeral it is written as. -/
theorem exists_decimalOf?_eq {n : JsonNumber} {x : ℚ} (h : numeralValue? (numberText n).toList = some x) :
    ∃ m : Numeral, m.Short ∧ m.value = x ∧ decimalOf? (.number n) = readChars? m.chars := by
  obtain ⟨m, hshort, hchars, hvalue⟩ := exists_numeral h
  refine ⟨m, hshort, hvalue, ?_⟩
  rw [decimalOf?, ← String.ofList_toList (s := numberText n), hchars, Numeral.parse?_chars]

/-- A number is read as what its text denotes, if some decimal is that. -/
theorem exists_decimalOf?_number {n : JsonNumber} {a : Decimal}
    (h : numeralValue? (numberText n).toList = some a.toRat) :
    ∃ r, decimalOf? (.number n) = some r ∧ r.toRat = a.toRat := by
  obtain ⟨m, hshort, hvalue, hread⟩ := exists_decimalOf?_eq h
  obtain ⟨r, hr, hrvalue⟩ := hshort.exists_readChars? hvalue.symm
  exact ⟨r, hread.trans hr, hrvalue.trans hvalue⟩

/-- A number that reaches the limit of the decimals is refused. -/
theorem decimalOf?_number_eq_none {n : JsonNumber} {x : ℚ} (h : numeralValue? (numberText n).toList = some x)
    (hx : mantissaLimit ≤ |x|) : decimalOf? (.number n) = none := by
  obtain ⟨m, hshort, rfl, hread⟩ := exists_decimalOf?_eq h
  rw [hread, Option.eq_none_iff_forall_ne_some]
  exact fun r hr => hx.not_gt (hshort.abs_value_lt hr)

/-- A number that is kept as it is written is read as what is written. -/
theorem exists_decimalOf?_written {s t : List Char} {a : Decimal} (hvalue : numeralValue? s = some a.toRat)
    (hkept : IsKept s a.toRat) (ht : Json.Relaxed.Stops t) (fuel : Nat) :
    ∃ n r, Json.Relaxed.read? (fuel + 1) (s ++ t) = some (.number n, t) ∧ decimalOf? (.number n) = some r ∧
      r.toRat = a.toRat := by
  obtain ⟨n, hn, hnumber⟩ := exists_read? hvalue hkept ht fuel
  obtain ⟨r, hr, hrvalue⟩ := exists_decimalOf?_number hnumber
  exact ⟨n, r, hn, hr, hrvalue⟩

/-- Another number than zero with a point or a power is read as the shortest digits of its nearest double, unless
these reach the limit of the decimals. -/
theorem exists_decimalOf?_shortest {s t : List Char} {a : Decimal} (hvalue : numeralValue? s = some a.toRat)
    (hne : a.toRat ≠ 0) (hwhole : isWhole s = false) (ht : Json.Relaxed.Stops t) (fuel : Nat) :
    ∃ x p d, Json.Relaxed.read? (fuel + 1) (s ++ t) = some (.number (.float x), t) ∧ IsNearest x p a.toRat ∧
      p.IsShortest d ∧
      (d.value < mantissaLimit → ∃ r, decimalOf? (.number (.float x)) = some r ∧
        r.toRat = signedRat p.negative d.value) ∧
      (mantissaLimit ≤ d.value → decimalOf? (.number (.float x)) = none) := by
  obtain ⟨x, p, hread, hnearest⟩ := exists_read?_nearest hvalue hne hwhole ht fuel
  have htext : numeralValue? (numberText (.float x)).toList = some (signedRat p.negative p.shortest.value) :=
    numeralValue?_float hnearest.parts hnearest.isFinite
  refine ⟨x, p, p.shortest, hread, hnearest, hnearest.ranged.isShortest, fun hlt => ?_, fun hle => ?_⟩
  · obtain ⟨b, hb⟩ := hnearest.exists_toRat_eq hne hlt
    rw [← hb] at htext ⊢
    exact exists_decimalOf?_number htext
  · refine decimalOf?_number_eq_none htext ?_
    rw [abs_signedRat]
    exact hle.trans (le_abs_self _)

/-- A text that starts with a whole number of more than 64 bits is not a layout, with brackets or without. -/
theorem resolve_eq_notReadable {s t : List Char} {x : ℚ} (hvalue : numeralValue? s = some x) (hwhole : isWhole s = true)
    (hout : ¬ (-9223372036854775808 ≤ x ∧ x < 9223372036854775808)) (ht : Json.Relaxed.Stops t) :
    resolve (String.ofList (s ++ t)) = .error .notReadable := by
  obtain ⟨_, _, _, _, _, hsplits, -⟩ := exists_splits_of_numeralValue? hvalue
  obtain ⟨c, r, rfl, hc⟩ := hsplits.exists_cons
  have hne : c ≠ '/' ∧ c ≠ ']' ∧ Json.Relaxed.isSpace c = false := by
    rcases hc with rfl | hdigit
    · decide
    · refine ⟨?_, ?_, Json.Relaxed.isSpace_of_isDigit hdigit⟩
      · rintro rfl
        cases hdigit
      · rintro rfl
        cases hdigit
  have halone : Json.Relaxed.parse? (String.ofList (c :: r ++ t)) = none := by
    rw [Json.Relaxed.parse?, String.toList_ofList, read?_eq_none hvalue hwhole hout ht]
  have hbracketed : Json.Relaxed.parse? ("[" ++ String.ofList (c :: (r ++ t)) ++ "]") = none := by
    refine Json.Relaxed.parse?_bracketed_eq_none hne.2.1 ?_ fun fuel => ?_
    · rw [Json.Relaxed.skip_cons hne.1, hne.2.2]
      rfl
    · have hstops : Json.Relaxed.Stops (t ++ [']']) := by
        intro d rest h
        cases t with
        | nil =>
          cases h
          decide
        | cons d' t =>
          cases h
          exact ht _ _ rfl
      simpa using read?_eq_none hvalue hwhole hout hstops fuel
  rw [resolve, readText?, halone, Option.none_or, List.cons_append, hbracketed]

/-- What a modifier does with a value it does with every value that is read as the same decimal. -/
theorem effect?_congr {m : Modifier} (hm : m.isFlag = false) {v w : Json} (h : decimalOf? v = decimalOf? w) :
    m.effect? v = m.effect? w := by
  funext s
  cases m with
  | decal | shiftStabilizers | skipOrientationFix => cases hm
  | _ => simp only [Modifier.effect?, h]

/-- Decimals of a layout are read exactly. The text of a decimal, with white space around it, is read as that
decimal, a negative zero as zero; a number is read as what its text denotes, if some decimal is that; where it
is kept as it is written, it is read as what is written; and nothing else about a value matters to a modifier.
Any other number with a point or a power counts as the shortest digits of its nearest double, and is refused where
these reach the limit of the decimals; and where a whole number of more than 64 bits stands, nothing can be read. -/
theorem decimalOf?_exact :
    (∀ (d : Decimal) (before after : List Char), (∀ c ∈ before, isBlank c = true) → (∀ c ∈ after, isBlank c = true) →
      decimalOf? (.string (String.ofList (before ++ (d.toChars ++ after)))) = some d.unsignZero) ∧
    (∀ (n : JsonNumber) (a : Decimal), numeralValue? (numberText n).toList = some a.toRat →
      ∃ r, decimalOf? (.number n) = some r ∧ r.toRat = a.toRat) ∧
    (∀ (s t : List Char) (a : Decimal) (fuel : Nat), numeralValue? s = some a.toRat → IsKept s a.toRat →
      Json.Relaxed.Stops t → ∃ n r, Json.Relaxed.read? (fuel + 1) (s ++ t) = some (.number n, t) ∧
        decimalOf? (.number n) = some r ∧ r.toRat = a.toRat) ∧
    (∀ (m : Modifier) (v w : Json), m.isFlag = false → decimalOf? v = decimalOf? w → m.effect? v = m.effect? w) ∧
    (∀ (s t : List Char) (a : Decimal) (fuel : Nat), numeralValue? s = some a.toRat → a.toRat ≠ 0 → isWhole s = false →
      Json.Relaxed.Stops t → ∃ x p d, Json.Relaxed.read? (fuel + 1) (s ++ t) = some (.number (.float x), t) ∧
        IsNearest x p a.toRat ∧ p.IsShortest d ∧
        (d.value < mantissaLimit → ∃ r, decimalOf? (.number (.float x)) = some r ∧
          r.toRat = signedRat p.negative d.value) ∧
        (mantissaLimit ≤ d.value → decimalOf? (.number (.float x)) = none)) ∧
    (∀ (s t : List Char) (x : ℚ), numeralValue? s = some x → isWhole s = true →
      ¬ (-9223372036854775808 ≤ x ∧ x < 9223372036854775808) → Json.Relaxed.Stops t →
      (∀ fuel, Json.Relaxed.read? fuel (s ++ t) = none) ∧ resolve (String.ofList (s ++ t)) = .error .notReadable) :=
  ⟨fun d _ _ hbefore hafter => parse?_toChars d hbefore hafter, fun _ _ => exists_decimalOf?_number,
    fun _ _ _ fuel hvalue hkept ht => exists_decimalOf?_written hvalue hkept ht fuel, fun _ _ _ hm => effect?_congr hm,
    fun _ _ _ fuel hvalue hne hwhole ht => exists_decimalOf?_shortest hvalue hne hwhole ht fuel,
    fun _ _ _ hvalue hwhole hout ht =>
      ⟨read?_eq_none hvalue hwhole hout ht, resolve_eq_notReadable hvalue hwhole hout ht⟩⟩

/-- A text with white space around it, a number that is kept with a power, one that is written with a capital
mark, a width that is a text in one object and a number in another, a number of sixteen digits, and a whole number
one above the greatest of 64 bits. -/
theorem smallNumbers_exact :
    decimalOf? (.string " 0.250\n") = some (written 250 3) ∧
    (numeralValue? (numberText (.float 1e-7)).toList = some (written 1 7).toRat ∧
      ∃ r, decimalOf? (.number (.float 1e-7)) = some r ∧ r.toRat = (written 1 7).toRat) ∧
    (numeralValue? "1.25E-2".toList = some (written 125 4).toRat ∧ IsKept "1.25E-2".toList (written 125 4).toRat ∧
      ∃ n r, Json.Relaxed.read? 1 "1.25E-2,".toList = some (.number n, [',']) ∧ decimalOf? (.number n) = some r ∧
        r.toRat = (written 125 4).toRat) ∧
    Modifier.width.effect? (.string "2") = Modifier.width.effect? (.number (.int 2)) ∧
    (numeralValue? "0.9007199254740999".toList = some (written 9007199254740999 16).toRat ∧
      ∃ x p d, Json.Relaxed.read? 1 "0.9007199254740999".toList = some (.number (.float x), []) ∧
        IsNearest x p (written 9007199254740999 16).toRat ∧ p.IsShortest d ∧
        (d.value < mantissaLimit → ∃ r, decimalOf? (.number (.float x)) = some r ∧
          r.toRat = signedRat p.negative d.value)) ∧
    (numeralValue? "9223372036854775808".toList = some (written 9223372036854775808 0).toRat ∧
      resolve "9223372036854775808" = .error .notReadable) := by
  have htiny : numeralValue? (numberText (.float 1e-7)).toList = some (written 1 7).toRat := by decide +kernel
  have hwritten : numeralValue? "1.25E-2".toList = some (written 125 4).toRat := by decide +kernel
  have hvalue : (written 125 4).toRat = 125 * 10 ^ (-4 : Int) := by decide +kernel
  have hkept : IsKept "1.25E-2".toList (written 125 4).toRat :=
    ⟨125, by norm_num, -4, by rw [hvalue, abs_of_pos (by norm_num)]; rfl⟩
  have hlong : numeralValue? "0.9007199254740999".toList = some (written 9007199254740999 16).toRat := by decide +kernel
  have hlarge : numeralValue? "9223372036854775808".toList = some (written 9223372036854775808 0).toRat := by
    decide +kernel
  have hend : Json.Relaxed.Stops [] := fun c rest h => by cases h
  refine ⟨decimalOf?_exact.1 (written 250 3) [' '] ['\n'] (List.forall_mem_singleton.mpr rfl)
      (List.forall_mem_singleton.mpr rfl),
    ⟨htiny, decimalOf?_exact.2.1 _ _ htiny⟩, ⟨hwritten, hkept, ?_⟩,
    decimalOf?_exact.2.2.2.1 .width _ _ rfl (by decide +kernel), ⟨hlong, ?_⟩, ⟨hlarge, ?_⟩⟩
  · refine decimalOf?_exact.2.2.1 "1.25E-2".toList [','] _ 0 hwritten hkept fun c rest h => ?_
    cases h
    decide
  · obtain ⟨x, p, d, hread, hnearest, hshortest, hdigits, -⟩ := decimalOf?_exact.2.2.2.2.1
      "0.9007199254740999".toList [] _ 0 hlong (by decide +kernel) (by decide) hend
    exact ⟨x, p, d, hread, hnearest, hshortest, hdigits⟩
  · exact (decimalOf?_exact.2.2.2.2.2 "9223372036854775808".toList [] _ hlarge (by decide) (by decide +kernel) hend).2

/-- Of sixteen digits two numbers can be one double, so that one of them is read as the other; and a whole number
of more than 64 bits cannot be read at all. -/
theorem not_forall_written_exact :
    (¬ ∀ (text : String) (a : Decimal), numeralValue? text.toList = some a.toRat →
      ∃ value r, Json.Relaxed.parse? text = some value ∧ decimalOf? value = some r ∧ r.toRat = a.toRat) ∧
    ((resolve "[[\x7bx:0.9007199254740999\x7d,\"A\"]]").toOption.map fun keys => keys.map (·.x)) =
      some [written 9007199254740998 16] ∧
    numeralValue? "9223372036854775808".toList = some (written 9223372036854775808 0).toRat ∧
    Json.Relaxed.parse? "9223372036854775808" = none := by
  refine ⟨fun h => ?_, by decide +kernel, by decide +kernel, by decide +kernel⟩
  obtain ⟨value, r, hvalue, hr, hexact⟩ := h "0.9007199254740999" (written 9007199254740999 16) (by decide +kernel)
  have hread : (Json.Relaxed.parse? "0.9007199254740999").bind decimalOf? = some (written 9007199254740998 16) := by
    decide +kernel
  rw [hvalue, Option.bind_some, hr] at hread
  rw [Option.some.inj hread] at hexact
  exact absurd hexact (by decide +kernel)

end KeyboardPlate.Layout
