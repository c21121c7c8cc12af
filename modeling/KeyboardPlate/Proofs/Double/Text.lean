import KeyboardPlate.Double.Text

/-!
# Characters of numerals

In every style the text of a finite double is made of digits, signs, points and the mark of an exponent. So
it ends where white space, a comma or a bracket follows it.
-/

set_option autoImplicit false

namespace KeyboardPlate.Double

open Float.Model.UnpackedFloat

def isNumeralChar (c : Char) : Bool := c.isDigit || c == '-' || c == '.' || c == 'e' || c == '+'

def IsNumeral (s : List Char) : Prop := ∀ c ∈ s, isNumeralChar c = true

namespace IsNumeral
variable {s t : List Char}

theorem nil : IsNumeral [] := fun _ h => by cases h

theorem cons {c : Char} (hc : isNumeralChar c = true) (hs : IsNumeral s) : IsNumeral (c :: s) := by
  intro d hd
  rcases List.mem_cons.mp hd with rfl | hd
  · exact hc
  · exact hs d hd

theorem append (hs : IsNumeral s) (ht : IsNumeral t) : IsNumeral (s ++ t) := by
  intro c hc
  rcases List.mem_append.mp hc with hc | hc
  · exact hs c hc
  · exact ht c hc

theorem of_subset (hs : IsNumeral s) (h : t ⊆ s) : IsNumeral t := fun c hc => hs c (h hc)

theorem toDigits (n : Nat) : IsNumeral (Nat.toDigits 10 n) := by
  intro c hc
  have hdigit : c.isDigit = true := Nat.isDigit_of_mem_toDigits (by omega) (by omega) hc
  simp [isNumeralChar, hdigit]

theorem zeros (n : Nat) : IsNumeral (List.replicate n '0') := by
  intro c hc
  rw [List.eq_of_mem_replicate hc]
  rfl

end IsNumeral

theorem Digits.isNumeral_positional (d : Digits) (wholeFraction : Bool) :
    IsNumeral (d.positional wholeFraction) := by
  have hdigits := IsNumeral.toDigits d.digits
  unfold Digits.positional
  extract_lets digits k
  split
  · refine (hdigits.append (.zeros _)).append ?_
    cases wholeFraction with
    | true => exact .cons rfl (.cons rfl .nil)
    | false => exact .nil
  · split
    · exact (hdigits.of_subset (List.take_subset ..)).append
        (.cons rfl (hdigits.of_subset (List.drop_subset ..)))
    · exact .cons rfl (.cons rfl ((IsNumeral.zeros _).append hdigits))

theorem Digits.isNumeral_scientific (d : Digits) (plusExponent : Bool) :
    IsNumeral (d.scientific plusExponent) := by
  have hdigits := IsNumeral.toDigits d.digits
  unfold Digits.scientific
  refine ((hdigits.of_subset (List.take_subset ..)).append ?_).append (.cons rfl (.append ?_ (.toDigits _)))
  · split
    · exact .nil
    · exact .cons rfl (hdigits.of_subset (List.drop_subset ..))
  · split
    · exact .cons rfl .nil
    · split
      · exact .cons rfl .nil
      · exact .nil

theorem Parts.isNumeral_text (style : Style) (p : Parts) : IsNumeral (p.text style) := by
  unfold Parts.text
  refine .append ?_ ?_
  · split
    · exact .cons rfl .nil
    · exact .nil
  · split
    · exact p.shortest.isNumeral_positional _
    · exact p.shortest.isNumeral_scientific _

theorem exists_parts?_of_isFinite {x : Float} (h : x.isFinite = true) : ∃ p, parts? x = some p := by
  have hexp : x.toBits.toNat / 4503599627370496 % 2048 ≠ 2047 := by
    intro he
    have hones : @unpackExponent .binary64 x.toModel.toBits.toBitVec = -1#_ := by
      apply BitVec.eq_of_toNat_eq
      simp [unpackExponent, Nat.shiftRight_eq_div_pow]
      exact he
    have hinf : x.toModel.unpack.isFinite = true := h
    unfold Float.Model.unpack unpack at hinf
    dsimp only at hinf
    rw [if_pos hones] at hinf
    split at hinf
    · cases hinf
    · cases hinf
  unfold parts?
  dsimp only
  rw [if_neg hexp]
  split
  · exact ⟨_, rfl⟩
  · exact ⟨_, rfl⟩

theorem isNumeral_text (style : Style) {x : Float} (h : x.isFinite = true) :
    IsNumeral (text style x).toList := by
  obtain ⟨p, hp⟩ := exists_parts?_of_isFinite h
  simpa [text, hp] using p.isNumeral_text style

/-- What the text of any double is made of, finite or not. -/
theorem mem_text {style : Style} {x : Float} {c : Char} (h : c ∈ (text style x).toList) :
    isNumeralChar c = true ∨ c ∈ ['N', 'a', 'i', 'n', 'f'] := by
  unfold text at h
  split at h
  · rename_i p _
    rw [String.toList_ofList] at h
    exact .inl (p.isNumeral_text style c h)
  · have hwords : ∀ word ∈ ["NaN", "-inf", "inf"],
        (word.toList.all fun c => isNumeralChar c || ['N', 'a', 'i', 'n', 'f'].contains c) = true := by
      decide
    have hword : (if x.isNaN then "NaN" else if x < 0.0 then "-inf" else "inf") ∈ ["NaN", "-inf", "inf"] := by
      split
      · simp
      · split
        · simp
        · simp
    simpa using List.all_eq_true.mp (hwords _ hword) c h

end KeyboardPlate.Double
