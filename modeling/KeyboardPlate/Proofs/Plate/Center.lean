import KeyboardPlate.Proofs.Decimal.Rounding
import KeyboardPlate.Proofs.Layout.Reading
import KeyboardPlate.Proofs.Plate.Bounds

/-!
# Bounds and the centers of keys

A key whose width is not negative has its center between the left and the right side of a plate, and a key
whose height is not negative between the upper and the lower one. A layout gives such keys if it gives no
negative sizes; it may give some, and then a plate can be inside out.
-/

set_option autoImplicit false

namespace KeyboardPlate

/-! ## The sizes of the keys of a layout -/

namespace Layout

variable {es before : List Event} {m : Modifier} {d : Decimal}

/-- No modifier of one kind is set to a negative number. -/
def NoNegative (m : Modifier) (es : List Event) : Prop := ∀ e ∈ es, 0 ≤ (e.decimal? m).getD 0

instance (m : Modifier) (es : List Event) : Decidable (NoNegative m es) := List.decidableBAll ..

theorem NoNegative.latest? (h : NoNegative m es) (hd : latest? (Event.decimal? m) es = some d) : 0 ≤ d := by
  obtain ⟨e, he, hvalue⟩ := List.mem_filterMap.mp (List.mem_of_getLast? hd)
  have hle := h e he
  rw [hvalue] at hle
  exact hle

theorem NoNegative.override (h : NoNegative m es) :
    0 ≤ (Layout.latest? (Event.decimal? m) (sinceLabel es)).getD .one := by
  have hsince : NoNegative m (sinceLabel es) :=
    fun e he => h e ((List.rtakeWhile_suffix _ _).mem he)
  cases hd : Layout.latest? (Event.decimal? m) (sinceLabel es) with
  | none => decide +kernel
  | some d => exact hsince.latest? hd

theorem mem_of_mem_beforeKeys (h : before ∈ beforeKeys es) : before <+: es := by
  obtain ⟨⟨first, e⟩, hmem, hkey⟩ := List.mem_filterMap.mp h
  dsimp only at hkey
  split at hkey
  · cases hkey
    exact (List.mem_inits before es).mp (List.of_mem_zip hmem).1
  · cases hkey

/-- The latest sizes that a layout gave before a key are its own. -/
theorem exists_sizes {value : Json} {keys : List Key} (h : resolveValue value = .ok keys) {k : Key} (hk : k ∈ keys) :
    ∃ before, before <+: events value ∧ k.width = (overridesAfter before).width ∧
      k.height = (overridesAfter before).height := by
  unfold resolveValue at h
  split at h
  · obtain ⟨s, -, hkeys⟩ := reads_of_resolveRows h
    have hmem := List.mem_map_of_mem (f := fun k : Key => some k.toPlacement) hk
    rw [hkeys] at hmem
    obtain ⟨before, hbefore, hplacement⟩ := List.mem_map.mp hmem
    refine ⟨before, mem_of_mem_beforeKeys hbefore, ?_⟩
    simp only [placementAfter?, Option.bind_eq_bind, Option.bind_eq_some_iff, Option.pure_def,
      Option.some.injEq] at hplacement
    obtain ⟨x, -, y, -, hplacement⟩ := hplacement
    rw [← hplacement]
    exact ⟨rfl, rfl⟩
  · cases h

theorem width_nonneg {value : Json} {keys : List Key} (h : resolveValue value = .ok keys)
    (hvalue : NoNegative .width (events value)) : ∀ k ∈ keys, 0 ≤ k.width := by
  intro k hk
  obtain ⟨before, hbefore, hwidth, -⟩ := exists_sizes h hk
  have hnone : NoNegative .width before := fun e he => hvalue e (hbefore.mem he)
  rw [hwidth]
  exact hnone.override

theorem height_nonneg {value : Json} {keys : List Key} (h : resolveValue value = .ok keys)
    (hvalue : NoNegative .height (events value)) : ∀ k ∈ keys, 0 ≤ k.height := by
  intro k hk
  obtain ⟨before, hbefore, -, hheight⟩ := exists_sizes h hk
  have hnone : NoNegative .height before := fun e he => hvalue e (hbefore.mem he)
  rw [hheight]
  exact hnone.override

end Layout

/-! ## The center of a key in its own bounds -/

/-- Both ends of a side of a key, about its middle, are on their sides of it. -/
theorem ends_around {size unit middle length half low high : Decimal} (hsize : 0 ≤ size) (hunit : 0 < unit)
    (hlength : size.mul? unit = some length) (hhalf : length.half? = some half)
    (hlow : middle.sub? half = some low) (hhigh : middle.add? half = some high) :
    low ≤ middle ∧ middle ≤ high := by
  have hlength' := Decimal.mul?_nonneg (Decimal.nonneg_iff.mp hsize)
    (Decimal.nonneg_iff.mp (Decimal.le_of_lt hunit)) hlength
  have hhalf' := Decimal.half?_nonneg hlength' hhalf
  rw [Decimal.le_iff_toRat, Decimal.le_iff_toRat]
  exact ⟨Decimal.sub?_le_left hlow hhalf', Decimal.le_add?_left hhigh hhalf'⟩

namespace Bounds

variable {k : Key} {o : Options} {b c : Bounds}

/-- The center of the key, in millimetres, is between the left and the right side. -/
def HoldsAcross (b : Bounds) (o : Options) (k : Key) : Prop :=
  ∃ x, k.centerX.mul? o.unitWidth = some x ∧ b.minX ≤ x ∧ x ≤ b.maxX

/-- The center of the key, in millimetres, is between the upper and the lower side. -/
def HoldsDown (b : Bounds) (o : Options) (k : Key) : Prop :=
  ∃ y, k.centerY.mul? o.unitHeight = some y ∧ b.minY ≤ y ∧ y ≤ b.maxY

theorem HoldsAcross.mono (h : b.HoldsAcross o k) (hbc : b.Inside c) : c.HoldsAcross o k := by
  obtain ⟨x, hx, hlow, hhigh⟩ := h
  exact ⟨x, hx, Decimal.le_trans hbc.minX hlow, Decimal.le_trans hhigh hbc.maxX⟩

theorem HoldsDown.mono (h : b.HoldsDown o k) (hbc : b.Inside c) : c.HoldsDown o k := by
  obtain ⟨y, hy, hlow, hhigh⟩ := h
  exact ⟨y, hy, Decimal.le_trans hbc.minY hlow, Decimal.le_trans hhigh hbc.maxY⟩

theorem HoldsAcross.ordered (h : b.HoldsAcross o k) : b.minX ≤ b.maxX := by
  obtain ⟨x, -, hlow, hhigh⟩ := h
  exact Decimal.le_trans hlow hhigh

theorem HoldsDown.ordered (h : b.HoldsDown o k) : b.minY ≤ b.maxY := by
  obtain ⟨y, -, hlow, hhigh⟩ := h
  exact Decimal.le_trans hlow hhigh

theorem holds_of_ofKey? (h : ofKey? k o = some b) (hunitWidth : 0 < o.unitWidth) (hunitHeight : 0 < o.unitHeight) :
    (0 ≤ k.width → b.HoldsAcross o k) ∧ (0 ≤ k.height → b.HoldsDown o k) := by
  simp only [ofKey?, Option.bind_eq_bind, Option.bind_eq_some_iff, Option.pure_def, Option.some.injEq] at h
  obtain ⟨x, hx, y, hy, width, hwidth, halfWidth, hhalfWidth, height, hheight, halfHeight, hhalfHeight,
    minX, hminX, maxX, hmaxX, minY, hminY, maxY, hmaxY, rfl⟩ := h
  constructor
  · intro hk
    exact ⟨x, hx, ends_around hk hunitWidth hwidth hhalfWidth hminX hmaxX⟩
  · intro hk
    exact ⟨y, hy, ends_around hk hunitHeight hheight hhalfHeight hminY hmaxY⟩

end Bounds

namespace Plate

variable {α : Type} [Scalar α] {keys : List Key} {o : Options} {plate : Plate α}

theorem exists_inside_of_build (h : build keys o = .ok plate) :
    keys ≠ [] ∧ ∀ k ∈ keys, ∃ b, Bounds.ofKey? k o = some b ∧ b.Inside plate.bounds := by
  obtain ⟨blocks, own, hblocks, hunion, -⟩ := build_ok h
  obtain ⟨hlength, hall⟩ := keyBlocks_ok hblocks
  have hleast := Bounds.leastAround_of_union? hunion
  constructor
  · rintro rfl
    obtain rfl : blocks = [] := List.length_eq_zero_iff.mp hlength
    cases hunion
  · intro k hk
    obtain ⟨i, hi⟩ := List.mem_iff_getElem?.mp hk
    obtain ⟨block, hblock, hplace⟩ := hall i k hi
    exact ⟨block.1, place_bounds hplace, hleast.inside _ (List.mem_map_of_mem (List.mem_of_getElem? hblock))⟩

/-- The bounds of a plate hold the center of every key of no negative width, and of no negative height, so they
are not inside out if the layout gives no negative sizes. -/
theorem build_centers {value : Json} (hvalue : Layout.resolveValue value = .ok keys) (hunitWidth : 0 < o.unitWidth)
    (hunitHeight : 0 < o.unitHeight) (h : build keys o = .ok plate) :
    (∀ k ∈ keys, (0 ≤ k.width → plate.bounds.HoldsAcross o k) ∧ (0 ≤ k.height → plate.bounds.HoldsDown o k)) ∧
    (Layout.NoNegative .width (Layout.events value) →
      plate.bounds.minX ≤ plate.bounds.maxX ∧ ∀ k ∈ keys, plate.bounds.HoldsAcross o k) ∧
    (Layout.NoNegative .height (Layout.events value) →
      plate.bounds.minY ≤ plate.bounds.maxY ∧ ∀ k ∈ keys, plate.bounds.HoldsDown o k) := by
  obtain ⟨hne, hinside⟩ := exists_inside_of_build h
  have hholds : ∀ k ∈ keys,
      (0 ≤ k.width → plate.bounds.HoldsAcross o k) ∧ (0 ≤ k.height → plate.bounds.HoldsDown o k) := by
    intro k hk
    obtain ⟨b, hb, hbounds⟩ := hinside k hk
    obtain ⟨hacross, hdown⟩ := Bounds.holds_of_ofKey? hb hunitWidth hunitHeight
    exact ⟨fun hwidth => (hacross hwidth).mono hbounds, fun hheight => (hdown hheight).mono hbounds⟩
  obtain ⟨first, hfirst⟩ := List.exists_mem_of_ne_nil keys hne
  refine ⟨hholds, ?_, ?_⟩
  · intro hnone
    have hall : ∀ k ∈ keys, plate.bounds.HoldsAcross o k :=
      fun k hk => (hholds k hk).1 (Layout.width_nonneg hvalue hnone k hk)
    exact ⟨(hall first hfirst).ordered, hall⟩
  · intro hnone
    have hall : ∀ k ∈ keys, plate.bounds.HoldsDown o k :=
      fun k hk => (hholds k hk).2 (Layout.height_nonneg hvalue hnone k hk)
    exact ⟨(hall first hfirst).ordered, hall⟩

/-- Two rows about a rotation point, with a key of no height and one wider than high. -/
def flatLayout : Json := .array [
  .array [.object [("rx", .number (.int 4)), ("ry", .string "-1.5"), ("r", .number (.int 30)), ("h", .number (.int 0))],
    .string "A"],
  .array [.object [("x", .string "-2"), ("w", .string "2.75")], .string "B"]]

theorem flatLayout_centers : ∃ (keys : List Key) (plate : Plate Float), Layout.resolveValue flatLayout = .ok keys ∧
    0 < sharpOptions.unitWidth ∧ 0 < sharpOptions.unitHeight ∧ build keys sharpOptions = .ok plate ∧
    Layout.NoNegative .width (Layout.events flatLayout) ∧ Layout.NoNegative .height (Layout.events flatLayout) ∧
    plate.bounds.minX ≤ plate.bounds.maxX ∧ plate.bounds.minY ≤ plate.bounds.maxY ∧
    ∀ k ∈ keys, plate.bounds.HoldsAcross sharpOptions k ∧ plate.bounds.HoldsDown sharpOptions k := by
  obtain ⟨keys, hkeys⟩ := Except.exists_of_isOk (x := Layout.resolveValue flatLayout) (by decide +kernel)
  have hbuilt : (Layout.resolveValue flatLayout).toOption.all
      (fun keys => (build (α := Float) keys sharpOptions).isOk) = true := by decide +kernel
  rw [hkeys] at hbuilt
  obtain ⟨plate, hplate⟩ := Except.exists_of_isOk hbuilt
  have hunitWidth : 0 < sharpOptions.unitWidth := by decide +kernel
  have hunitHeight : 0 < sharpOptions.unitHeight := by decide +kernel
  have hwidth : Layout.NoNegative .width (Layout.events flatLayout) := by decide +kernel
  have hheight : Layout.NoNegative .height (Layout.events flatLayout) := by decide +kernel
  obtain ⟨-, hacross, hdown⟩ := build_centers hkeys hunitWidth hunitHeight hplate
  obtain ⟨hminX, hacross⟩ := hacross hwidth
  obtain ⟨hminY, hdown⟩ := hdown hheight
  exact ⟨keys, plate, hkeys, hunitWidth, hunitHeight, hplate, hwidth, hheight, hminX, hminY,
    fun k hk => ⟨hacross k hk, hdown k hk⟩⟩

/-- A key two units wide to the left. -/
def leftwardLayout : Json := .array [.array [.object [("w", .number (.int (-2)))], .string "A"]]

theorem not_forall_bounds_ordered : ¬ ∀ (value : Json) (keys : List Key) (o : Options) (plate : Plate Float),
    Layout.resolveValue value = .ok keys → 0 < o.unitWidth → 0 < o.unitHeight → build keys o = .ok plate →
      plate.bounds.minX ≤ plate.bounds.maxX ∧ plate.bounds.minY ≤ plate.bounds.maxY ∧
      ∀ k ∈ keys, plate.bounds.HoldsAcross o k ∧ plate.bounds.HoldsDown o k := by
  intro hall
  have hbuilt : (match Layout.resolveValue leftwardLayout with
    | .ok keys => match build (α := Float) keys sharpOptions with
      | .ok plate => decide (plate.bounds.minX ≤ plate.bounds.maxX)
      | .error _ => true
    | .error _ => true) = false := by decide +kernel
  split at hbuilt
  · rename_i keys hkeys
    split at hbuilt
    · rename_i plate hplate
      have hordered := (hall _ keys _ plate hkeys (by decide +kernel) (by decide +kernel) hplate).1
      exact absurd hordered (of_decide_eq_false hbuilt)
    · cases hbuilt
  · cases hbuilt

end Plate

end KeyboardPlate
