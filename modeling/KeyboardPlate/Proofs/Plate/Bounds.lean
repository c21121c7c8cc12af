import KeyboardPlate.Proofs.Decimal.Order
import KeyboardPlate.Proofs.Plate.Build

/-!
# The least bounds around all keys

Merging bounds gives the least ones around both. So the bounds of a plate are the least around its keys, and
neither the order of the keys nor that of the merges shows in them, except for the scales of their decimals.
-/

set_option autoImplicit false

namespace KeyboardPlate

namespace Bounds

/-- No side of the first bounds is outside the second. -/
structure Inside (a b : Bounds) : Prop where
  minX : b.minX ≤ a.minX
  maxX : a.maxX ≤ b.maxX
  minY : b.minY ≤ a.minY
  maxY : a.maxY ≤ b.maxY

/-- The sides are the same numbers. -/
structure Same (a b : Bounds) : Prop where
  minX : a.minX.Same b.minX
  maxX : a.maxX.Same b.maxX
  minY : a.minY.Same b.minY
  maxY : a.maxY.Same b.maxY

/-- The bounds hold some boxes and share each side with one of them. -/
structure LeastAround (b : Bounds) (boxes : List Bounds) : Prop where
  inside : ∀ c ∈ boxes, c.Inside b
  minX : ∃ c ∈ boxes, c.minX = b.minX
  maxX : ∃ c ∈ boxes, c.maxX = b.maxX
  minY : ∃ c ∈ boxes, c.minY = b.minY
  maxY : ∃ c ∈ boxes, c.maxY = b.maxY

variable {a b c : Bounds} {boxes others : List Bounds}

namespace Inside

theorem rfl : a.Inside a := ⟨Decimal.le_rfl, Decimal.le_rfl, Decimal.le_rfl, Decimal.le_rfl⟩

theorem trans (hab : a.Inside b) (hbc : b.Inside c) : a.Inside c where
  minX := Decimal.le_trans hbc.minX hab.minX
  maxX := Decimal.le_trans hab.maxX hbc.maxX
  minY := Decimal.le_trans hbc.minY hab.minY
  maxY := Decimal.le_trans hab.maxY hbc.maxY

theorem antisymm (hab : a.Inside b) (hba : b.Inside a) : a.Same b where
  minX := Decimal.same_of_le_of_le hba.minX hab.minX
  maxX := Decimal.same_of_le_of_le hab.maxX hba.maxX
  minY := Decimal.same_of_le_of_le hba.minY hab.minY
  maxY := Decimal.same_of_le_of_le hab.maxY hba.maxY

end Inside

theorem inside_merge_left (a b : Bounds) : a.Inside (a.merge b) where
  minX := Decimal.least_le_left _ _
  maxX := Decimal.le_greatest_left _ _
  minY := Decimal.least_le_left _ _
  maxY := Decimal.le_greatest_left _ _

theorem inside_merge_right (a b : Bounds) : b.Inside (a.merge b) where
  minX := Decimal.least_le_right _ _
  maxX := Decimal.le_greatest_right _ _
  minY := Decimal.least_le_right _ _
  maxY := Decimal.le_greatest_right _ _

/-! ## Merging least bounds -/

/-- What is a side of one box or another is the side of a box among both. -/
theorem exists_side_append {side : Bounds → Decimal} {x y z : Decimal} (hx : ∃ c ∈ boxes, side c = x)
    (hy : ∃ c ∈ others, side c = y) (hz : z = x ∨ z = y) : ∃ c ∈ boxes ++ others, side c = z := by
  rcases hz with rfl | rfl
  · obtain ⟨c, hc, hside⟩ := hx
    exact ⟨c, List.mem_append_left _ hc, hside⟩
  · obtain ⟨c, hc, hside⟩ := hy
    exact ⟨c, List.mem_append_right _ hc, hside⟩

theorem leastAround_singleton (b : Bounds) : b.LeastAround [b] where
  inside c hc := by
    rw [List.mem_singleton] at hc
    exact hc ▸ .rfl
  minX := ⟨b, by simp, Eq.refl _⟩
  maxX := ⟨b, by simp, Eq.refl _⟩
  minY := ⟨b, by simp, Eq.refl _⟩
  maxY := ⟨b, by simp, Eq.refl _⟩

namespace LeastAround

theorem merge (ha : a.LeastAround boxes) (hb : b.LeastAround others) :
    (a.merge b).LeastAround (boxes ++ others) where
  inside c hc := by
    rcases List.mem_append.mp hc with hc | hc
    · exact (ha.inside c hc).trans (inside_merge_left a b)
    · exact (hb.inside c hc).trans (inside_merge_right a b)
  minX := exists_side_append ha.minX hb.minX (Decimal.least_eq_or _ _)
  maxX := exists_side_append ha.maxX hb.maxX (Decimal.greatest_eq_or _ _)
  minY := exists_side_append ha.minY hb.minY (Decimal.least_eq_or _ _)
  maxY := exists_side_append ha.maxY hb.maxY (Decimal.greatest_eq_or _ _)

/-- No bounds around the boxes are smaller. -/
theorem inside_of_forall (h : b.LeastAround boxes) (hc : ∀ a ∈ boxes, a.Inside c) : b.Inside c := by
  obtain ⟨left, hleft, heqLeft⟩ := h.minX
  obtain ⟨right, hright, heqRight⟩ := h.maxX
  obtain ⟨upper, hupper, heqUpper⟩ := h.minY
  obtain ⟨lower, hlower, heqLower⟩ := h.maxY
  exact {
    minX := heqLeft ▸ (hc left hleft).minX
    maxX := heqRight ▸ (hc right hright).maxX
    minY := heqUpper ▸ (hc upper hupper).minY
    maxY := heqLower ▸ (hc lower hlower).maxY }

theorem same (ha : a.LeastAround boxes) (hb : b.LeastAround others) (h : ∀ c, c ∈ boxes ↔ c ∈ others) :
    a.Same b := by
  have hab : a.Inside b := ha.inside_of_forall fun c hc => hb.inside c ((h c).mp hc)
  have hba : b.Inside a := hb.inside_of_forall fun c hc => ha.inside c ((h c).mpr hc)
  exact hab.antisymm hba

theorem foldl (h : b.LeastAround boxes) (rest : List Bounds) :
    (rest.foldl Bounds.merge b).LeastAround (boxes ++ rest) := by
  induction rest generalizing b boxes with
  | nil => simpa using h
  | cons c rest ih => simpa using ih (h.merge (leastAround_singleton c))

end LeastAround

theorem leastAround_of_union? (h : union? boxes = some b) : b.LeastAround boxes := by
  cases boxes with
  | nil => cases h
  | cons first rest =>
    cases h
    exact (leastAround_singleton first).foldl rest

/-- An order in which boxes are merged two by two. -/
inductive Grouping where
  | one (box : Bounds)
  | both (first second : Grouping)

namespace Grouping

/-- The boxes from left to right. -/
def leaves : Grouping → List Bounds
  | one box => [box]
  | both first second => first.leaves ++ second.leaves

def merged : Grouping → Bounds
  | one box => box
  | both first second => first.merged.merge second.merged

theorem leastAround (g : Grouping) : g.merged.LeastAround g.leaves := by
  induction g with
  | one box => exact leastAround_singleton box
  | both first second ihFirst ihSecond => exact ihFirst.merge ihSecond

end Grouping

end Bounds

namespace Plate

variable {α : Type} [Scalar α] {keys others : List Key} {o : Options} {plate : Plate α}

theorem exists_union_of_build (h : build keys o = .ok plate) :
    ∃ boxes, (keys.mapM fun k => Bounds.ofKey? k o) = some boxes ∧ Bounds.union? boxes = some plate.bounds := by
  obtain ⟨blocks, own, hblocks, hunion, -⟩ := build_ok h
  exact ⟨blocks.map (·.1), mapM_ofKey?_of_keyBlocks hblocks, hunion⟩

/-- A plate is only built where its width and height have decimals. -/
theorem exists_extent_of_build (h : build keys o = .ok plate) :
    ∃ width height, plate.bounds.width? = some width ∧ plate.bounds.height? = some height := by
  obtain ⟨blocks, -, h⟩ := Except.bind_eq_ok_iff.mp h
  split at h
  · cases h
  · split at h
    · cases h
    · rename_i hextent
      obtain ⟨own, -, h⟩ := Except.bind_eq_ok_iff.mp h
      cases h
      simp only [Bool.or_eq_true, not_or, Bool.not_eq_true, Option.isNone_eq_false_iff] at hextent
      obtain ⟨width, hwidth⟩ := Option.isSome_iff_exists.mp hextent.1
      obtain ⟨height, hheight⟩ := Option.isSome_iff_exists.mp hextent.2
      exact ⟨width, height, hwidth, hheight⟩

theorem exists_mapM_of_perm {β γ : Type} {f : β → Option γ} {xs ys : List β} {zs : List γ} (h : xs.Perm ys)
    (hys : ys.mapM f = some zs) : ∃ ws, xs.mapM f = some ws ∧ ws.Perm zs := by
  induction h generalizing zs with
  | nil => exact ⟨zs, hys, .refl _⟩
  | cons x h ih =>
    simp only [List.mapM_cons, Option.bind_eq_bind, Option.bind_eq_some_iff, Option.pure_def,
      Option.some.injEq] at hys ⊢
    obtain ⟨z, hz, rest, hrest, rfl⟩ := hys
    obtain ⟨ws, hws, hperm⟩ := ih hrest
    exact ⟨z :: ws, ⟨z, hz, ws, hws, rfl⟩, hperm.cons z⟩
  | swap x y xs =>
    simp only [List.mapM_cons, Option.bind_eq_bind, Option.bind_eq_some_iff, Option.pure_def,
      Option.some.injEq] at hys ⊢
    obtain ⟨z, hz, _, ⟨w, hw, rest, hrest, rfl⟩, rfl⟩ := hys
    exact ⟨w :: z :: rest, ⟨w, hw, _, ⟨z, hz, rest, hrest, rfl⟩, rfl⟩, .swap z w rest⟩
  | trans h h' ih ih' =>
    obtain ⟨vs, hvs, hperm⟩ := ih' hys
    obtain ⟨ws, hws, hperm'⟩ := ih hvs
    exact ⟨ws, hws, hperm'.trans hperm⟩

theorem exists_union_of_perm {b : Bounds} {boxes : List Bounds} (hleast : b.LeastAround boxes)
    (hboxes : (keys.mapM fun k => Bounds.ofKey? k o) = some boxes) (hperm : others.Perm keys) :
    ∃ otherBoxes c, (others.mapM fun k => Bounds.ofKey? k o) = some otherBoxes ∧
      Bounds.union? otherBoxes = some c ∧ c.Same b := by
  obtain ⟨otherBoxes, hothers, hperm⟩ := exists_mapM_of_perm hperm hboxes
  obtain ⟨left, hleft, -⟩ := hleast.minX
  cases otherBoxes with
  | nil => cases hperm.mem_iff.mpr hleft
  | cons first rest =>
    have hfirst : Bounds.LeastAround _ (first :: rest) := Bounds.leastAround_of_union? rfl
    exact ⟨first :: rest, _, hothers, rfl, hfirst.same hleast fun c => hperm.mem_iff⟩

/-- The bounds of a plate are the least ones around those of its keys, and each of their sides is the side
of a key. In whatever order the keys come, and however their bounds are merged, the same numbers come out. -/
theorem build_bounds (h : build keys o = .ok plate) :
    ∃ boxes, (keys.mapM fun k => Bounds.ofKey? k o) = some boxes ∧
      plate.bounds.LeastAround boxes ∧ (∀ c, (∀ b ∈ boxes, b.Inside c) → plate.bounds.Inside c) ∧
      (∀ g : Bounds.Grouping, g.leaves.Perm boxes → g.merged.Same plate.bounds) ∧
      ∀ others : List Key, others.Perm keys →
        (∃ otherBoxes b, (others.mapM fun k => Bounds.ofKey? k o) = some otherBoxes ∧
          Bounds.union? otherBoxes = some b ∧ b.Same plate.bounds) ∧
        ∀ other : Plate α, build others o = .ok other → other.bounds.Same plate.bounds := by
  obtain ⟨boxes, hboxes, hunion⟩ := exists_union_of_build h
  have hleast := Bounds.leastAround_of_union? hunion
  refine ⟨boxes, hboxes, hleast, fun c => hleast.inside_of_forall, ?_, ?_⟩
  · intro g hg
    exact g.leastAround.same hleast fun c => hg.mem_iff
  · intro others hperm
    obtain ⟨otherBoxes, b, hothers, hb, hsame⟩ := exists_union_of_perm hleast hboxes hperm
    refine ⟨⟨otherBoxes, b, hothers, hb, hsame⟩, fun other hother => ?_⟩
    obtain ⟨found, hfound, hfoundUnion⟩ := exists_union_of_build hother
    rw [hothers, Option.some.injEq] at hfound
    rw [← hfound, hb, Option.some.injEq] at hfoundUnion
    exact hfoundUnion ▸ hsame

/-- A key to the left of the origin, with more fraction digits than the others. -/
def leftKey : Key :=
  { x := -1.50, y := 0.5, centerX := -1.00, centerY := 1.0, center_eq := by decide +kernel }

theorem unitAndLeft_bounds : ∃ plate other : Plate Float,
    build [unitKey, leftKey, wideKey] sharpOptions = .ok plate ∧
    build [leftKey, wideKey, unitKey] sharpOptions = .ok other ∧
    (∃ boxes, ([unitKey, leftKey, wideKey].mapM fun k => Bounds.ofKey? k sharpOptions) = some boxes ∧
      plate.bounds.LeastAround boxes) ∧
    other.bounds.Same plate.bounds := by
  obtain ⟨plate, h⟩ := Except.exists_of_isOk
    (x := build (α := Float) [unitKey, leftKey, wideKey] sharpOptions) (by decide +kernel)
  obtain ⟨other, h'⟩ := Except.exists_of_isOk
    (x := build (α := Float) [leftKey, wideKey, unitKey] sharpOptions) (by decide +kernel)
  obtain ⟨boxes, hboxes, hleast, -, -, hperm⟩ := build_bounds h
  have hothers : [leftKey, wideKey, unitKey].Perm [unitKey, leftKey, wideKey] := by decide +kernel
  exact ⟨plate, other, h, h', ⟨boxes, hboxes, hleast⟩, (hperm _ hothers).2 other h'⟩

end Plate

end KeyboardPlate
