import KeyboardPlate.Proofs.Drawing.Refusal
import KeyboardPlate.Proofs.Geometry.Crossing
import KeyboardPlate.Proofs.Model.Walk

/-!
# The extents of a drawing

The extents are the least upright box around the samples of all paths of the walk. So they depend on nothing but
which points these are: not on the order of paths and children at any level of the tree.
-/

set_option autoImplicit false

namespace KeyboardPlate

/-! ## Least boxes -/

theorem Quantity.least_eq_min (x y : ℝ) : Quantity.least x y = min x y := by
  unfold least
  rw [min_def]
  split
  · rfl
  · simp

theorem Quantity.greatest_eq_max (x y : ℝ) : Quantity.greatest x y = max x y := by
  unfold greatest
  rw [max_def]
  split
  · rename_i hle
    split
    · rename_i hge
      exact le_antisymm hge hle
    · rfl
  · rename_i hle
    rw [if_pos (not_le.mp hle).le]
    simp

namespace Box

variable {b c : Box ℝ} {points others : List (Point ℝ)} {p : Point ℝ}

/-- The point lies in the box or on its sides. -/
structure Holds (b : Box ℝ) (p : Point ℝ) : Prop where
  left : b.low.x ≤ p.x
  right : p.x ≤ b.high.x
  lower : b.low.y ≤ p.y
  upper : p.y ≤ b.high.y

/-- Every side of the box lies within those of the other. -/
structure Inside (b c : Box ℝ) : Prop where
  left : c.low.x ≤ b.low.x
  right : b.high.x ≤ c.high.x
  lower : c.low.y ≤ b.low.y
  upper : b.high.y ≤ c.high.y

theorem Inside.antisymm (h : b.Inside c) (h' : c.Inside b) : b = c := by
  obtain ⟨⟨lowX, lowY⟩, ⟨highX, highY⟩⟩ := b
  obtain ⟨⟨lowX', lowY'⟩, ⟨highX', highY'⟩⟩ := c
  obtain rfl : lowX = lowX' := le_antisymm h'.left h.left
  obtain rfl : lowY = lowY' := le_antisymm h'.lower h.lower
  obtain rfl : highX = highX' := le_antisymm h.right h'.right
  obtain rfl : highY = highY' := le_antisymm h.upper h'.upper
  rfl

/-- The box holds the points, and lies inside every box that does. -/
structure LeastAround (b : Box ℝ) (points : List (Point ℝ)) : Prop where
  holds : ∀ p ∈ points, b.Holds p
  inside : ∀ c : Box ℝ, (∀ p ∈ points, c.Holds p) → b.Inside c

/-- There is one least box around some points, whatever their order. -/
theorem LeastAround.unique (hb : b.LeastAround points) (hc : c.LeastAround others)
    (h : ∀ p, p ∈ points ↔ p ∈ others) : b = c := by
  have hbc : b.Inside c := hb.inside c fun p hp => hc.holds p ((h p).mp hp)
  have hcb : c.Inside b := hc.inside b fun p hp => hb.holds p ((h p).mpr hp)
  exact hbc.antisymm hcb

theorem leastAround_singleton (p : Point ℝ) : LeastAround ⟨p, p⟩ [p] where
  holds q hq := by
    obtain rfl := List.mem_singleton.mp hq
    exact ⟨le_rfl, le_rfl, le_rfl, le_rfl⟩
  inside c hc := by
    obtain ⟨hleft, hright, hlower, hupper⟩ := hc p (by simp)
    exact ⟨hleft, hright, hlower, hupper⟩

theorem LeastAround.extend (h : b.LeastAround points) (p : Point ℝ) : (b.extend p).LeastAround (points ++ [p]) := by
  have hextend : b.extend p =
      ⟨⟨min b.low.x p.x, min b.low.y p.y⟩, ⟨max b.high.x p.x, max b.high.y p.y⟩⟩ := by
    simp only [Box.extend, Quantity.least_eq_min, Quantity.greatest_eq_max]
  rw [hextend]
  constructor
  · intro q hq
    rcases List.mem_append.mp hq with hq | hq
    · obtain ⟨hleft, hright, hlower, hupper⟩ := h.holds q hq
      exact ⟨(min_le_left _ _).trans hleft, hright.trans (le_max_left _ _), (min_le_left _ _).trans hlower,
        hupper.trans (le_max_left _ _)⟩
    · obtain rfl := List.mem_singleton.mp hq
      exact ⟨min_le_right _ _, le_max_right _ _, min_le_right _ _, le_max_right _ _⟩
  · intro c hc
    obtain ⟨hleft, hright, hlower, hupper⟩ := h.inside c fun q hq => hc q (List.mem_append_left _ hq)
    obtain ⟨hleft', hright', hlower', hupper'⟩ := hc p (by simp)
    exact ⟨le_min hleft hleft', max_le hright hright', le_min hlower hlower', max_le hupper hupper'⟩

theorem LeastAround.foldl (h : b.LeastAround points) (rest : List (Point ℝ)) :
    (rest.foldl Box.extend b).LeastAround (points ++ rest) := by
  induction rest generalizing b points with
  | nil => simpa using h
  | cons p rest ih => simpa using ih (h.extend p)

end Box

/-! ## Drawings in another order -/

namespace Model

/-- All samples of all paths of the walk. -/
def samples {α : Type} [Scalar α] (m : Model α) : List (Point α) := m.walk.flatMap fun w => w.path.samples

end Model

end KeyboardPlate
