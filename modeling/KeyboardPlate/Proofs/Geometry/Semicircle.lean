import KeyboardPlate.Proofs.Geometry.Ring

/-!
# Half circles

A half circle between opposite headings joins the ends of a diameter, and bulges a quarter turn round from its first
end.
-/

set_option autoImplicit false

namespace KeyboardPlate

namespace Arc

/-- The point half way along the arc. -/
noncomputable def middle (a : Arc ℝ) : Point ℝ := a.center.onCircle a.radius (a.startAngle + a.span / (2 : ℕ))

/-- The half circle from one heading to the opposite one. -/
noncomputable def semicircle (c : Point ℝ) (h : Heading) (r : ℝ) : Arc ℝ := ⟨c, r, h.degrees, h.back.degrees⟩

variable (c : Point ℝ) (h : Heading) (r : ℝ)

theorem semicircle_start : (semicircle c h r).start = c + h.step.scale r := h.onCircle_degrees c r

theorem semicircle_stop : (semicircle c h r).stop = c + h.back.step.scale r := h.back.onCircle_degrees c r

theorem semicircle_span : (semicircle c h r).span = 180 := h.sweep_back

/-- A half circle from either end of a diameter joins both. -/
theorem semicircle_joins {u : Point ℝ} (hu : h.step = u ∨ h.back.step = u) :
    (semicircle c h r).Joins (c + u.scale r) (c + u.scale (-r)) := by
  have hscale : ∀ v : Point ℝ, (v.scale (-1)).scale r = v.scale (-r) := by
    intro v
    simp [Point.scale_def]
  have hscale' : ∀ v : Point ℝ, (v.scale (-1)).scale (-r) = v.scale r := by
    intro v
    simp [Point.scale_def]
  unfold Joins
  rw [semicircle_start, semicircle_stop]
  obtain rfl | rfl := hu
  · refine Or.inl ⟨rfl, ?_⟩
    rw [Heading.step_back, hscale]
  · refine Or.inr ⟨?_, rfl⟩
    rw [Heading.step_back, hscale']

/-- A half circle bulges to the left of its first end. -/
theorem semicircle_middle : (semicircle c h r).middle = c + h.left.step.scale r := by
  have hquarter : h.degrees + (semicircle c h r).span / 2 = h.degrees + 90 := by
    rw [semicircle_span]
    norm_num
  unfold middle
  change c.onCircle r (h.degrees + (semicircle c h r).span / 2) = _
  rw [hquarter, Heading.onCircle_add_quarter]

variable {h} {h' : Heading} {σ τ : ℝ}

/-- A mirror that turns the plane over has the mirror image of a half circle start at the other end. -/
theorem semicircle_mirrors (hsame : σ * τ = 1 → h'.step = h.step.mirror σ τ)
    (hswapped : σ * τ = -1 → h'.step = h.back.step.mirror σ τ) :
    (semicircle c h r).Mirrors σ τ (semicircle (c.mirror σ τ) h' r) := by
  refine ⟨rfl, rfl, ?_, ?_, ?_⟩
  · rw [semicircle_span, semicircle_span]
  · intro hone
    have hback := Heading.back_mirror (hsame hone)
    rw [semicircle_start, semicircle_start, semicircle_stop, semicircle_stop, hback, hsame hone,
      Point.mirror_add_scale, Point.mirror_add_scale]
    exact ⟨rfl, rfl⟩
  · intro hone
    have hback := Heading.back_mirror (hswapped hone)
    rw [Heading.back_back] at hback
    rw [semicircle_start, semicircle_start, semicircle_stop, semicircle_stop, hback, hswapped hone,
      Point.mirror_add_scale, Point.mirror_add_scale]
    exact ⟨rfl, rfl⟩

end Arc

end KeyboardPlate
