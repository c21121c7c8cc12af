import KeyboardPlate.Proofs.Geometry.Exact

/-!
# Fillets

A fillet that succeeds moves the ends of two lines that meet, and its arc is the shorter one between the points
where it leaves them. Where two lines meet at a right angle, a fillet cuts both back by its radius, and its
arc stands at that distance from both. So a rectangle gets rounded corners if twice the radius fits both of its
sides.
-/

set_option autoImplicit false

namespace KeyboardPlate

/-! ## What a fillet does where it succeeds -/

section Scalar
variable {α : Type} [Scalar α] {r : α} {arc : Arc α}

/-- A fillet that succeeds has found ends that meet, on lines that are not too short, and has moved only these. -/
theorem Line.exists_of_fillet {a b a' b' : Line α} (h : a.fillet b r = .ok (a', b', arc)) :
    ∃ e f p q c, a.joint? b = some (e, f) ∧
      ¬ ((a.point e).distance (a.far e) < jointTolerance ∨ (a.point e).distance (b.far f) < jointTolerance) ∧
      a' = a.withEnd p e ∧ b' = b.withEnd q f ∧ arc = shorterArc c r p q := by
  unfold fillet at h
  split at h
  · cases h
  · rename_i e f hjoint
    dsimp only at h
    split at h
    · cases h
    · rename_i hlong
      split at h
      · cases h
      · split at h
        · cases h
        · cases h
          exact ⟨e, f, _, _, _, hjoint, hlong, rfl, rfl, rfl⟩

/-- Only lines have a fillet. -/
theorem Path.lines_of_fillet {a b : Path α} {l k : Line α} (h : a.fillet b r = .ok (l, k, arc)) :
    ∃ a' b', a = .line a' ∧ b = .line b' ∧ a'.fillet b' r = .ok (l, k, arc) := by
  unfold fillet at h
  split at h
  · cases h
  · split at h
    · exact ⟨_, _, rfl, rfl, h⟩
    · cases h

end Scalar

/-! ## Perpendicular lines -/

namespace Line

variable {a b : Line ℝ} {e f : End} {c u v : Point ℝ} {r lengthA lengthB : ℝ}

theorem jointTolerance_pos : (0 : ℝ) < jointTolerance := by
  rw [jointTolerance_eq]
  norm_num

/-- The ends that meet are found if all others are further apart. -/
theorem joint?_eq_some (hjoint : a.point e = b.point f)
    (hfar : ∀ e' f', (e', f') ≠ (e, f) → jointTolerance ≤ (a.point e').distance (b.point f')) :
    a.joint? b = some (e, f) := by
  have hnear : (a.point e).distance (b.point f) < jointTolerance := by
    rw [hjoint, Point.distance_self]
    exact jointTolerance_pos
  have hnot : ∀ e' f', (e', f') ≠ (e, f) → ¬ (a.point e').distance (b.point f') < jointTolerance :=
    fun e' f' hne => not_lt.mpr (hfar e' f' hne)
  unfold joint?
  cases e with
  | start =>
    cases f with
    | start => simp [hnear]
    | stop => simp [hnear, hnot .start .start (by simp)]
  | stop =>
    cases f with
    | start => simp [hnear, hnot .start .start (by simp), hnot .start .stop (by simp)]
    | stop =>
      simp [hnear, hnot .start .start (by simp), hnot .start .stop (by simp),
        hnot .stop .start (by simp)]

theorem point_of_ne {e' : End} (h : e' ≠ e) : a.point e' = a.far e := by
  cases e with
  | start =>
    cases e' with
    | start => exact absurd rfl h
    | stop => rfl
  | stop =>
    cases e' with
    | start => rfl
    | stop => exact absurd rfl h

/-- Two lines that leave a corner at a right angle. -/
structure Square (a b : Line ℝ) (e f : End) (c u v : Point ℝ) (lengthA lengthB : ℝ) : Prop where
  cornerA : a.point e = c
  cornerB : b.point f = c
  farA : a.far e = c + u.scale lengthA
  farB : b.far f = c + v.scale lengthB
  unitA : u.dot u = 1
  unitB : v.dot v = 1
  square : u.dot v = 0
  longA : jointTolerance ≤ lengthA
  longB : jointTolerance ≤ lengthB

namespace Square

theorem joint? (h : Square a b e f c u v lengthA lengthB) : a.joint? b = some (e, f) := by
  obtain ⟨hA, hB, hfarA, hfarB, hu, hv, huv, hlongA, hlongB⟩ := h
  have hposA := jointTolerance_pos.trans_le hlongA
  have hposB := jointTolerance_pos.trans_le hlongB
  apply joint?_eq_some (hA.trans hB.symm)
  intro e' f' hne
  by_cases he : e' = e
  · have hf : f' ≠ f := fun hf => hne (by rw [he, hf])
    rw [he, hA, point_of_ne hf, hfarB, Point.distance_add_scale hv hposB.le]
    exact hlongB
  · rw [point_of_ne he, hfarA]
    by_cases hf : f' = f
    · rw [hf, hB, Point.distance_symm, Point.distance_add_scale hu hposA.le]
      exact hlongA
    · rw [point_of_ne hf, hfarB]
      exact hlongA.trans (Point.le_distance_of_perpendicular hu huv)

end Square

/-- The arc of a perpendicular fillet stands at its radius from both lines. -/
theorem tangency_of_perpendicular (huv : u.dot v = 0) (c : Point ℝ) (r : ℝ) :
    tangency c u v r = (r, c + (u + v).scale r) := by
  unfold tangency
  have hdot : Quantity.abs (u.dot v) < (1e-12 : ℝ) := by
    rw [huv, Quantity.abs_eq, abs_zero]
    norm_num
  exact if_pos hdot

/-- A fillet of perpendicular lines fits if its radius overruns none of them by more than the tolerance. -/
theorem Square.fillet (h : Square a b e f c u v lengthA lengthB) (r : ℝ) : a.fillet b r =
    if lengthA + jointTolerance < r ∨ lengthB + jointTolerance < r then .error (.filletDoesNotFit r)
    else .ok (a.withEnd (c + u.scale r) e, b.withEnd (c + v.scale r) f,
      shorterArc (c + (u + v).scale r) r (c + u.scale r) (c + v.scale r)) := by
  have hjoint := h.joint?
  obtain ⟨hA, -, hfarA, hfarB, hu, hv, huv, hlongA, hlongB⟩ := h
  have hposA := jointTolerance_pos.trans_le hlongA
  have hposB := jointTolerance_pos.trans_le hlongB
  have hone : (1.0 : ℝ) = 1 := by norm_num
  have hunitA : (c + u.scale lengthA - c).scale (1.0 / lengthA) = u := by
    rw [hone]
    exact Point.sub_scale_inv hposA.ne'
  have hunitB : (c + v.scale lengthB - c).scale (1.0 / lengthB) = v := by
    rw [hone]
    exact Point.sub_scale_inv hposB.ne'
  have hcross : ¬ Quantity.abs (u.cross v) < (1e-12 : ℝ) := by
    have habs : |u.cross v| = 1 := by
      rw [← Real.sqrt_sq_eq_abs, Point.cross_sq hu hv huv, Real.sqrt_one]
    rw [Quantity.abs_eq, habs]
    norm_num
  unfold Line.fillet
  rw [hjoint]
  dsimp only
  rw [hA, hfarA, hfarB, Point.distance_add_scale hu hposA.le, Point.distance_add_scale hv hposB.le,
    if_neg (by simp [hlongA, hlongB])]
  change (if Quantity.abs (Point.cross ((c + u.scale lengthA - c).scale (1.0 / lengthA))
    ((c + v.scale lengthB - c).scale (1.0 / lengthB))) < (1e-12 : ℝ) then _ else _) = _
  rw [hunitA, hunitB, if_neg hcross, tangency_of_perpendicular huv]
  rfl

end Line

end KeyboardPlate
