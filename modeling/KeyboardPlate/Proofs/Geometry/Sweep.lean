import KeyboardPlate.Proofs.Geometry.Fillet

/-!
# Sweeps between angles

An angle is a whole number of turns away from one angle between 0 and 360. The counter-clockwise sweep from
an angle to another is nothing for equal angles, a full turn for different angles of one direction, and lies
in between for all others; it and the sweep back then make up a full turn. So one of the two arcs between two
directions spans at most half a turn, and that one is the arc of a fillet.
-/

set_option autoImplicit false

namespace KeyboardPlate

/-- The same angle, but for whole turns. -/
def SameAngle (a b : ℝ) : Prop := ∃ turns : ℤ, a = b + 360 * turns

namespace SameAngle
variable {a b c : ℝ}

theorem refl (a : ℝ) : SameAngle a a := ⟨0, by simp⟩

theorem symm (h : SameAngle a b) : SameAngle b a := by
  obtain ⟨turns, rfl⟩ := h
  refine ⟨-turns, ?_⟩
  push_cast
  ring

theorem trans (hab : SameAngle a b) (hbc : SameAngle b c) : SameAngle a c := by
  obtain ⟨turns, rfl⟩ := hab
  obtain ⟨more, rfl⟩ := hbc
  refine ⟨more + turns, ?_⟩
  push_cast
  ring

theorem add_right (h : SameAngle a b) (c : ℝ) : SameAngle (a + c) (b + c) := by
  obtain ⟨turns, rfl⟩ := h
  exact ⟨turns, by ring⟩

/-- Angles less than a turn apart have one direction only if they are equal. -/
theorem eq_of_abs_lt (h : SameAngle a b) (hnear : |a - b| < 360) : a = b := by
  obtain ⟨turns, rfl⟩ := h
  have hturns : |(turns : ℝ)| < 1 := by
    rw [add_sub_cancel_left, abs_mul, abs_of_pos (by norm_num : (0 : ℝ) < 360)] at hnear
    linarith
  have hzero : turns = 0 := Int.abs_lt_one_iff.mp (by exact_mod_cast hturns)
  rw [hzero, Int.cast_zero, mul_zero, add_zero]

end SameAngle

/-! ## Angles between zero and a turn -/

variable {a b : ℝ}

theorem remainder_turn (a : ℝ) :
    Quantity.remainder a (360.0 : ℝ) = a - 360 * ((if 0 ≤ a then ⌊a / 360⌋ else ⌈a / 360⌉ : ℤ) : ℝ) := by
  have hturn : (360.0 : ℝ) = 360 := by norm_num
  have hsign : 0 ≤ a / 360 ↔ 0 ≤ a := by rw [le_div_iff₀ (by norm_num), zero_mul]
  change a - 360.0 * ((if 0 ≤ a / 360.0 then ⌊a / 360.0⌋ else ⌈a / 360.0⌉ : ℤ) : ℝ) = _
  rw [hturn]
  simp only [hsign]

/-- The remainder of an angle has its sign, and a turn more makes a negative one positive. -/
theorem normalizeAngle_spec (a : ℝ) :
    (0 ≤ normalizeAngle a ∧ normalizeAngle a < 360) ∧ SameAngle (normalizeAngle a) a := by
  have hzero : (0.0 : ℝ) = 0 := by norm_num
  have hturn : (360.0 : ℝ) = 360 := by norm_num
  unfold normalizeAngle
  dsimp only
  rw [remainder_turn, hzero, hturn]
  by_cases ha : 0 ≤ a
  · have hlow := Int.floor_le (a / 360)
    have hhigh := Int.lt_floor_add_one (a / 360)
    rw [le_div_iff₀ (by norm_num)] at hlow
    rw [div_lt_iff₀ (by norm_num)] at hhigh
    rw [if_pos ha, if_neg (by linarith)]
    refine ⟨⟨by linarith, by linarith⟩, -⌊a / 360⌋, ?_⟩
    push_cast
    ring
  · have hlow := Int.ceil_lt_add_one (a / 360)
    have hhigh := Int.le_ceil (a / 360)
    rw [← sub_lt_iff_lt_add, lt_div_iff₀ (by norm_num)] at hlow
    rw [div_le_iff₀ (by norm_num)] at hhigh
    rw [if_neg ha]
    split
    · rename_i hneg
      refine ⟨⟨by linarith, by linarith⟩, 1 - ⌈a / 360⌉, ?_⟩
      push_cast
      ring
    · rename_i hnonneg
      refine ⟨⟨by linarith, by linarith⟩, -⌈a / 360⌉, ?_⟩
      push_cast
      ring

theorem normalizeAngle_nonneg (a : ℝ) : 0 ≤ normalizeAngle a := (normalizeAngle_spec a).1.1

theorem normalizeAngle_lt (a : ℝ) : normalizeAngle a < 360 := (normalizeAngle_spec a).1.2

theorem sameAngle_normalizeAngle (a : ℝ) : SameAngle (normalizeAngle a) a := (normalizeAngle_spec a).2

theorem SameAngle.normalizeAngle_eq (h : SameAngle a b) (hlow : 0 ≤ b) (hhigh : b < 360) : normalizeAngle a = b := by
  have hlow' := normalizeAngle_nonneg a
  have hhigh' := normalizeAngle_lt a
  exact ((sameAngle_normalizeAngle a).trans h).eq_of_abs_lt (abs_lt.mpr ⟨by linarith, by linarith⟩)

theorem normalizeAngle_eq_iff : normalizeAngle a = normalizeAngle b ↔ SameAngle a b := by
  constructor
  · intro h
    have hb := sameAngle_normalizeAngle b
    rw [← h] at hb
    exact (sameAngle_normalizeAngle a).symm.trans hb
  · intro h
    exact (h.trans (sameAngle_normalizeAngle b).symm).normalizeAngle_eq (normalizeAngle_nonneg b)
      (normalizeAngle_lt b)

theorem normalizeAngle_of_nonneg (hlow : 0 ≤ a) (hhigh : a < 360) : normalizeAngle a = a :=
  (SameAngle.refl a).normalizeAngle_eq hlow hhigh

theorem normalizeAngle_of_neg (hlow : -360 < a) (hhigh : a < 0) : normalizeAngle a = a + 360 :=
  SameAngle.normalizeAngle_eq ⟨-1, by norm_num⟩ (by linarith) (by linarith)

theorem normalizeAngle_turn : normalizeAngle (360 : ℝ) = 0 :=
  SameAngle.normalizeAngle_eq ⟨1, by norm_num⟩ le_rfl (by norm_num)

/-! ## Sweeps -/

theorem sweep_self (a : ℝ) : sweep a a = 0 := by
  unfold sweep
  simp
  norm_num

theorem sweep_of_sameAngle (hne : a ≠ b) (h : SameAngle a b) : sweep a b = 360 := by
  unfold sweep
  rw [normalizeAngle_eq_iff.mpr h]
  simp [hne]
  norm_num

theorem sweep_of_not_sameAngle (h : ¬ SameAngle a b) : sweep a b =
    if normalizeAngle a < normalizeAngle b then normalizeAngle b - normalizeAngle a
    else 360 - (normalizeAngle a - normalizeAngle b) := by
  have hturn : (360.0 : ℝ) = 360 := by norm_num
  have hne : normalizeAngle a ≠ normalizeAngle b := mt normalizeAngle_eq_iff.mp h
  unfold sweep
  rw [hturn]
  dsimp only
  split
  · rfl
  · rename_i hlt
    exact if_pos (lt_of_le_of_ne (not_lt.mp hlt) hne.symm)

theorem sweep_bounds (h : ¬ SameAngle a b) : 0 < sweep a b ∧ sweep a b < 360 := by
  have hne : normalizeAngle a ≠ normalizeAngle b := mt normalizeAngle_eq_iff.mp h
  obtain ⟨⟨ha, ha'⟩, -⟩ := normalizeAngle_spec a
  obtain ⟨⟨hb, hb'⟩, -⟩ := normalizeAngle_spec b
  rw [sweep_of_not_sameAngle h]
  split
  · exact ⟨by linarith, by linarith⟩
  · rename_i hlt
    have hlt' := lt_of_le_of_ne (not_lt.mp hlt) hne.symm
    exact ⟨by linarith, by linarith⟩

theorem sweep_nonneg (a b : ℝ) : 0 ≤ sweep a b := by
  by_cases h : SameAngle a b
  · by_cases heq : a = b
    · rw [heq, sweep_self]
    · rw [sweep_of_sameAngle heq h]
      norm_num
  · exact (sweep_bounds h).1.le

theorem sweep_le (a b : ℝ) : sweep a b ≤ 360 := by
  by_cases h : SameAngle a b
  · by_cases heq : a = b
    · rw [heq, sweep_self]
      norm_num
    · rw [sweep_of_sameAngle heq h]
  · exact (sweep_bounds h).2.le

theorem sweep_eq_zero_iff : sweep a b = 0 ↔ a = b := by
  constructor
  · intro hzero
    by_contra hne
    by_cases h : SameAngle a b
    · rw [sweep_of_sameAngle hne h] at hzero
      norm_num at hzero
    · exact (sweep_bounds h).1.ne' hzero
  · rintro rfl
    exact sweep_self a

theorem sweep_eq_turn_iff : sweep a b = 360 ↔ a ≠ b ∧ SameAngle a b := by
  constructor
  · intro hturn
    refine ⟨?_, ?_⟩
    · rintro rfl
      rw [sweep_self] at hturn
      norm_num at hturn
    · by_contra h
      exact (sweep_bounds h).2.ne hturn
  · rintro ⟨hne, h⟩
    exact sweep_of_sameAngle hne h

/-- The sweep leads to where it is said to lead. -/
theorem sameAngle_add_sweep (a b : ℝ) : SameAngle (a + sweep a b) b := by
  by_cases h : SameAngle a b
  · by_cases heq : a = b
    · rw [heq, sweep_self, add_zero]
      exact .refl b
    · rw [sweep_of_sameAngle heq h]
      exact SameAngle.trans ⟨1, by norm_num⟩ h
  · obtain ⟨i, hi⟩ := sameAngle_normalizeAngle a
    obtain ⟨k, hk⟩ := sameAngle_normalizeAngle b
    rw [sweep_of_not_sameAngle h]
    split
    · refine ⟨k - i, ?_⟩
      push_cast
      linarith
    · refine ⟨1 + k - i, ?_⟩
      push_cast
      linarith

/-- The sweep to another direction and the sweep back make up a full turn. -/
theorem sweep_add_sweep (h : ¬ SameAngle a b) : sweep a b + sweep b a = 360 := by
  have hne : normalizeAngle a ≠ normalizeAngle b := mt normalizeAngle_eq_iff.mp h
  rw [sweep_of_not_sameAngle h, sweep_of_not_sameAngle (fun hba => h hba.symm)]
  rcases lt_or_gt_of_ne hne with hlt | hlt
  · rw [if_pos hlt, if_neg (not_lt.mpr hlt.le)]
    ring
  · rw [if_neg (not_lt.mpr hlt.le), if_pos hlt]
    ring

theorem sweep_of_lt {s e : ℝ} (hs : 0 ≤ s) (he : e < 360) (h : s < e) : sweep s e = e - s := by
  unfold sweep
  rw [normalizeAngle_of_nonneg hs (h.trans he), normalizeAngle_of_nonneg (hs.trans h.le) he]
  exact if_pos h

theorem sweep_of_gt {s e : ℝ} (he : 0 ≤ e) (hs : s < 360) (h : e < s) : sweep s e = 360 - (s - e) := by
  have hturn : (360.0 : ℝ) = 360 := by norm_num
  unfold sweep
  rw [normalizeAngle_of_nonneg (he.trans h.le) hs, normalizeAngle_of_nonneg he (h.trans hs), hturn]
  dsimp only
  rw [if_neg (not_lt.mpr h.le)]
  exact if_pos h

/-! ## The arc of a fillet -/

theorem Point.direction_bounds (c p : Point ℝ) : 0 ≤ c.direction p ∧ c.direction p < 360 := by
  unfold direction
  dsimp only
  split
  · exact (normalizeAngle_spec _).1
  · exact (normalizeAngle_spec _).1

namespace Line

/-- Of the two arcs between two directions the shorter one is drawn. -/
theorem span_shorterArc (c : Point ℝ) (r : ℝ) (p q : Point ℝ) :
    (shorterArc c r p q).span ≤ 180 ∧
      (shorterArc c r p q).span ≤ sweep (shorterArc c r p q).endAngle (shorterArc c r p q).startAngle := by
  have hhalf : (180.0 : ℝ) = 180 := by norm_num
  obtain ⟨hp, hp'⟩ := c.direction_bounds p
  obtain ⟨hq, hq'⟩ := c.direction_bounds q
  have hsum : c.direction p = c.direction q ∨
      sweep (c.direction p) (c.direction q) + sweep (c.direction q) (c.direction p) = 360 := by
    by_cases h : SameAngle (c.direction p) (c.direction q)
    · exact .inl (h.eq_of_abs_lt (abs_lt.mpr ⟨by linarith, by linarith⟩))
    · exact .inr (sweep_add_sweep h)
  unfold shorterArc Arc.span
  dsimp only
  rw [hhalf]
  rcases hsum with heq | hsum
  · rw [heq, sweep_self, if_pos (by norm_num), sweep_self]
    norm_num
  · split
    · rename_i hle
      exact ⟨hle, by linarith⟩
    · rename_i hle
      rw [not_le] at hle
      exact ⟨by linarith, by linarith⟩

end Line

/-- Where angles lead when they are brought between zero and a turn, how far it is from one to another, and that
a fillet goes the shorter way round. -/
theorem sweep_turns :
    (∀ a : ℝ, (0 ≤ normalizeAngle a ∧ normalizeAngle a < 360) ∧ SameAngle (normalizeAngle a) a) ∧
    (∀ a b : ℝ, (0 ≤ sweep a b ∧ sweep a b ≤ 360) ∧ SameAngle (normalizeAngle a + sweep a b) b ∧
      (sweep a b = 0 ↔ a = b) ∧ (sweep a b = 360 ↔ a ≠ b ∧ SameAngle a b) ∧
      (¬ SameAngle a b → sweep a b + sweep b a = 360)) ∧
    ∀ (p q : Path ℝ) (r : ℝ) (l m : Line ℝ) (arc : Arc ℝ), p.fillet q r = .ok (l, m, arc) →
      arc.span ≤ 180 ∧ arc.span ≤ sweep arc.endAngle arc.startAngle := by
  refine ⟨normalizeAngle_spec, ?_, ?_⟩
  · intro a b
    have hleads : SameAngle (normalizeAngle a + sweep a b) b :=
      ((sameAngle_normalizeAngle a).add_right _).trans (sameAngle_add_sweep a b)
    exact ⟨⟨sweep_nonneg a b, sweep_le a b⟩, hleads, sweep_eq_zero_iff, sweep_eq_turn_iff, sweep_add_sweep⟩
  · intro p q r l m arc hfillet
    obtain ⟨a, b, -, -, hlines⟩ := Path.lines_of_fillet hfillet
    obtain ⟨-, -, s, t, c, -, -, -, -, rfl⟩ := Line.exists_of_fillet hlines
    exact Line.span_shorterArc c r s t

/-- Two perpendicular lines of length ten that run along no axis. -/
theorem slanted_sweep_turns : ∃ (l m : Line ℝ) (arc : Arc ℝ),
    (Path.between ⟨6, 8⟩ ⟨0, 0⟩).fillet (.between ⟨0, 0⟩ ⟨-8, 6⟩) 2 = .ok (l, m, arc) ∧
    arc.span ≤ 180 ∧ arc.span ≤ sweep arc.endAngle arc.startAngle ∧
    ¬ SameAngle (-10) 10 ∧ sweep (-10 : ℝ) 10 + sweep (10 : ℝ) (-10) = 360 := by
  have hsquare : Line.Square ⟨⟨6, 8⟩, ⟨0, 0⟩⟩ ⟨⟨0, 0⟩, ⟨-8, 6⟩⟩ .stop .start ⟨0, 0⟩ ⟨3 / 5, 4 / 5⟩ ⟨-4 / 5, 3 / 5⟩ 10 10 := by
    refine ⟨rfl, rfl, ?_, ?_, ?_, ?_, ?_, ?_, ?_⟩
    all_goals simp only [Line.far, Point.add_def, Point.scale_def, Point.dot_def, jointTolerance_eq, Point.mk.injEq]
    all_goals norm_num
  have hfillet := hsquare.fillet 2
  rw [if_neg (by rw [jointTolerance_eq]; norm_num)] at hfillet
  have hpath : (Path.between (α := ℝ) ⟨6, 8⟩ ⟨0, 0⟩).fillet (.between ⟨0, 0⟩ ⟨-8, 6⟩) 2 = _ :=
    (if_neg (by norm_num)).trans hfillet
  obtain ⟨-, hsweeps, hspan⟩ := sweep_turns
  have hother : ¬ SameAngle (-10) 10 := by
    intro h
    have heq := h.eq_of_abs_lt (by norm_num)
    norm_num at heq
  obtain ⟨hshort, hshorter⟩ := hspan _ _ _ _ _ _ hpath
  exact ⟨_, _, _, hpath, hshort, hshorter, hother, (hsweeps (-10) 10).2.2.2.2 hother⟩

end KeyboardPlate
