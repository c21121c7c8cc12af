import KeyboardPlate.Proofs.Geometry.Corner

/-!
# Rings of lines and arcs

A fillet between the end of one line and the start of another changes nothing but these two ends. So a run of such
fillets leaves a quarter circle between each pair, however long the lines are, and the same run on mirrored lines
leaves the mirror image.
-/

set_option autoImplicit false

namespace KeyboardPlate

/-- Each line stops where the arc after it has one end, and that arc has its other end where the next line starts;
the last arc leads back to the first line. -/
def IsRing (ring : List (Line ℝ × Arc ℝ)) : Prop :=
  ∀ pair ∈ ring.zip (ring.rotate 1), pair.1.2.Joins pair.1.1.stop pair.2.1.start

/-- A quarter of the circle about `center`. -/
structure Arc.IsQuarter (a : Arc ℝ) (center : Point ℝ) (r : ℝ) : Prop where
  center : a.center = center
  radius : a.radius = r
  span : a.span = 90

def Line.reverse (l : Line ℝ) : Line ℝ := ⟨l.stop, l.start⟩

/-! ## Mirror images -/

/-- The point with the signs of its coordinates changed. -/
def Point.mirror (σ τ : ℝ) (p : Point ℝ) : Point ℝ := ⟨σ * p.x, τ * p.y⟩

def Line.mirror (σ τ : ℝ) (l : Line ℝ) : Line ℝ := ⟨l.start.mirror σ τ, l.stop.mirror σ τ⟩

/-- One arc is the mirror image of another; a mirror that turns the plane over exchanges its ends. -/
structure Arc.Mirrors (σ τ : ℝ) (a b : Arc ℝ) : Prop where
  center : b.center = a.center.mirror σ τ
  radius : b.radius = a.radius
  span : b.span = a.span
  same : σ * τ = 1 → b.start = a.start.mirror σ τ ∧ b.stop = a.stop.mirror σ τ
  swapped : σ * τ = -1 → b.start = a.stop.mirror σ τ ∧ b.stop = a.start.mirror σ τ

section
variable {σ τ r lengthA lengthB : ℝ} {c u v : Point ℝ} {h k h' k' : Heading} {a b a' b' : Line ℝ} {e f : End}
  {arc : Arc ℝ}

theorem Point.mirror_add_scale : (c + u.scale r).mirror σ τ = c.mirror σ τ + (u.mirror σ τ).scale r := by
  simp only [mirror, add_def, scale_def]
  congr 1
  · ring
  · ring

theorem Point.mirror_add : (u + v).mirror σ τ = u.mirror σ τ + v.mirror σ τ := by
  simp only [mirror, add_def]
  congr 1
  · ring
  · ring

/-- A step along an axis, in the direction that the mirror gives it. -/
theorem Point.mirror_add_level {p q : ℝ} : mirror σ τ ⟨p, q⟩ + scale r ⟨σ, 0⟩ = mirror σ τ ⟨p + r, q⟩ := by
  simp only [mirror, add_def, scale_def]
  congr 1
  · ring
  · ring

theorem Point.mirror_add_upright {p q : ℝ} : mirror σ τ ⟨p, q⟩ + scale r ⟨0, τ⟩ = mirror σ τ ⟨p, q + r⟩ := by
  simp only [mirror, add_def, scale_def]
  congr 1
  · ring
  · ring

theorem Point.dot_mirror (hσ : σ * σ = 1) (hτ : τ * τ = 1) : (u.mirror σ τ).dot (v.mirror σ τ) = u.dot v := by
  simp only [mirror, dot_def]
  linear_combination u.x * v.x * hσ + u.y * v.y * hτ

theorem Point.cross_mirror : (u.mirror σ τ).cross (v.mirror σ τ) = σ * τ * u.cross v := by
  simp only [mirror, cross_def]
  ring

theorem Heading.exists_mirror (hσ : σ * σ = 1) (hτ : τ * τ = 1) (h : Heading) :
    ∃ k : Heading, k.step = h.step.mirror σ τ := by
  have hx := mul_self_eq_one_iff.mp hσ
  have hy := mul_self_eq_one_iff.mp hτ
  cases h with
  | east =>
    obtain rfl | rfl := hx
    · exact ⟨.east, by simp [step, Point.mirror]⟩
    · exact ⟨.west, by simp [step, Point.mirror]⟩
  | north =>
    obtain rfl | rfl := hy
    · exact ⟨.north, by simp [step, Point.mirror]⟩
    · exact ⟨.south, by simp [step, Point.mirror]⟩
  | west =>
    obtain rfl | rfl := hx
    · exact ⟨.west, by simp [step, Point.mirror]⟩
    · exact ⟨.east, by simp [step, Point.mirror]⟩
  | south =>
    obtain rfl | rfl := hy
    · exact ⟨.south, by simp [step, Point.mirror]⟩
    · exact ⟨.north, by simp [step, Point.mirror]⟩

theorem Heading.back_mirror (hh : h'.step = h.step.mirror σ τ) : h'.back.step = h.back.step.mirror σ τ := by
  rw [step_back, step_back, hh]
  simp [Point.mirror, Point.scale_def]

theorem Line.point_mirror : (a.mirror σ τ).point e = (a.point e).mirror σ τ := by
  cases e <;> rfl

theorem Line.far_mirror : (a.mirror σ τ).far e = (a.far e).mirror σ τ := by
  cases e <;> rfl

theorem Line.withEnd_mirror (p : Point ℝ) : (a.mirror σ τ).withEnd (p.mirror σ τ) e = (a.withEnd p e).mirror σ τ := by
  cases e <;> rfl

theorem Point.mirror_one : c.mirror 1 1 = c := by
  simp [mirror]

theorem Line.mirror_one : a.mirror 1 1 = a := by
  simp [mirror, Point.mirror]

theorem Line.Along.mirror {x : Axis} (ha : a.Along x) : (a.mirror σ τ).Along x := by
  cases x with
  | level => exact congrArg (τ * ·) ha
  | upright => exact congrArg (σ * ·) ha

theorem Line.Corner.mirror (hσ : σ * σ = 1) (hτ : τ * τ = 1) (hh : h'.step = h.step.mirror σ τ)
    (hk : k'.step = k.step.mirror σ τ) (hc : Corner a b e f c h k lengthA lengthB) :
    Corner (a.mirror σ τ) (b.mirror σ τ) e f (c.mirror σ τ) h' k' lengthA lengthB where
  cornerA := by rw [point_mirror, hc.cornerA]
  cornerB := by rw [point_mirror, hc.cornerB]
  farA := by rw [far_mirror, hc.farA, Point.mirror_add_scale, hh]
  farB := by rw [far_mirror, hc.farB, Point.mirror_add_scale, hk]
  square := by rw [hh, hk, Point.dot_mirror hσ hτ, hc.square]
  nonnegA := hc.nonnegA
  nonnegB := hc.nonnegB

theorem Arc.quarter_mirrors (hσ : σ * σ = 1) (hτ : τ * τ = 1) (hh : h'.step = h.step.mirror σ τ)
    (hk : k'.step = k.step.mirror σ τ) (hr : 0 < r) (hsquare : h.step.dot k.step = 0) :
    (quarter c h k r).Mirrors σ τ (quarter (c.mirror σ τ) h' k' r) := by
  have hsquare' : h'.step.dot k'.step = 0 := by rw [hh, hk, Point.dot_mirror hσ hτ, hsquare]
  have hcross : h'.step.cross k'.step = σ * τ * h.step.cross k.step := by rw [hh, hk, Point.cross_mirror]
  have hpointH : c.mirror σ τ + h'.step.scale r = (c + h.step.scale r).mirror σ τ := by
    rw [hh, Point.mirror_add_scale]
  have hpointK : c.mirror σ τ + k'.step.scale r = (c + k.step.scale r).mirror σ τ := by
    rw [hk, Point.mirror_add_scale]
  have hends := quarter_ends c hr hsquare
  have hends' := quarter_ends (c.mirror σ τ) hr hsquare'
  rw [hcross, hpointH, hpointK] at hends'
  refine ⟨?_, ?_, ?_, ?_, ?_⟩
  · rw [quarter_center, quarter_center, hh, hk, Point.mirror_add_scale, Point.mirror_add]
  · rw [quarter_radius, quarter_radius]
  · rw [quarter_span _ hr hsquare, quarter_span _ hr hsquare']
  · intro hsame
    rw [hsame, one_mul] at hends'
    obtain ⟨hleft, hstart, hstop⟩ | ⟨hright, hstart, hstop⟩ := hends
    · obtain ⟨-, hstart', hstop'⟩ | ⟨hright, -⟩ := hends'
      · rw [hstart', hstop', hstart, hstop]
        exact ⟨rfl, rfl⟩
      · linarith
    · obtain ⟨hleft, -⟩ | ⟨-, hstart', hstop'⟩ := hends'
      · linarith
      · rw [hstart', hstop', hstart, hstop]
        exact ⟨rfl, rfl⟩
  · intro hswapped
    rw [hswapped] at hends'
    obtain ⟨hleft, hstart, hstop⟩ | ⟨hright, hstart, hstop⟩ := hends
    · obtain ⟨hleft', -⟩ | ⟨-, hstart', hstop'⟩ := hends'
      · linarith
      · rw [hstart', hstop', hstart, hstop]
        exact ⟨rfl, rfl⟩
    · obtain ⟨-, hstart', hstop'⟩ | ⟨hright', -⟩ := hends'
      · rw [hstart', hstop', hstart, hstop]
        exact ⟨rfl, rfl⟩
      · linarith

/-- The mirror image of a fillet is a fillet of the mirror images. -/
theorem Line.Corner.fillet_mirror (hσ : σ * σ = 1) (hτ : τ * τ = 1) (hr : 0 < r)
    (hc : Corner a b e f c h k lengthA lengthB) (hfillet : a.fillet b r = .ok (a', b', arc)) :
    ∃ arc', (a.mirror σ τ).fillet (b.mirror σ τ) r = .ok (a'.mirror σ τ, b'.mirror σ τ, arc') ∧
      arc.Mirrors σ τ arc' := by
  obtain ⟨h', hh⟩ := Heading.exists_mirror hσ hτ h
  obtain ⟨k', hk⟩ := Heading.exists_mirror hσ hτ k
  obtain ⟨hlong, hfit, rfl, rfl, rfl⟩ := hc.fillet_eq_ok_iff.mp hfillet
  refine ⟨_, ((hc.mirror hσ hτ hh hk).fillet_eq_ok_iff).mpr ⟨hlong, hfit, ?_, ?_, rfl⟩, ?_⟩
  · rw [hh, ← Point.mirror_add_scale, withEnd_mirror]
  · rw [hk, ← Point.mirror_add_scale, withEnd_mirror]
  · exact Arc.quarter_mirrors hσ hτ hh hk hr hc.square

end

/-! ## Runs of fillets -/

section
variable {n : ℕ}

/-- The lines once one has been cut back at its end and another at its start. -/
def cut (L : Fin n → Line ℝ) (a b : Fin n) (A B : Line ℝ) : Fin n → Line ℝ :=
  Function.update (Function.update L a A) b B

/-- Fillets of pairs of lines, one after the other, each on what those before it have left. -/
inductive Filleted (r : ℝ) : List (Fin n × Fin n) → (Fin n → Line ℝ) → (Fin n → Line ℝ) → List (Arc ℝ) → Prop
  | nil (L : Fin n → Line ℝ) : Filleted r [] L L []
  | cons {a b : Fin n} {joints : List (Fin n × Fin n)} {L L' : Fin n → Line ℝ} {A B : Line ℝ} {arc : Arc ℝ}
      {arcs : List (Arc ℝ)} : (L a).fillet (L b) r = .ok (A, B, arc) → Filleted r joints (cut L a b A B) L' arcs →
      Filleted r ((a, b) :: joints) L L' (arc :: arcs)

/-- Lines along given axes, and joints at which one of them stops where another one starts. -/
structure Jointed (axis : Fin n → Axis) (joints : List (Fin n × Fin n)) (L : Fin n → Line ℝ) : Prop where
  along : ∀ i, (L i).Along (axis i)
  turns : ∀ j ∈ joints, axis j.1 ≠ axis j.2
  meets : ∀ j ∈ joints, (L j.1).stop = (L j.2).start
  stopOnce : (joints.map Prod.fst).Nodup
  startOnce : (joints.map Prod.snd).Nodup

/-- How often a line is still to be cut. -/
def cutsAt (joints : List (Fin n × Fin n)) (i : Fin n) : ℕ :=
  (joints.map Prod.fst).count i + (joints.map Prod.snd).count i

variable {r : ℝ} {axis : Fin n → Axis} {joints : List (Fin n × Fin n)} {L L' M M' : Fin n → Line ℝ}
  {a b i : Fin n} {A B : Line ℝ} {arc : Arc ℝ} {arcs arcs' : List (Arc ℝ)}

/-- What one fillet of a run does. -/
structure CutStep (r : ℝ) (L : Fin n → Line ℝ) (a b : Fin n) (A B : Line ℝ) (arc : Arc ℝ) : Prop where
  ne : a ≠ b
  start : A.start = (L a).start
  stop : B.stop = (L b).stop
  joins : arc.Joins A.stop B.start
  radius : arc.radius = r
  span : arc.span = 90

namespace CutStep

theorem stop_cut (h : CutStep r L a b A B arc) (hi : i ≠ a) : (cut L a b A B i).stop = (L i).stop := by
  unfold cut
  by_cases hb : i = b
  · rw [hb, Function.update_self, h.stop]
  · rw [Function.update_of_ne hb, Function.update_of_ne hi]

theorem start_cut (h : CutStep r L a b A B arc) (hi : i ≠ b) : (cut L a b A B i).start = (L i).start := by
  unfold cut
  rw [Function.update_of_ne hi]
  by_cases ha : i = a
  · rw [ha, Function.update_self, h.start]
  · rw [Function.update_of_ne ha]

theorem cut_first (h : CutStep r L a b A B arc) : cut L a b A B a = A := by
  unfold cut
  rw [Function.update_of_ne h.ne, Function.update_self]

theorem cut_second : cut L a b A B b = B := Function.update_self ..

end CutStep

namespace Jointed

theorem corner (h : Jointed axis ((a, b) :: joints) L) : Line.Corner (L a) (L b) .stop .start (L a).stop
    ((L a).leaving (axis a) .stop) ((L b).leaving (axis b) .start) ((L a).length .stop) ((L b).length .start) :=
  Line.corner_of_along (h.turns _ (.head _)) (h.along a) (h.along b) (h.meets _ (.head _))

theorem along_cut (h : Jointed axis ((a, b) :: joints) L) (hfillet : (L a).fillet (L b) r = .ok (A, B, arc))
    (i : Fin n) : (cut L a b A B i).Along (axis i) := by
  obtain ⟨-, -, rfl, rfl, -⟩ := h.corner.fillet_eq_ok_iff.mp hfillet
  unfold cut
  by_cases hb : i = b
  · rw [hb, Function.update_self]
    refine (h.along b).withEnd ?_
    rw [h.meets _ (.head _)]
    exact Axis.aligned_add_heading r
  · rw [Function.update_of_ne hb]
    by_cases ha : i = a
    · rw [ha, Function.update_self]
      exact (h.along a).withEnd (Axis.aligned_add_heading r)
    · rw [Function.update_of_ne ha]
      exact h.along i

theorem mirror {σ τ : ℝ} (h : Jointed axis joints L) : Jointed axis joints fun i => (L i).mirror σ τ where
  along i := (h.along i).mirror
  turns := h.turns
  meets j hj := congrArg (Point.mirror σ τ) (h.meets j hj)
  stopOnce := h.stopOnce
  startOnce := h.startOnce

/-- A fillet joins the two lines it cuts. -/
theorem step (h : Jointed axis ((a, b) :: joints) L) (hr : 0 < r)
    (hfillet : (L a).fillet (L b) r = .ok (A, B, arc)) : CutStep r L a b A B arc := by
  have hcorner := h.corner
  obtain ⟨-, -, rfl, rfl, rfl⟩ := hcorner.fillet_eq_ok_iff.mp hfillet
  refine ⟨?_, rfl, rfl, Arc.quarter_joins _ hr hcorner.square, Arc.quarter_radius ..,
    Arc.quarter_span _ hr hcorner.square⟩
  rintro rfl
  exact h.turns _ (.head _) rfl

/-- The joints still to be rounded are where they were. -/
theorem cut (h : Jointed axis ((a, b) :: joints) L) (hr : 0 < r)
    (hfillet : (L a).fillet (L b) r = .ok (A, B, arc)) : Jointed axis joints (cut L a b A B) := by
  have hstep := h.step hr hfillet
  have hfirst := List.nodup_cons.mp h.stopOnce
  have hsecond := List.nodup_cons.mp h.startOnce
  refine ⟨h.along_cut hfillet, fun j hj => h.turns j (.tail _ hj), ?_, hfirst.2, hsecond.2⟩
  intro j hj
  have ha : j.1 ≠ a := fun heq => hfirst.1 (List.mem_map.mpr ⟨j, hj, heq⟩)
  have hb : j.2 ≠ b := fun heq => hsecond.1 (List.mem_map.mpr ⟨j, hj, heq⟩)
  rw [hstep.stop_cut ha, hstep.start_cut hb]
  exact h.meets j (.tail _ hj)

end Jointed

/-! ### Runs that succeed -/

theorem cutsAt_first (hab : a ≠ b) : cutsAt ((a, b) :: joints) a = cutsAt joints a + 1 := by
  unfold cutsAt
  rw [List.map_cons, List.map_cons, List.count_cons_self, List.count_cons_of_ne hab.symm, Nat.add_right_comm]

theorem cutsAt_second (hab : a ≠ b) : cutsAt ((a, b) :: joints) b = cutsAt joints b + 1 := by
  unfold cutsAt
  rw [List.map_cons, List.map_cons, List.count_cons_self, List.count_cons_of_ne hab, Nat.add_assoc]

theorem cutsAt_other (ha : i ≠ a) (hb : i ≠ b) : cutsAt ((a, b) :: joints) i = cutsAt joints i := by
  unfold cutsAt
  rw [List.map_cons, List.map_cons, List.count_cons_of_ne ha.symm, List.count_cons_of_ne hb.symm]

theorem Jointed.cutsAt_le (h : Jointed axis joints L) (i : Fin n) : cutsAt joints i ≤ 2 :=
  Nat.add_le_add (List.nodup_iff_count_le_one.mp h.stopOnce i) (List.nodup_iff_count_le_one.mp h.startOnce i)

/-- A fillet makes both lines shorter by its radius. -/
theorem Jointed.length_of_fillet (h : Jointed axis ((a, b) :: joints) L)
    (hfillet : (L a).fillet (L b) r = .ok (A, B, arc)) (hA : r ≤ (L a).length .stop) (hB : r ≤ (L b).length .start) :
    A.length .start = (L a).length .stop - r ∧ B.length .start = (L b).length .start - r := by
  obtain ⟨-, -, hcutA, hcutB, -⟩ := h.corner.fillet_eq_ok_iff.mp hfillet
  constructor
  · rw [← Line.length_stop, hcutA]
    exact (h.along a).length_withEnd hA
  · rw [hcutB, h.meets _ (.head _)]
    exact (h.along b).length_withEnd hB

/-- A run succeeds if every line is long enough for all its cuts. -/
theorem Jointed.exists_filleted (h : Jointed axis joints L) (hr : 0 < r)
    (hlong : ∀ i, cutsAt joints i * r + jointTolerance ≤ (L i).length .start) :
    ∃ L' arcs, Filleted r joints L L' arcs := by
  induction joints generalizing L with
  | nil => exact ⟨L, [], .nil L⟩
  | cons j joints ih =>
    obtain ⟨a, b⟩ := j
    have htol := Line.jointTolerance_pos
    have hne : a ≠ b := by
      rintro rfl
      exact h.turns _ (.head _) rfl
    have hA : cutsAt joints a * r + r + jointTolerance ≤ (L a).length .stop := by
      have hline := hlong a
      rw [cutsAt_first hne, Nat.cast_succ, add_one_mul] at hline
      rwa [Line.length_stop]
    have hB : cutsAt joints b * r + r + jointTolerance ≤ (L b).length .start := by
      have hline := hlong b
      rwa [cutsAt_second hne, Nat.cast_succ, add_one_mul] at hline
    have hrestA : 0 ≤ cutsAt joints a * r := by positivity
    have hrestB : 0 ≤ cutsAt joints b * r := by positivity
    obtain ⟨A, B, arc, hfillet⟩ : ∃ A B arc, (L a).fillet (L b) r = .ok (A, B, arc) :=
      ⟨_, _, _, h.corner.fillet_eq_ok_iff.mpr ⟨⟨by linarith, by linarith⟩, ⟨by linarith, by linarith⟩, rfl, rfl, rfl⟩⟩
    obtain ⟨hlengthA, hlengthB⟩ := h.length_of_fillet hfillet (by linarith) (by linarith)
    have hrest : ∀ i, cutsAt joints i * r + jointTolerance ≤ (KeyboardPlate.cut L a b A B i).length .start := by
      intro i
      unfold KeyboardPlate.cut
      by_cases hb : i = b
      · rw [hb, Function.update_self, hlengthB]
        linarith
      · rw [Function.update_of_ne hb]
        by_cases ha : i = a
        · rw [ha, Function.update_self, hlengthA]
          linarith
        · rw [Function.update_of_ne ha, ← cutsAt_other ha hb]
          exact hlong i
    obtain ⟨L', arcs, hrun⟩ := ih (h.cut hr hfillet) hrest
    exact ⟨L', arc :: arcs, .cons hfillet hrun⟩

theorem Jointed.exists_filleted_of_double (h : Jointed axis joints L) (hr : 0 < r)
    (hlong : ∀ i, 2 * r + jointTolerance ≤ (L i).length .start) : ∃ L' arcs, Filleted r joints L L' arcs := by
  refine h.exists_filleted hr fun i => le_trans ?_ (hlong i)
  have hcuts : (cutsAt joints i : ℝ) ≤ 2 := by exact_mod_cast h.cutsAt_le i
  have hmul := mul_le_mul_of_nonneg_right hcuts hr.le
  linarith

/-! ### What a run leaves -/

namespace Filleted

theorem length_eq (hrun : Filleted r joints L L' arcs) : arcs.length = joints.length := by
  induction hrun with
  | nil L => rfl
  | cons _ _ ih => rw [List.length_cons, List.length_cons, ih]

/-- An end that no joint names stays where it is. -/
theorem ends_eq (hrun : Filleted r joints L L' arcs) (h : Jointed axis joints L) (hr : 0 < r) :
    (∀ i ∉ joints.map Prod.fst, (L' i).stop = (L i).stop) ∧
      (∀ i ∉ joints.map Prod.snd, (L' i).start = (L i).start) := by
  induction hrun with
  | nil L => exact ⟨fun _ _ => rfl, fun _ _ => rfl⟩
  | cons hfillet hrest ih =>
    have hstep := h.step hr hfillet
    obtain ⟨hstop, hstart⟩ := ih (h.cut hr hfillet)
    constructor
    · intro i hi
      obtain ⟨hne, hi⟩ := List.ne_and_not_mem_of_not_mem_cons hi
      rw [hstop i hi, hstep.stop_cut hne]
    · intro i hi
      obtain ⟨hne, hi⟩ := List.ne_and_not_mem_of_not_mem_cons hi
      rw [hstart i hi, hstep.start_cut hne]

/-- A run of fillets leaves the lines of each joint joined by its arc. -/
theorem joins (hrun : Filleted r joints L L' arcs) (h : Jointed axis joints L) (hr : 0 < r) :
    List.Forall₂ (fun j arc => arc.Joins (L' j.1).stop (L' j.2).start) joints arcs := by
  induction hrun with
  | nil L => exact .nil
  | @cons a b joints L L' A B arc arcs hfillet hrest ih =>
    have hstep := h.step hr hfillet
    have hrestJointed := h.cut hr hfillet
    obtain ⟨hstop, hstart⟩ := hrest.ends_eq hrestJointed hr
    refine .cons ?_ (ih hrestJointed)
    -- no later joint names either of the two ends
    dsimp only
    rw [hstop a (List.nodup_cons.mp h.stopOnce).1, hstart b (List.nodup_cons.mp h.startOnce).1, hstep.cut_first,
      CutStep.cut_second]
    exact hstep.joins

theorem quarters (hrun : Filleted r joints L L' arcs) (h : Jointed axis joints L) (hr : 0 < r) :
    ∀ arc ∈ arcs, arc.radius = r ∧ arc.span = 90 := by
  induction hrun with
  | nil L => exact fun _ => nofun
  | cons hfillet hrest ih =>
    have hstep := h.step hr hfillet
    exact List.forall_mem_cons.mpr ⟨⟨hstep.radius, hstep.span⟩, ih (h.cut hr hfillet)⟩

theorem unique (hrun : Filleted r joints L L' arcs) (hrun' : Filleted r joints L M' arcs') :
    L' = M' ∧ arcs = arcs' := by
  induction hrun generalizing M' arcs' with
  | nil L =>
    cases hrun'
    exact ⟨rfl, rfl⟩
  | cons hfillet hrest ih =>
    cases hrun' with
    | cons hfillet' hrest' =>
      cases hfillet.symm.trans hfillet'
      obtain ⟨rfl, rfl⟩ := ih hrest'
      exact ⟨rfl, rfl⟩

theorem mirror_cut {σ τ : ℝ} : (fun i => (cut L a b A B i).mirror σ τ) =
    cut (fun i => (L i).mirror σ τ) a b (A.mirror σ τ) (B.mirror σ τ) := by
  funext i
  unfold cut
  by_cases hb : i = b
  · rw [hb, Function.update_self, Function.update_self]
  · rw [Function.update_of_ne hb, Function.update_of_ne hb]
    by_cases ha : i = a
    · rw [ha, Function.update_self, Function.update_self]
    · rw [Function.update_of_ne ha, Function.update_of_ne ha]

/-- The run on the mirror images of the lines leaves the mirror images of lines and arcs. -/
theorem mirror {σ τ : ℝ} (hσ : σ * σ = 1) (hτ : τ * τ = 1) (hrun : Filleted r joints L L' arcs)
    (h : Jointed axis joints L) (hr : 0 < r) :
    ∃ arcs', Filleted r joints (fun i => (L i).mirror σ τ) (fun i => (L' i).mirror σ τ) arcs' ∧
      List.Forall₂ (Arc.Mirrors σ τ) arcs arcs' := by
  induction hrun with
  | nil L => exact ⟨[], .nil _, .nil⟩
  | cons hfillet hrest ih =>
    obtain ⟨arc', hfillet', harc⟩ := h.corner.fillet_mirror hσ hτ hr hfillet
    obtain ⟨arcs', hrest', harcs⟩ := ih (h.cut hr hfillet)
    rw [mirror_cut] at hrest'
    exact ⟨arc' :: arcs', .cons hfillet' hrest', .cons harc harcs⟩

/-- There is no other run on the mirror images of the lines. -/
theorem eq_mirror {σ τ : ℝ} (hσ : σ * σ = 1) (hτ : τ * τ = 1) (hrun : Filleted r joints L L' arcs)
    (h : Jointed axis joints L) (hr : 0 < r) (hmirror : Filleted r joints (fun i => (L i).mirror σ τ) M' arcs') :
    M' = (fun i => (L' i).mirror σ τ) ∧ List.Forall₂ (Arc.Mirrors σ τ) arcs arcs' := by
  obtain ⟨others, hothers, hmirrors⟩ := hrun.mirror hσ hτ h hr
  obtain ⟨rfl, rfl⟩ := hmirror.unique hothers
  exact ⟨rfl, hmirrors⟩

end Filleted

end

end KeyboardPlate
