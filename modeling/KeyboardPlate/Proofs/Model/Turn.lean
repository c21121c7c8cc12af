import KeyboardPlate.Proofs.Geometry.Exact
import KeyboardPlate.Proofs.Model.Walk

/-!
# Turned drawings

A turn moves the paths of a drawing and nothing else. Over exact numbers it turns every path of the walk
about the same point, however deep the path stands and whatever origins stand above it: on the way down the
point is expressed in the frame of each child, and the walk undoes that when it adds the origins up.
-/

set_option autoImplicit false

namespace KeyboardPlate

/-! ## What a turn leaves alone -/

section Frame
variable {α : Type}

def Path.radius? : Path α → Option α
  | line _ => none
  | arc a => some a.radius

/-- A drawing without the places of its paths. Every node has its origin, its layer, the number of paths in
the tree below it, the radii of its own paths, and its children, all under their names. -/
structure Frame (α : Type) where
  origin : Option (Point α)
  layer : Option Layer
  pathCount : Nat
  radii : List (String × Option α)
  children : List (String × Frame α)

namespace Model

mutual

def frame : Model α → Frame α
  | ⟨origin, layer, paths, children⟩ =>
    ⟨origin, layer, pathCount ⟨origin, layer, paths, children⟩,
      paths.map fun (name, path) => (name, path.radius?), frames children⟩

def frames : List (String × Model α) → List (String × Frame α)
  | [] => []
  | (name, child) :: rest => (name, child.frame) :: frames rest

end

end Model

variable [Scalar α]

theorem Path.radius?_rotate (degrees : α) (about : Point α) (path : Path α) :
    (path.rotate degrees about).radius? = path.radius? := by
  cases path with
  | line l => rfl
  | arc a => rfl

namespace Model

mutual

theorem pathCount_rotate (degrees : α) : ∀ (m : Model α) (about : Point α),
    (m.rotate degrees about).pathCount = m.pathCount
  | ⟨origin, layer, paths, children⟩, about => by
    rw [rotate]
    split
    · rfl
    · rw [pathCount, pathCount, List.length_map, totalCount_rotateAll degrees children]

theorem totalCount_rotateAll (degrees : α) : ∀ (children : List (String × Model α)) (about : Point α),
    totalCount (rotateAll degrees about children) = totalCount children
  | [], about => rfl
  | (name, child) :: rest, about => by
    rw [rotateAll, totalCount, totalCount, pathCount_rotate degrees child, totalCount_rotateAll degrees rest]

end

mutual

theorem frame_rotate (degrees : α) : ∀ (m : Model α) (about : Point α),
    (m.rotate degrees about).frame = m.frame
  | ⟨origin, layer, paths, children⟩, about => by
    have hcount := pathCount_rotate degrees ⟨origin, layer, paths, children⟩ about
    rw [rotate] at hcount ⊢
    split
    · rfl
    · rename_i hturned
      rw [if_neg hturned] at hcount
      rw [frame, frame, hcount, frames_rotateAll degrees children, List.map_map]
      congr 1
      apply List.map_congr_left
      intro entry _
      exact congrArg (Prod.mk entry.1) (Path.radius?_rotate degrees _ entry.2)

theorem frames_rotateAll (degrees : α) : ∀ (children : List (String × Model α)) (about : Point α),
    frames (rotateAll degrees about children) = frames children
  | [], about => rfl
  | (name, child) :: rest, about => by
    rw [rotateAll, frames, frames, frame_rotate degrees child, frames_rotateAll degrees rest]

end

end Model

end Frame

/-! ## Turns over exact numbers -/

section Exact
variable {degrees : ℝ}

theorem Point.sub_zero (p : Point ℝ) : p - .zero = p := by
  obtain ⟨x, y⟩ := p
  have hzero : (0.0 : ℝ) = 0 := by norm_num
  change (⟨x - 0.0, y - 0.0⟩ : Point ℝ) = ⟨x, y⟩
  rw [hzero]
  congr 1
  · ring
  · ring

theorem Point.sub_sub (p q r : Point ℝ) : p - q - r = p - (q + r) := by
  rw [sub_def, sub_def, sub_def, add_def]
  congr 1
  · ring
  · ring

theorem Point.sub_self_eq (p q : Point ℝ) : p - p = q - q := by
  rw [sub_def, sub_def]
  congr 1
  · ring
  · ring

theorem Point.exists_rotate_eq (degrees : ℝ) : ∃ s c : ℝ, ∀ p about : Point ℝ, p.rotate degrees about =
    ⟨about.x + (p.x - about.x) * c - (p.y - about.y) * s, about.y + (p.x - about.x) * s + (p.y - about.y) * c⟩ := by
  by_cases hzero : (degrees == 0.0) = true
  · refine ⟨0, 1, ?_⟩
    intro p about
    rw [rotate, if_pos hzero]
    simp
  · refine ⟨(sinCos degrees).1, (sinCos degrees).2, ?_⟩
    intro p about
    rw [rotate, if_neg hzero]
    rfl

theorem Point.rotate_add (p about delta : Point ℝ) :
    (p + delta).rotate degrees about = p.rotate degrees (about - delta) + delta := by
  obtain ⟨s, c, h⟩ := exists_rotate_eq degrees
  rw [h, h, add_def, add_def, sub_def]
  congr 1
  · ring
  · ring

theorem Path.rotate_move (path : Path ℝ) (about delta : Point ℝ) :
    (path.move delta).rotate degrees about = (path.rotate degrees (about - delta)).move delta := by
  cases path with
  | line l =>
    rw [move, rotate, rotate, move, Point.rotate_add, Point.rotate_add]
  | arc a =>
    rw [move, rotate, rotate, move, Point.rotate_add]

theorem Path.rotate_zero (path : Path ℝ) (about : Point ℝ) (h : (degrees == 0.0) = true) :
    path.rotate degrees about = path := by
  have hdegrees : degrees = 0 := by
    rw [beq_iff_eq] at h
    rw [h]
    norm_num
  cases path with
  | line l =>
    rw [rotate, Point.rotate, if_pos h, Point.rotate, if_pos h]
  | arc a =>
    rw [rotate, Point.rotate, if_pos h, hdegrees]
    change arc ⟨a.center, a.radius, a.startAngle + 0, a.endAngle + 0⟩ = arc a
    rw [add_zero, add_zero]

namespace Model

mutual

theorem walkFrom_rotate (degrees : ℝ) (about : Point ℝ) :
    ∀ (m : Model ℝ) (offset : Point ℝ) (layer : Layer) (route : String),
      (m.rotate degrees (about - offset)).walkFrom offset layer route =
        (m.walkFrom offset layer route).map fun w => { w with path := w.path.rotate degrees about }
  | ⟨origin, own, paths, children⟩, offset, layer, route => by
    -- `about - offset` is the point in the frame of the node. Its own origin is taken off once more for
    -- what stands below, and the walk adds it to the offset there.
    rw [rotate]
    split
    · rename_i hzero
      simp only [Path.rotate_zero _ _ hzero, List.map_id']
    · rw [Point.sub_sub, walkFrom, walkFrom, walkAll_rotateAll degrees about children, List.map_append, List.map_map,
        List.map_map]
      congr 1
      apply List.map_congr_left
      intro entry _
      exact congrArg (WalkedPath.mk _ _) (Path.rotate_move entry.2 about _).symm

theorem walkAll_rotateAll (degrees : ℝ) (about : Point ℝ) :
    ∀ (children : List (String × Model ℝ)) (offset : Point ℝ) (layer : Layer) (route : String),
      walkAll offset layer route (rotateAll degrees (about - offset) children) =
        (walkAll offset layer route children).map fun w => { w with path := w.path.rotate degrees about }
  | [], _, _, _ => rfl
  | (name, child) :: rest, offset, layer, route => by
    rw [rotateAll, walkAll, walkAll, walkFrom_rotate degrees about child, walkAll_rotateAll degrees about rest,
      List.map_append]

end

/-- A turn of a drawing turns every path of its walk and leaves all else as it is. Of a drawing without an
origin, it does not matter whether it is turned about its own zero and then put in place, or put in place
and then turned about that place. -/
theorem walk_rotate (m : Model ℝ) (degrees : ℝ) (about : Point ℝ) :
    (m.rotate degrees about).walk = (m.walk.map fun w => { w with path := w.path.rotate degrees about }) ∧
    (m.rotate degrees about).frame = m.frame ∧
    (m.origin = none →
      ∀ origin, (m.rotate degrees .zero).moveTo origin = (m.moveTo origin).rotate degrees origin) := by
  refine ⟨?_, frame_rotate degrees m about, ?_⟩
  · have h := walkFrom_rotate degrees about m .zero .plate ""
    rw [Point.sub_zero] at h
    exact h
  · intro hnone origin
    obtain ⟨own, layer, paths, children⟩ := m
    obtain rfl : own = none := hnone
    rw [moveTo, moveTo, rotate, rotate]
    split
    · rfl
    · rw [Option.getD_none, Option.getD_some, Point.sub_self_eq .zero origin]

/-- A line, and beside it an arc on a layer of its own. -/
noncomputable def relieved : Model ℝ where
  paths := [("edge", .between ⟨-7, -7⟩ ⟨7, -7⟩)]
  children := [("relief", {
    origin := some ⟨7, 0⟩
    layer := some .top
    paths := [("bow", .arc ⟨⟨0.5, 0⟩, 1, 270, 90⟩)] })]

theorem relieved_walk_rotate : relieved.origin = none ∧
    (relieved.rotate 15 ⟨1, 2⟩).walk = (relieved.walk.map fun w => { w with path := w.path.rotate 15 ⟨1, 2⟩ }) ∧
    (relieved.rotate 15 ⟨1, 2⟩).frame = relieved.frame ∧
    (relieved.rotate 15 .zero).moveTo ⟨19.05, -9.525⟩ =
      (relieved.moveTo ⟨19.05, -9.525⟩).rotate 15 ⟨19.05, -9.525⟩ := by
  have hnone : relieved.origin = none := rfl
  obtain ⟨hwalk, hframe, hplaced⟩ := walk_rotate relieved 15 ⟨1, 2⟩
  exact ⟨hnone, hwalk, hframe, hplaced hnone _⟩

end Model

end Exact

end KeyboardPlate
