import KeyboardPlate.Model.Walk

/-!
# What a walk passes

The walk passes every path of a tree once: a drawing's own paths, and then what the walks of its children
pass, one after the other. So it passes none just where nothing in the tree has a path of its own, and a child
without paths leaves no trace in it.
-/

set_option autoImplicit false

namespace KeyboardPlate.Model

variable {α : Type}

/-! ## Counts of paths -/

mutual

theorem isEmpty_iff_pathCount : ∀ m : Model α, m.isEmpty = true ↔ m.pathCount = 0
  | ⟨origin, own, paths, children⟩ => by
    rw [isEmpty, pathCount, Bool.and_eq_true, Nat.add_eq_zero_iff, allEmpty_iff_totalCount children,
      List.isEmpty_iff_length_eq_zero]

theorem allEmpty_iff_totalCount : ∀ children : List (String × Model α),
    allEmpty children = true ↔ totalCount children = 0
  | [] => by simp [allEmpty, totalCount]
  | (name, child) :: rest => by
    rw [allEmpty, totalCount, Bool.and_eq_true, Nat.add_eq_zero_iff, isEmpty_iff_pathCount child,
      allEmpty_iff_totalCount rest]

end

theorem totalCount_append (children others : List (String × Model α)) :
    totalCount (children ++ others) = totalCount children + totalCount others := by
  induction children with
  | nil => simp [totalCount]
  | cons entry children ih =>
    obtain ⟨name, child⟩ := entry
    rw [List.cons_append, totalCount, totalCount, ih, Nat.add_assoc]

/-- A child among others adds its own paths. -/
theorem pathCount_among (ahead behind : List (String × Model α)) (name : String) (m : Model α) :
    pathCount { children := ahead ++ (name, m) :: behind } =
      pathCount { children := ahead ++ behind } + m.pathCount := by
  simp only [pathCount, totalCount_append, totalCount, List.length_nil]
  omega

/-! ## Walks -/

variable [Quantity α]

theorem walkAll_eq (offset : Point α) (layer : Layer) (route : String) (children : List (String × Model α)) :
    walkAll offset layer route children = children.flatMap fun entry =>
      entry.2.walkFrom offset layer (route ++ "models/" ++ entry.1 ++ "/") := by
  induction children with
  | nil => rfl
  | cons entry children ih =>
    obtain ⟨name, child⟩ := entry
    rw [walkAll, ih, List.flatMap_cons]

mutual

theorem length_walkFrom : ∀ (m : Model α) (offset : Point α) (layer : Layer) (route : String),
    (m.walkFrom offset layer route).length = m.pathCount
  | ⟨origin, own, paths, children⟩, offset, layer, route => by
    rw [walkFrom, pathCount, List.length_append, List.length_map, length_walkAll children]

theorem length_walkAll : ∀ (children : List (String × Model α)) (offset : Point α) (layer : Layer) (route : String),
    (walkAll offset layer route children).length = totalCount children
  | [], _, _, _ => rfl
  | (name, child) :: rest, offset, layer, route => by
    rw [walkAll, totalCount, List.length_append, length_walkFrom child, length_walkAll rest]

end

theorem length_walk (m : Model α) : m.walk.length = m.pathCount := length_walkFrom m _ _ _

theorem isEmpty_iff_walk (m : Model α) : m.isEmpty = true ↔ m.walk = [] := by
  rw [isEmpty_iff_pathCount, ← length_walk, List.length_eq_zero_iff]

/-- A child without paths leaves no trace in the walk. -/
theorem walk_among (ahead behind : List (String × Model α)) (name : String) {m : Model α} (h : m.isEmpty = true) :
    walk { children := ahead ++ (name, m) :: behind } = walk { children := ahead ++ behind } := by
  have hnil : ∀ (offset : Point α) (layer : Layer) (route : String), m.walkFrom offset layer route = [] := by
    intro offset layer route
    apply List.length_eq_zero_iff.mp
    rw [length_walkFrom]
    exact (isEmpty_iff_pathCount m).mp h
  simp only [walk, walkFrom, walkAll_eq, List.flatMap_append, List.flatMap_cons, hnil, List.nil_append]

end KeyboardPlate.Model
