import KeyboardPlate.Proofs.Model.RoundTrip
import KeyboardPlate.Proofs.Plate.Drawn

/-!
# How deep a plate is nested

The drawings of a plate hold drawings of their own, but no third level, and no name stands twice at one
place.
-/

set_option autoImplicit false

namespace KeyboardPlate

open Named

variable {α : Type}

namespace Model

/-- The names of the tree differ wherever they stand together, and it has at most `levels` levels of
children. -/
def Tidy : (levels : Nat) → Model α → Prop
  | 0, m => (names m.paths).Nodup ∧ m.children = []
  | levels + 1, m => (names m.paths).Nodup ∧ (names m.children).Nodup ∧ ∀ c ∈ m.children, Tidy levels c.2

variable {levels : Nat} {m : Model α}

theorem Tidy.nodup_paths (h : m.Tidy levels) : (names m.paths).Nodup := by
  cases levels with
  | zero => exact h.1
  | succ levels => exact h.1

theorem Tidy.of_children_eq {other : Model α} (h : m.Tidy levels) (hpaths : (names other.paths).Nodup)
    (hchildren : other.children = m.children) : other.Tidy levels := by
  cases levels with
  | zero => exact ⟨hpaths, hchildren.trans h.2⟩
  | succ levels =>
    refine ⟨hpaths, ?_, ?_⟩
    · rw [hchildren]
      exact h.2.1
    · rw [hchildren]
      exact h.2.2

theorem Tidy.succ (h : m.Tidy levels) : m.Tidy (levels + 1) := by
  induction levels generalizing m with
  | zero =>
    refine ⟨h.1, ?_, ?_⟩
    · rw [h.2]
      exact List.nodup_nil
    · rw [h.2]
      exact fun c hc => by cases hc
  | succ levels ih => exact ⟨h.1, h.2.1, fun c hc => ih (h.2.2 c hc)⟩

theorem Tidy.withLayer (h : m.Tidy levels) (layer : Layer) : (m.withLayer layer).Tidy levels :=
  h.of_children_eq h.nodup_paths rfl

theorem Tidy.moveTo (h : m.Tidy levels) (origin : Point α) : (m.moveTo origin).Tidy levels :=
  h.of_children_eq h.nodup_paths rfl

theorem Tidy.addPath (h : m.Tidy levels) (name : String) (path : Path α) : (m.addPath name path).Tidy levels :=
  h.of_children_eq (nodup_put h.nodup_paths name path) rfl

theorem Tidy.addChild {child : Model α} (h : m.Tidy (levels + 1)) (hchild : child.Tidy levels) (name : String) :
    (m.addChild name child).Tidy (levels + 1) := by
  refine ⟨h.1, nodup_put h.2.1 name child, fun c hc => ?_⟩
  rcases mem_put hc with rfl | hc
  · exact hchild
  · exact h.2.2 c hc

/-! ## Names and nesting in JSON -/

theorem allWellNamed_iff (children : List (String × Model α)) :
    AllWellNamed children ↔ ∀ c ∈ children, c.2.WellNamed := by
  induction children with
  | nil => simp [AllWellNamed]
  | cons entry children ih =>
    obtain ⟨name, child⟩ := entry
    simp [AllWellNamed, ih]

theorem Tidy.wellNamed (h : m.Tidy levels) : m.WellNamed := by
  induction levels generalizing m with
  | zero =>
    obtain ⟨origin, layer, paths, children⟩ := m
    obtain ⟨hpaths, rfl⟩ := h
    exact ⟨hpaths, List.nodup_nil, trivial⟩
  | succ levels ih =>
    obtain ⟨origin, layer, paths, children⟩ := m
    exact ⟨h.1, h.2.1, (allWellNamed_iff children).mpr fun c hc => ih (h.2.2 c hc)⟩

theorem membersDepth_le_iff {members : List (String × Json)} {n : Nat} :
    Json.membersDepth members ≤ n ↔ ∀ e ∈ members, e.2.depth ≤ n := by
  induction members with
  | nil => simp [Json.membersDepth]
  | cons entry members ih =>
    obtain ⟨name, value⟩ := entry
    rw [Json.membersDepth, Nat.max_le, ih, List.forall_mem_cons]

theorem depth_path (p : Path Float) : p.toJson.depth = 2 := by
  cases p with
  | line l => rfl
  | arc a => rfl

theorem childrenToJson_eq (children : List (String × Model Float)) :
    childrenToJson children = children.map fun (name, child) => (name, child.toJson) := by
  induction children with
  | nil => rfl
  | cons entry children ih =>
    obtain ⟨name, child⟩ := entry
    rw [childrenToJson, ih]
    rfl

theorem depth_toJson_le {m : Model Float} {n : Nat} (hchildren : ∀ c ∈ m.children, c.2.toJson.depth + 2 ≤ n)
    (hn : 4 ≤ n) : m.toJson.depth ≤ n := by
  -- a child stands inside two more objects, the one of the drawing and the one of its children
  have hmembers : ∀ e ∈ originMember m.origin ++ pathsMember m.paths ++ childrenMember m.children ++
      layerMember m.layer, e.2.depth ≤ n - 1 := by
    intro e he
    simp only [List.mem_append] at he
    rcases he with ((horigin | hpaths) | hbelow) | hlayer
    · cases hm : m.origin with
      | none => simp [originMember, hm] at horigin
      | some p =>
        simp only [originMember, hm, Option.map_some, Option.toList_some, List.mem_singleton] at horigin
        subst horigin
        have hpoint : p.toJson.depth = 1 := rfl
        dsimp only
        omega
    · unfold pathsMember at hpaths
      split at hpaths
      · cases hpaths
      · rw [List.mem_singleton] at hpaths
        subst hpaths
        have hall : Json.membersDepth (m.paths.map fun e => (e.1, e.2.toJson)) ≤ 2 := by
          rw [membersDepth_le_iff]
          intro e he
          obtain ⟨⟨name, path⟩, -, rfl⟩ := List.mem_map.mp he
          exact (depth_path path).le
        exact Nat.le_trans (Nat.add_le_add_left hall 1) (by omega)
    · unfold childrenMember at hbelow
      split at hbelow
      · cases hbelow
      · rw [List.mem_singleton] at hbelow
        subst hbelow
        have hall : Json.membersDepth (childrenToJson m.children) ≤ n - 2 := by
          rw [membersDepth_le_iff, childrenToJson_eq]
          intro e he
          obtain ⟨c, hc, rfl⟩ := List.mem_map.mp he
          have := hchildren c hc
          dsimp only
          omega
        exact Nat.le_trans (Nat.add_le_add_left hall 1) (by omega)
    · cases hm : m.layer with
      | none => simp [layerMember, hm] at hlayer
      | some l =>
        simp only [layerMember, hm, Option.map_some, Option.toList_some, List.mem_singleton] at hlayer
        subst hlayer
        exact Nat.zero_le _
  have hdepth := membersDepth_le_iff.mpr hmembers
  rw [toJson_eq, Json.depth]
  omega

theorem Tidy.depth_toJson_le {m : Model Float} (h : m.Tidy levels) : m.toJson.depth ≤ 2 * levels + 4 := by
  induction levels generalizing m with
  | zero =>
    refine Model.depth_toJson_le (fun c hc => ?_) (by omega)
    rw [h.2] at hc
    cases hc
  | succ levels ih =>
    refine Model.depth_toJson_le (fun c hc => ?_) (by omega)
    have := ih (h.2.2 c hc)
    omega

/-! ## Drawings of a plate -/

section Scalar
variable [Scalar α]

theorem Tidy.rotate (h : m.Tidy levels) (degrees : α) (about : Point α) : (m.rotate degrees about).Tidy levels := by
  induction levels generalizing m about with
  | zero =>
    obtain ⟨origin, layer, paths, children⟩ := m
    obtain ⟨hpaths, rfl⟩ := h
    rw [Model.rotate]
    split
    · exact ⟨hpaths, rfl⟩
    · exact ⟨by rwa [names_map], rfl⟩
  | succ levels ih =>
    obtain ⟨origin, layer, paths, children⟩ := m
    obtain ⟨hpaths, hchildren, hall⟩ := h
    rw [Model.rotate]
    split
    · exact ⟨hpaths, hchildren, hall⟩
    · dsimp only
      rw [rotateAll_eq]
      refine ⟨by rwa [names_map], by rwa [names_map], fun c hc => ?_⟩
      obtain ⟨⟨name, child⟩, hchild, rfl⟩ := List.mem_map.mp hc
      exact ih (hall _ hchild) _

theorem kept_tidy : Kept (Tidy (α := α)) where
  paths hpaths := ⟨hpaths, rfl⟩
  succ h := h.succ
  addPath h := h.addPath
  addChild h := h.addChild
  rotate h := h.rotate
  moveTo h := h.moveTo

end Scalar

end Model

theorem Pattern.tidy_entries {p : Pattern α} (h : p.Has Model.Tidy) (before after : String) :
    ∀ e ∈ p.entries before after, e.2.Tidy 1 := by
  obtain @⟨copper, mask, hcopper, hmask⟩ := h
  intro e he
  obtain ⟨⟨layer, m⟩, hm, rfl⟩ := List.mem_map.mp he
  have hlayer := List.mem_of_mem_filter hm
  simp only [layers, mirrored, List.mem_cons, Prod.mk.injEq, List.not_mem_nil, or_false] at hlayer
  rcases hlayer with ⟨-, rfl⟩ | ⟨-, rfl⟩ | ⟨-, rfl⟩ | ⟨-, rfl⟩
  · exact hcopper.withLayer _
  · exact hcopper.withLayer _
  · exact hmask.withLayer _
  · exact hmask.withLayer _

namespace Plate

theorem Placed.tidy {things : Named (Model α)} {e : String × Model α} (h : Placed Model.Tidy things e) :
    e.2.Tidy 1 := by
  cases h with
  | cut _ _ hbase hm =>
    rcases hm with rfl | rfl
    · exact hbase
    · exact hbase.withLayer _
  | layer _ _ _ hp _ hentry => exact Pattern.tidy_entries hp _ _ e hentry

theorem tidy_withDefaultLayer {m : Model α} {levels : Nat} (h : m.Tidy levels) : (withDefaultLayer m).Tidy levels := by
  unfold withDefaultLayer
  split
  · exact h
  · exact h.withLayer _

theorem tidy_build [Scalar α] {keys : List Key} {o : Options} {plate : Plate α} (h : build keys o = .ok plate) :
    plate.toModel.Tidy 2 := by
  obtain ⟨entries, hplaced, hnodup, hmodels⟩ := allPlaced_build Model.kept_tidy h
  refine ⟨List.nodup_nil, ?_, fun c hc => ?_⟩
  · change (names plate.models).Nodup
    rw [hmodels, names_map]
    exact hnodup
  · change c ∈ plate.models at hc
    rw [hmodels] at hc
    obtain ⟨e, he, rfl⟩ := List.mem_map.mp hc
    exact tidy_withDefaultLayer (hplaced e he).tidy

end Plate

end KeyboardPlate
