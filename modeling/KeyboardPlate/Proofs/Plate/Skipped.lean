import KeyboardPlate.Proofs.Drawing.Tally
import KeyboardPlate.Proofs.Model.InPlace
import KeyboardPlate.Proofs.Plate.Blocks

/-!
# Layers that are left out

A layer of a pattern is left out where no path stands anywhere in it. All ways to ask for that agree: whether the
tree is empty, how many paths it has, what its walk passes, whether it has extents, and whether it can be exported.
So just the layers are left out that would add nothing to any export of the plate.
-/

set_option autoImplicit false

namespace KeyboardPlate

/-! ## Things put in one after the other -/

namespace Named
variable {β : Type} {name : String} {thing : β} {placed more : List (String × β)}

theorem get?_ofEntries_of_not_mem (h : name ∉ names more) :
    get? name (ofEntries (placed ++ more)) = get? name (ofEntries placed) := by
  induction more using List.reverseRecOn with
  | nil => rw [List.append_nil]
  | append_singleton more entry ih =>
    rw [names_append, List.mem_append, not_or] at h
    have hne : name ≠ entry.1 := by simpa [names] using h.2
    rw [← List.append_assoc, ofEntries_concat, get?_put_of_ne hne, ih h.1]

theorem get?_ofEntries_of_mem (hnodup : (names more).Nodup) (h : (name, thing) ∈ more) :
    get? name (ofEntries (placed ++ more)) = some thing := by
  obtain ⟨earlier, later, rfl⟩ := List.append_of_mem h
  -- nothing that is put in later has the name
  have hlater : name ∉ names later := by
    rw [names_append] at hnodup
    exact (List.nodup_cons.mp hnodup.of_append_right).1
  rw [List.append_cons, ← List.append_assoc, ← List.append_assoc, get?_ofEntries_of_not_mem hlater, ofEntries_concat,
    get?_put_self]

end Named

open Named

/-! ## Layers of a pattern -/

namespace Pattern
variable {α : Type} {p : Pattern α} {before after : String} {entry : String × Model α}

/-- A layer is left out: under its name stays what has been put in before. -/
def Skips (p : Pattern α) (before after layer : String) : Prop :=
  ∀ placed : List (String × Model α), get? (before ++ layer ++ after) (ofEntries (placed ++ p.entries before after)) =
    get? (before ++ layer ++ after) (ofEntries placed)

/-- The texts around a layer do not hide its word. -/
theorem word_inj {layer other : String} (h : before ++ layer ++ after = before ++ other ++ after) : layer = other :=
  (String.append_right_inj before).mp ((String.append_left_inj after).mp h)

theorem nodup_names (before after : String) : (Pattern.names before after).Nodup := by
  apply List.Nodup.map
  · intro layer other h
    exact word_inj h
  · decide

theorem eq_of_mem_layers {other : String × Model α} (hentry : entry ∈ p.layers) (hother : other ∈ p.layers)
    (h : other.1 = entry.1) : other = entry := by
  have hnodup : (p.layers.map (·.1)).Nodup := by
    change ["Top", "Bottom", "TopSolder", "BottomSolder"].Nodup
    decide
  exact List.inj_on_of_nodup_map hnodup hother hentry h

theorem not_mem_names_entries (hentry : entry ∈ p.layers) (h : entry.2.isEmpty = true) :
    before ++ entry.1 ++ after ∉ Named.names (p.entries before after) := by
  intro hmem
  obtain ⟨_, hput, hname⟩ := List.mem_map.mp hmem
  obtain ⟨other, hother, rfl⟩ := List.mem_map.mp hput
  obtain ⟨hlayer, hdrawn⟩ := List.mem_filter.mp hother
  obtain rfl := eq_of_mem_layers hentry hlayer (word_inj hname)
  simp [h] at hdrawn

theorem get?_entries (before after : String) (hentry : entry ∈ p.layers) (h : entry.2.isEmpty = false)
    (placed : List (String × Model α)) :
    get? (before ++ entry.1 ++ after) (ofEntries (placed ++ p.entries before after)) = some entry.2 := by
  apply get?_ofEntries_of_mem
  · exact (nodup_names before after).sublist (p.names_entries_sublist before after)
  · apply List.mem_map.mpr
    exact ⟨entry, List.mem_filter.mpr ⟨hentry, by simp [h]⟩, rfl⟩

theorem skips_iff (before after : String) (hentry : entry ∈ p.layers) :
    p.Skips before after entry.1 ↔ entry.2.isEmpty = true := by
  constructor
  · intro h
    cases hdrawn : entry.2.isEmpty with
    | true => rfl
    | false =>
      -- where nothing has been put in before, the name is free without the layer and taken with it
      have hsome := get?_entries before after hentry hdrawn []
      rw [h []] at hsome
      cases hsome
  · intro h placed
    exact get?_ofEntries_of_not_mem (not_mem_names_entries hentry h)

end Pattern

namespace Model

open Drawing

/-- The walk of a drawing passes as many paths as are counted in it. It is empty if there are none, if the walk
passes none, if there are no extents and if the writers find nothing to draw, each of them just in this case. A
layer of a pattern is left out if it is empty, and so just where it would add no entity to any export of the plate;
DXF and SVG are then the same with it. Every other layer is put in and adds all its paths. -/
theorem isEmpty_agrees :
    (∀ m : Model Float, m.walk.length = m.pathCount ∧ (m.isEmpty = true ↔ m.pathCount = 0) ∧
      (m.isEmpty = true ↔ m.walk = []) ∧ (m.isEmpty = true ↔ m.extents = none) ∧
      (m.isEmpty = true ↔ dxf m = .error .empty) ∧
      ∀ style, (dxf m = .error .empty ↔ svg style m = .error .empty)) ∧
    ∀ (p : Pattern Float) (before after : String), ∀ entry ∈ p.layers, ∀ ahead behind : Named (Model Float),
      (p.Skips before after entry.1 ↔ entry.2.isEmpty = true) ∧
      (p.Skips before after entry.1 ↔ Contributes ahead behind (before ++ entry.1 ++ after, entry.2) 0) ∧
      (p.Skips before after entry.1 →
        dxf { children := ahead ++ (before ++ entry.1 ++ after, entry.2) :: behind } =
          dxf { children := ahead ++ behind } ∧
        ∀ style, svg style { children := ahead ++ (before ++ entry.1 ++ after, entry.2) :: behind } =
          svg style { children := ahead ++ behind }) ∧
      (¬ p.Skips before after entry.1 →
        (∀ placed, get? (before ++ entry.1 ++ after) (ofEntries (placed ++ p.entries before after)) = some entry.2) ∧
        Contributes ahead behind (before ++ entry.1 ++ after, entry.2) entry.2.pathCount) := by
  constructor
  · intro m
    have hdxf : dxf m = .error .empty ↔ m.walk = [] := dxfWith_eq_empty_iff numberText m
    have hsvg (style : SvgStyle) : svg style m = .error .empty ↔ m.walk = [] :=
      svgWith_eq_empty_iff numberText style m
    refine ⟨m.length_walk, m.isEmpty_iff_pathCount, m.isEmpty_iff_walk, ?_, ?_, ?_⟩
    · rw [extents_eq_none_iff, m.isEmpty_iff_walk]
    · rw [hdxf, m.isEmpty_iff_walk]
    · intro style
      rw [hdxf, hsvg]
  · intro p before after entry hentry ahead behind
    have hskips := Pattern.skips_iff before after hentry
    refine ⟨hskips, ?_, ?_, ?_⟩
    · rw [hskips, contributes_iff, isEmpty_iff_pathCount]
      exact eq_comm
    · intro hskip
      have hwalk := walk_among ahead behind (before ++ entry.1 ++ after) (hskips.mp hskip)
      exact ⟨dxfWith_congr numberText hwalk, fun style => svgWith_congr numberText style hwalk⟩
    · intro hdrawn
      rw [hskips, Bool.not_eq_true] at hdrawn
      exact ⟨Pattern.get?_entries before after hentry hdrawn, contributes_iff.mpr rfl⟩

/-- A line two levels down on copper, and a mask of drawings without paths. -/
def bareMask : Pattern Float := .mirrored
  { children := [("ring", { children := [("hole", {}), ("side", { paths := [("edge", .between ⟨0, 0⟩ ⟨1, 0⟩)] })] })] }
  { children := [("ring", { origin := some ⟨1, 1⟩, children := [("hole", {})] }), ("side", {})] }

/-- The edge of a plate that the mask and the copper come behind. -/
def sharpEdge : Named (Model Float) := [("BoundingBox0", { paths := [("edge", .between ⟨0, 0⟩ ⟨0, 19.05⟩)] })]

theorem bareMask_agrees :
    (("TopSolder", bareMask.topSolderMask) ∈ bareMask.layers ∧
      bareMask.Skips "Plate" "" "TopSolder" ∧
      Contributes sharpEdge [] ("PlateTopSolder", bareMask.topSolderMask) 0 ∧
      dxf { children := sharpEdge ++ [("PlateTopSolder", bareMask.topSolderMask)] } =
        dxf { children := sharpEdge }) ∧
    (("Top", bareMask.top) ∈ bareMask.layers ∧
      ¬ bareMask.Skips "Plate" "" "Top" ∧
      Contributes sharpEdge [] ("PlateTop", bareMask.top) 1) ∧
    dxf bareMask.topSolderMask = .error .empty ∧ svg .preview bareMask.topSolderMask = .error .empty ∧
    bareMask.topSolderMask.extents = none := by
  obtain ⟨htrees, hlayers⟩ := isEmpty_agrees
  have hmask : ("TopSolder", bareMask.topSolderMask) ∈ bareMask.layers := by simp [Pattern.layers]
  have hcopper : ("Top", bareMask.top) ∈ bareMask.layers := by simp [Pattern.layers]
  have hempty : bareMask.topSolderMask.isEmpty = true := rfl
  obtain ⟨hskips, hadds, hsame, -⟩ := hlayers bareMask "Plate" "" _ hmask sharpEdge []
  obtain ⟨hput, -, -, hdrawn⟩ := hlayers bareMask "Plate" "" _ hcopper sharpEdge []
  obtain ⟨-, -, -, hextents, hdxf, hsvg⟩ := htrees bareMask.topSolderMask
  have hskip := hskips.mpr hempty
  have hkeep : ¬ bareMask.Skips "Plate" "" "Top" := by
    rw [hput]
    decide
  exact ⟨⟨hmask, hskip, hadds.mp hskip, (hsame hskip).1⟩, ⟨hcopper, hkeep, (hdrawn hkeep).2⟩, hdxf.mp hempty,
    (hsvg .preview).mp (hdxf.mp hempty), hextents.mp hempty⟩

end Model

end KeyboardPlate
