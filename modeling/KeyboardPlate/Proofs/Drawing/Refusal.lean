import KeyboardPlate.Drawing.Dxf
import KeyboardPlate.Drawing.Svg
import KeyboardPlate.Proofs.Except
import Mathlib.Tactic.ByContra
import Mathlib.Tactic.Tauto

/-!
# Drawings that are refused

Both writers of drawings look at the numbers of every walked path before they write any. What they look at
differs: DXF takes the angles of an arc into account, SVG does not. So a drawing whose only fault is an
angle that is not finite is refused by one and drawn by the other.
-/

set_option autoImplicit false

namespace KeyboardPlate

/-! ## Drawings without paths -/

theorem Box.around?_eq_none_iff {α : Type} [Quantity α] {points : List (Point α)} :
    Box.around? points = none ↔ points = [] := by
  cases points with
  | nil => simp [Box.around?]
  | cons p rest => simp [Box.around?]

theorem Path.samples_ne_nil {α : Type} [Scalar α] (p : Path α) : p.samples ≠ [] := by
  cases p with
  | line l => simp [Path.samples]
  | arc a => simp [Path.samples, Arc.samples]

theorem Model.extents_eq_none_iff {α : Type} [Scalar α] {m : Model α} : m.extents = none ↔ m.walk = [] := by
  unfold Model.extents
  rw [Box.around?_eq_none_iff, List.flatMap_eq_nil_iff]
  constructor
  · intro h
    refine List.eq_nil_iff_forall_not_mem.mpr fun w hw => ?_
    exact w.path.samples_ne_nil (h w hw)
  · intro h w hw
    rw [h] at hw
    cases hw

namespace Drawing

/-! ## Checks -/

/-- A number was not finite. -/
def Refused {β : Type} (drawn : Except ExportError β) : Prop :=
  ∃ what route, drawn = .error (.nonFinite what route)

instance {β : Type} : (drawn : Except ExportError β) → Decidable (Refused drawn)
  | .ok _ => .isFalse fun ⟨_, _, h⟩ => by cases h
  | .error .empty => .isFalse fun ⟨_, _, h⟩ => by cases h
  | .error (.nonFinite what route) => .isTrue ⟨what, route, rfl⟩

/-- The step succeeds where the condition holds and refuses a number elsewhere. -/
structure Guarded {β : Type} (p : Prop) (drawn : Except ExportError β) : Prop where
  ok : p → ∃ b, drawn = .ok b
  refused : ¬ p → Refused drawn

namespace Guarded
variable {β γ ι : Type} {p : Prop} {drawn : Except ExportError β}

theorem ok_iff (h : Guarded p drawn) : (∃ b, drawn = .ok b) ↔ p := by
  refine ⟨?_, h.ok⟩
  rintro ⟨b, rfl⟩
  by_contra hp
  obtain ⟨what, route, he⟩ := h.refused hp
  cases he

theorem refused_iff (h : Guarded p drawn) : Refused drawn ↔ ¬ p := by
  refine ⟨?_, h.refused⟩
  rintro ⟨what, route, rfl⟩ hp
  obtain ⟨b, hb⟩ := h.ok hp
  cases hb

theorem ne_empty (h : Guarded p drawn) : drawn ≠ .error .empty := by
  rintro rfl
  by_cases hp : p
  · obtain ⟨b, hb⟩ := h.ok hp
    cases hb
  · obtain ⟨what, route, he⟩ := h.refused hp
    cases he

theorem congr {q : Prop} (h : Guarded p drawn) (hpq : p ↔ q) : Guarded q drawn :=
  ⟨fun hq => h.ok (hpq.mpr hq), fun hq => h.refused (mt hpq.mp hq)⟩

/-- What comes after the check cannot fail. -/
theorem bind {f : β → Except ExportError γ} (h : Guarded p drawn) (hf : ∀ b, ∃ c, f b = .ok c) :
    Guarded p (drawn >>= f) := by
  constructor
  · intro hp
    obtain ⟨b, rfl⟩ := h.ok hp
    exact hf b
  · intro hp
    obtain ⟨what, route, rfl⟩ := h.refused hp
    exact ⟨what, route, rfl⟩

theorem mapM {q : ι → Prop} {f : ι → Except ExportError β} {xs : List ι}
    (h : ∀ x ∈ xs, Guarded (q x) (f x)) : Guarded (∀ x ∈ xs, q x) (xs.mapM f) := by
  have hok : (∃ ys, xs.mapM f = .ok ys) ↔ ∀ x ∈ xs, q x := by
    rw [Except.exists_mapM_eq_ok_iff]
    exact forall₂_congr fun x hx => (h x hx).ok_iff
  refine ⟨hok.mpr, fun hq => ?_⟩
  cases hr : xs.mapM f with
  | ok ys => exact absurd (hok.mp ⟨ys, hr⟩) hq
  | error e =>
    obtain ⟨x, hx, he⟩ := Except.exists_of_mapM_eq_error hr
    have hbad : ¬ q x := fun hqx => by
      obtain ⟨y, hy⟩ := (h x hx).ok hqx
      rw [he] at hy
      cases hy
    obtain ⟨what, route, hfx⟩ := (h x hx).refused hbad
    rw [he] at hfx
    exact ⟨what, route, congrArg Except.error (Except.error.inj hfx)⟩

end Guarded

variable {α : Type} [Scalar α]

/-- All the numbers are finite. -/
def AllFinite (numbers : List (String × α)) : Prop := ∀ entry ∈ numbers, Scalar.isFinite entry.2 = true

instance (numbers : List (String × α)) : Decidable (AllFinite numbers) :=
  inferInstanceAs (Decidable (∀ entry ∈ numbers, _))

theorem guarded_checkFinite (route : String) (numbers : List (String × α)) :
    Guarded (AllFinite numbers) (checkFinite route numbers) := by
  induction numbers with
  | nil => exact ⟨fun _ => ⟨(), rfl⟩, fun h => absurd (fun _ hm => by cases hm) h⟩
  | cons entry rest ih =>
    obtain ⟨what, x⟩ := entry
    unfold checkFinite
    by_cases hx : Scalar.isFinite x = true
    · rw [if_pos hx]
      refine ih.congr ?_
      unfold AllFinite
      rw [List.forall_mem_cons]
      exact ⟨fun h => ⟨hx, h⟩, fun h => h.2⟩
    · rw [if_neg hx]
      exact ⟨fun h => absurd (h (what, x) (by simp)) hx, fun _ => ⟨what, route, rfl⟩⟩

/-! ## The two writers -/

theorem Dxf.guarded_entity (text : α → String) (w : WalkedPath α) :
    Guarded (AllFinite (Dxf.numbers w.path)) (Dxf.entity text w) :=
  (guarded_checkFinite w.route _).bind fun _ => ⟨_, rfl⟩

theorem dxfWith_of_walk_eq_nil (text : α → String) {m : Model α} (h : m.walk = []) :
    dxfWith text m = .error .empty := by
  simp [dxfWith, Dxf.pairs, h, Except.map]

theorem Dxf.pairs_of_walk_ne_nil (text : α → String) {m : Model α} (h : m.walk ≠ []) :
    Dxf.pairs text m = m.walk.mapM (Dxf.entity text) >>= fun entities =>
      .ok (Dxf.header ++ Dxf.tables ++ [(0, "SECTION"), (2, "ENTITIES")] ++ entities.flatten ++
        [(0, "ENDSEC"), (0, "EOF")]) := by
  unfold Dxf.pairs
  split
  · contradiction
  · rfl

theorem guarded_dxfWith (text : α → String) {m : Model α} (h : m.walk ≠ []) :
    Guarded (∀ w ∈ m.walk, AllFinite (Dxf.numbers w.path)) (dxfWith text m) := by
  have hentities : Guarded _ (m.walk.mapM (Dxf.entity text)) :=
    Guarded.mapM fun w _ => Dxf.guarded_entity text w
  have hpairs := hentities.bind (f := fun entities =>
    .ok (Dxf.header ++ Dxf.tables ++ [(0, "SECTION"), (2, "ENTITIES")] ++ entities.flatten ++
      [(0, "ENDSEC"), (0, "EOF")])) fun entities => ⟨_, rfl⟩
  rw [← Dxf.pairs_of_walk_ne_nil text h] at hpairs
  exact hpairs.bind (f := fun pairs => .ok (Dxf.lines pairs)) fun pairs => ⟨_, rfl⟩

theorem Svg.guarded_subpath (text : α → String) (box : Box α) (w : WalkedPath α) :
    Guarded (AllFinite (Svg.numbers w.path)) (Svg.subpath text box w) :=
  (guarded_checkFinite w.route _).bind fun _ => ⟨_, rfl⟩

theorem Svg.guarded_element (text : α → String) (box : Box α) (walk : List (WalkedPath α)) (layer : Layer) :
    Guarded (∀ w ∈ walk.filter fun w => w.layer = layer, AllFinite (Svg.numbers w.path))
      (Svg.element text box walk layer) := by
  unfold Svg.element Svg.layerData
  rw [Except.foldlM_bind_pure, Except.map_eq_bind]
  have hparts : Guarded _ ((walk.filter fun w => w.layer = layer).mapM (Svg.subpath text box)) :=
    Guarded.mapM fun w _ => Svg.guarded_subpath text box w
  refine (hparts.bind fun parts => ⟨_, rfl⟩).bind fun data => ?_
  split
  · exact ⟨_, rfl⟩
  · exact ⟨_, rfl⟩

theorem svgWith_of_walk_eq_nil (text : α → String) (style : SvgStyle) {m : Model α} (h : m.walk = []) :
    svgWith text style m = .error .empty := by
  simp [svgWith, Model.extents_eq_none_iff.mpr h]

theorem guarded_svgWith (text : α → String) (style : SvgStyle) {m : Model α} (h : m.walk ≠ []) :
    Guarded (∀ w ∈ m.walk, AllFinite (Svg.numbers w.path)) (svgWith text style m) := by
  obtain ⟨box, hbox⟩ : ∃ box, m.extents = some box :=
    Option.ne_none_iff_exists'.mp fun hnone => h (Model.extents_eq_none_iff.mp hnone)
  unfold svgWith
  rw [hbox]
  have helements : Guarded _ (Layer.all.mapM (Svg.element text box m.walk)) :=
    Guarded.mapM fun layer _ => Svg.guarded_element text box m.walk layer
  refine (helements.bind fun elements => ⟨_, rfl⟩).congr ⟨fun hall w hw => ?_, fun hall layer _ w hw => ?_⟩
  · exact hall w.layer w.layer.mem_all w (List.mem_filter.mpr ⟨hw, by simp⟩)
  · exact hall w (List.mem_filter.mp hw).1

theorem dxfWith_eq_empty_iff (text : α → String) (m : Model α) :
    dxfWith text m = .error .empty ↔ m.walk = [] := by
  refine ⟨fun he => ?_, dxfWith_of_walk_eq_nil text⟩
  by_contra h
  exact (guarded_dxfWith text h).ne_empty he

theorem svgWith_eq_empty_iff (text : α → String) (style : SvgStyle) (m : Model α) :
    svgWith text style m = .error .empty ↔ m.walk = [] := by
  refine ⟨fun he => ?_, svgWith_of_walk_eq_nil text style⟩
  by_contra h
  exact (guarded_svgWith text style h).ne_empty he

theorem refused_dxfWith_iff (text : α → String) (m : Model α) :
    Refused (dxfWith text m) ↔ ∃ w ∈ m.walk, ¬ AllFinite (Dxf.numbers w.path) := by
  by_cases h : m.walk = []
  · rw [dxfWith_of_walk_eq_nil text h, h]
    simp [Refused]
  · rw [(guarded_dxfWith text h).refused_iff]
    simp only [not_forall, exists_prop]

theorem refused_svgWith_iff (text : α → String) (style : SvgStyle) (m : Model α) :
    Refused (svgWith text style m) ↔ ∃ w ∈ m.walk, ¬ AllFinite (Svg.numbers w.path) := by
  by_cases h : m.walk = []
  · rw [svgWith_of_walk_eq_nil text style h, h]
    simp [Refused]
  · rw [(guarded_svgWith text style h).refused_iff]
    simp only [not_forall, exists_prop]

/-- A path is an arc from or to an angle that is not finite. -/
def HasBadAngle (p : Path α) : Prop :=
  ∃ a, p = .arc a ∧ ¬ (Scalar.isFinite a.startAngle = true ∧ Scalar.isFinite a.endAngle = true)

theorem allFinite_dxf_iff (p : Path α) :
    AllFinite (Dxf.numbers p) ↔ AllFinite (Svg.numbers p) ∧ ¬ HasBadAngle p := by
  cases p with
  | line l => simp [AllFinite, HasBadAngle, Dxf.numbers, Svg.numbers]
  | arc a =>
    simp only [AllFinite, HasBadAngle, Dxf.numbers, Svg.numbers, List.forall_mem_cons, Path.arc.injEq,
      exists_eq_left', not_not]
    tauto

/-- Both writers find the same drawings empty. What SVG refuses DXF refuses too, and beyond that it
refuses the arcs whose angles are not finite. -/
theorem refused_dxfWith_iff_svgWith (text text' : α → String) (style : SvgStyle) (m : Model α) :
    (svgWith text style m = .error .empty ↔ dxfWith text' m = .error .empty) ∧
    (Refused (dxfWith text' m) ↔
      Refused (svgWith text style m) ∨ ∃ w ∈ m.walk, HasBadAngle w.path) := by
  refine ⟨?_, ?_⟩
  · rw [svgWith_eq_empty_iff, dxfWith_eq_empty_iff]
  · rw [refused_dxfWith_iff, refused_svgWith_iff, ← exists_or]
    refine exists_congr fun w => ?_
    rw [allFinite_dxf_iff]
    tauto

/-- An arc that starts at no angle. -/
def angleless : Model Float := { paths := [("a", .arc ⟨⟨0, 0⟩, 1, 0.0 / 0.0, 90⟩)] }

theorem not_refused_alike : ¬ ∀ (m : Model Float) (style : SvgStyle), Refused (svg style m) ↔ Refused (dxf m) := by
  intro h
  have hdxf : Refused (dxf angleless) := by decide +kernel
  have hsvg : ¬ Refused (svg .download angleless) := by decide +kernel
  exact hsvg ((h angleless .download).mpr hdxf)

end Drawing

end KeyboardPlate
