import KeyboardPlate.Proofs.Plate.Build

/-!
# Where the drawings of a plate come from

Every drawing of a plate starts from lone paths and is made by a few steps: paths and children are added to
it, it is turned and moved. What none of these steps loses holds of everything that is drawn. On the plate a
drawing either stands for itself, on no layer or on that of the plate, or it is one of the layers of a
pattern, whose other layers are on the plate too.
-/

set_option autoImplicit false

namespace KeyboardPlate

open Named

variable {α β : Type}

/-! ## Named things -/

theorem Named.nodup_put {things : Named β} (h : (names things).Nodup) (name : String) (thing : β) :
    (names (put name thing things)).Nodup := by
  rw [names_put]
  split
  · exact h
  · rename_i hnew
    refine List.nodup_append.mpr ⟨h, by simp, ?_⟩
    rintro other hother _ hname rfl
    rw [List.mem_singleton] at hname
    exact hnew (hname ▸ hother)

theorem Named.mem_put {name : String} {thing : β} {things : Named β} {entry : String × β}
    (h : entry ∈ put name thing things) : entry = (name, thing) ∨ entry ∈ things := by
  induction things with
  | nil => exact .inl (List.mem_singleton.mp h)
  | cons first things ih =>
    obtain ⟨n, t⟩ := first
    rw [put] at h
    split at h
    · rename_i heq
      rcases List.mem_cons.mp h with rfl | h
      · exact .inl (by rw [heq])
      · exact .inr (.tail _ h)
    · rcases List.mem_cons.mp h with rfl | h
      · exact .inr (.head _)
      · rcases ih h with h | h
        · exact .inl h
        · exact .inr (.tail _ h)

theorem Named.nodup_ofEntries (entries : List (String × β)) : (names (ofEntries entries)).Nodup := by
  unfold ofEntries
  exact List.foldlRecOn (motive := fun things => (names things).Nodup) entries _ List.nodup_nil
    fun _ h entry _ => nodup_put h entry.1 entry.2

theorem Named.names_map (f : β → β) (things : Named β) :
    names (things.map fun (name, thing) => (name, f thing)) = names things := by
  simp [names]

theorem Named.get?_eq_some_iff {things : Named β} (h : (names things).Nodup) {name : String}
    {thing : β} : get? name things = some thing ↔ (name, thing) ∈ things := by
  induction things with
  | nil => simp [get?]
  | cons entry things ih =>
    obtain ⟨n, t⟩ := entry
    obtain ⟨hnew, hnodup⟩ := List.nodup_cons.mp h
    by_cases hn : n = name
    · subst hn
      have hnot : (n, thing) ∉ things := fun hmem => hnew (List.mem_map.mpr ⟨_, hmem, rfl⟩)
      simp [get?, hnot, eq_comm]
    · have hskip : get? name ((n, t) :: things) = get? name things := by simp [get?, hn]
      rw [hskip, ih hnodup]
      simp [Ne.symm hn]

/-! ## Steps of drawing -/

theorem Model.rotateAll_eq [Scalar α] (degrees : α) (about : Point α) (children : List (String × Model α)) :
    rotateAll degrees about children = children.map fun (name, child) => (name, child.rotate degrees about) := by
  induction children with
  | nil => rfl
  | cons entry children ih =>
    obtain ⟨name, child⟩ := entry
    rw [rotateAll, ih]
    rfl

theorem Model.rotate_withLayer [Scalar α] (m : Model α) (layer : Layer) (degrees : α) (about : Point α) :
    (m.withLayer layer).rotate degrees about = (m.rotate degrees about).withLayer layer := by
  obtain ⟨origin, own, paths, children⟩ := m
  unfold withLayer
  rw [rotate, rotate]
  split
  · rfl
  · rfl

/-- A property of drawings with so many levels of children that no step of drawing loses. -/
structure Model.Kept [Scalar α] (P : Nat → Model α → Prop) : Prop where
  paths : ∀ {paths : Named (Path α)}, (names paths).Nodup → P 0 { paths := paths }
  succ : ∀ {levels m}, P levels m → P (levels + 1) m
  addPath : ∀ {levels m}, P levels m → ∀ name path, P levels (m.addPath name path)
  addChild : ∀ {levels m child}, P (levels + 1) m → P levels child → ∀ name, P (levels + 1) (m.addChild name child)
  rotate : ∀ {levels m}, P levels m → ∀ degrees about, P levels (m.rotate degrees about)
  moveTo : ∀ {levels m}, P levels m → ∀ origin, P levels (m.moveTo origin)

variable {P : Nat → Model α → Prop}

/-- The step draws something with the property, if it draws anything. -/
abbrev Model.Draws {ε : Type} (P : Nat → Model α → Prop) (levels : Nat) (step : Except ε (Model α)) : Prop :=
  step.Meets (P levels) fun _ => True

theorem Plate.draws_geometry {levels : Nat} {step : Except (GeometryError α) (Model α)}
    (h : Model.Draws P levels step) : Model.Draws P levels (Plate.geometry step) := by
  cases step with
  | error e => trivial
  | ok m => exact h

/-- What a step may draw has the property. -/
abbrev Plate.MayDraw (P : Nat → Model α → Prop) (levels : Nat)
    (step : Except (PlateError α) (Option (Model α))) : Prop :=
  step.Meets (fun m? => ∀ m, m? = some m → P levels m) fun _ => True

namespace Pattern

/-- Both sides of the pattern carry the same copper and the same mask, and these have the property. -/
inductive Has (P : Nat → Model α → Prop) : Pattern α → Prop
  | mirrored {copper mask : Model α} (hcopper : P 1 copper) (hmask : P 1 mask) : Has P (mirrored copper mask)

/-- The step finds a pattern with the property, if it finds any. -/
abbrev Drawn (P : Nat → Model α → Prop) (step : Except (PlateError α) (Pattern α)) : Prop :=
  step.Meets (Has P) fun _ => True

end Pattern

section Scalar
variable [Scalar α]

namespace Model.Kept

variable {levels : Nat} {m : Model α}

theorem empty (hP : Kept P) : P 0 {} := hP.paths List.nodup_nil

theorem rectangle (hP : Kept P) (left right upper lower : α) : P 0 (.rectangle left right upper lower) :=
  hP.paths (by simp [names])

theorem addFillet (hP : Kept P) (h : P levels m) (name first second : String) (radius : α) :
    Draws P levels (m.addFillet name first second radius) := by
  unfold Model.addFillet filletPaths
  split
  · trivial
  · split
    · trivial
    · split
      · trivial
      · exact hP.addPath (hP.addPath (hP.addPath h _ _) _ _) _ _

theorem filletCorners (hP : Kept P) (h : P levels m) (radius : α) : Draws P levels (m.filletCorners radius) :=
  Except.meets_foldlM h fun _ _ _ hm => hP.addFillet hm ..

end Model.Kept

/-! ## Cutouts and slots -/

namespace Aperture

theorem names_arcs (name : String) (radius : Decimal) (parts : List (Point α × α × α)) :
    names (arcs name radius parts) = (List.range parts.length).map fun i => name ++ toString i := by
  simp only [names, arcs, List.map_map, List.range_eq_range', ← List.zipIdx_map_snd 0 parts]
  rfl

/-- The names of the paths of a rectangle whose corners are cut out. -/
def dogboneNames : List String :=
  (List.range 4).map (fun i => "bigCornerArc" ++ toString i) ++
    (List.range 8).map (fun i => "extraArc" ++ toString i) ++ ["lineTop", "lineBottom", "lineLeft", "lineRight"]

theorem draws_dogbone (hP : Model.Kept P) (halfWidth halfHeight radius : Decimal) :
    Model.Draws P 0 (dogbone halfWidth halfHeight radius) := by
  have hnodup : dogboneNames.Nodup := by decide
  unfold dogbone
  iterate 12 refine Except.meets_bind fun _ => ?_
  refine hP.paths ?_
  rw [names_append, names_append, names_arcs, names_arcs]
  exact hnodup

theorem draws_upright (hP : Model.Kept P) (o : Options) : Model.Draws P 0 (upright o) := by
  unfold upright
  refine Except.meets_bind fun halfWidth => Except.meets_bind fun halfHeight => ?_
  dsimp only
  split
  · exact hP.rectangle ..
  · split
    · exact draws_dogbone hP ..
    · exact Plate.draws_geometry (hP.filletCorners (hP.rectangle ..) _)

end Aperture

theorem Key.draws_aperture (hP : Model.Kept P) (k : Key) (o : Options) : Model.Draws P 0 (k.aperture o) := by
  refine (Aperture.draws_upright hP o).bind fun m hm => ?_
  change P 0 (if k.isVertical = true then m.rotate (-90.0) .zero else m)
  split
  · exact hP.rotate hm _ _
  · exact hm

theorem CutoutProfile.mayDraw_cutout (hP : Model.Kept P) (p : CutoutProfile) (k : Key) (radius : Decimal) :
    Plate.MayDraw P 1 (p.cutout k radius) := by
  have hhole : Model.Draws P 0 (p.hole radius) := by
    unfold hole
    refine Except.meets_bind fun half => ?_
    dsimp only
    split
    · exact Plate.draws_geometry (hP.filletCorners (hP.rectangle ..) _)
    · exact hP.rectangle ..
  unfold cutout
  split
  · exact nofun
  · rename_i spacing _
    refine hhole.bind fun hole hhole => ?_
    have hleft := hP.addChild (hP.succ hP.empty) (hP.moveTo hhole ⟨Scalar.ofDecimal (-spacing), 0.0⟩) "left"
    have hpair := hP.addChild hleft (hP.moveTo hhole ⟨Scalar.ofDecimal spacing, 0.0⟩) "right"
    rintro m hm
    cases hm
    split
    · exact hP.rotate hpair _ _
    · exact hpair

theorem Key.mayDraw_stabilizer (hP : Model.Kept P) (k : Key) (o : Options) :
    Plate.MayDraw P 1 (k.stabilizer o) := by
  unfold Key.stabilizer
  split
  · exact nofun
  · exact CutoutProfile.mayDraw_cutout hP ..

theorem Key.mayDraw_acoustic (hP : Model.Kept P) (k : Key) (o : Options) : Plate.MayDraw P 1 (k.acoustic o) := by
  unfold Key.acoustic
  split
  · exact nofun
  · exact CutoutProfile.mayDraw_cutout hP ..

namespace Slot

variable {sketch : Sketch α} {levels : Nat}

/-- The step draws on a sketch something with the property, if it draws anything. -/
abbrev Sketches (P : Nat → Model α → Prop) (levels : Nat) (step : Except (PlateError α) (Sketch α)) : Prop :=
  step.Meets (fun sketch => P levels sketch.drawn) fun _ => True

theorem keeps_drawLines (hP : Model.Kept P) (h : P levels sketch.drawn) (lines : List (Point α × Point α)) :
    P levels (sketch.drawLines lines).1.drawn := by
  induction lines generalizing sketch with
  | nil => exact h
  | cons line lines ih => exact ih (hP.addPath h _ _)

theorem sketches_addFillet (hP : Model.Kept P) (h : P levels sketch.drawn) (radius : Decimal) (first second : String) :
    Sketches P levels (sketch.addFillet radius first second) :=
  (Plate.draws_geometry (hP.addFillet h ..)).bind fun _ hm => hm

theorem sketches_drawFillets (hP : Model.Kept P) (h : P levels sketch.drawn) (radius : Decimal) (names : List String)
    (pairs : List (Nat × Nat)) : Sketches P levels (sketch.drawFillets radius names pairs) := by
  unfold Sketch.drawFillets
  split
  · exact Except.meets_foldlM h fun _ _ _ hsketch => sketches_addFillet hP hsketch ..
  · exact h

theorem sketches_drawRounded (hP : Model.Kept P) (h : P levels sketch.drawn) (s : Slot) (signs : Decimal × Decimal) :
    Sketches P levels (s.drawRounded sketch signs) :=
  Except.meets_bind fun _ => sketches_drawFillets hP (keeps_drawLines hP h _) ..

theorem sketches_drawHalfRound (hP : Model.Kept P) (h : P levels sketch.drawn) (s : Slot) (corner : Nat)
    (signs : Decimal × Decimal) : Sketches P levels (s.drawHalfRound sketch corner signs) := by
  unfold drawHalfRound
  iterate 8 refine Except.meets_bind fun _ => ?_
  exact sketches_drawFillets hP (hP.addPath (hP.addPath (keeps_drawLines hP h _) _ _) _ _) ..

end Slot

theorem Options.draws_slots (hP : Model.Kept P) (o : Options) : Model.Draws P 0 o.slots := by
  refine Except.meets_bind fun s => ?_
  have hsketch : Slot.Sketches P 0 (Slot.quadrants.zipIdx.foldlM (fun sketch corner => do
      if ← s.isHalfRound then s.drawHalfRound sketch corner.2 corner.1 else s.drawRounded sketch corner.1) {}) := by
    refine Except.meets_foldlM hP.empty fun _ _ sketch hsketch => Except.meets_bind fun halfRound => ?_
    split
    · exact Slot.sketches_drawHalfRound hP hsketch ..
    · exact Slot.sketches_drawRounded hP hsketch ..
  exact hsketch.bind fun sketch h => h

/-! ## Patterns -/

theorem Outline.keeps_draw (hP : Model.Kept P) (contours : List (Polyline α)) : P 1 (draw contours) := by
  refine List.foldlRecOn _ _ (hP.succ hP.empty) fun m hm contour _ => ?_
  exact hP.addChild hm (hP.paths (nodup_ofEntries _)) _

theorem Model.draws_outline (hP : Model.Kept P) (m : Model α) (distance : α) (inside : Bool) :
    Model.Draws P 1 (m.outline distance inside) := by
  refine Except.meets_bind fun loops => ?_
  dsimp only
  split
  · trivial
  · exact Outline.keeps_draw hP _

namespace Pattern

/-- What is the same on both sides stays the same where all of it is turned and moved. -/
theorem place_mirrored (copper mask : Model α) (degrees : α) (origin : Point α) :
    (mirrored copper mask).place degrees origin =
      mirrored ((copper.rotate degrees .zero).moveTo origin) ((mask.rotate degrees .zero).moveTo origin) := by
  simp only [place, map, mirrored, Model.rotate_withLayer]
  rfl

theorem Has.place {p : Pattern α} (hP : Model.Kept P) (h : p.Has P) (degrees : α) (origin : Point α) :
    (p.place degrees origin).Has P := by
  cases h with
  | mirrored hcopper hmask =>
    rw [place_mirrored]
    exact .mirrored (hP.moveTo (hP.rotate hcopper _ _) _) (hP.moveTo (hP.rotate hmask _ _) _)

theorem drawn_around (hP : Model.Kept P) (base : Model α) (lineWidth expansion : Decimal) :
    Drawn P (around base lineWidth expansion) := by
  unfold around
  refine Except.meets_bind fun half => ?_
  refine (Plate.draws_geometry (base.draws_outline hP _ _)).bind fun copper hcopper => ?_
  refine Except.meets_bind fun sum => Except.meets_bind fun wide => ?_
  refine (Plate.draws_geometry (base.draws_outline hP _ _)).bind fun mask hmask => ?_
  exact .mirrored hcopper hmask

variable {m : Model α} {levels : Nat}

theorem keeps_drawArcs (hP : Model.Kept P) (h : P levels m) (name : String) (radius : Decimal)
    (parts : List (Point α × α × α)) : P levels (drawArcs name radius parts m) :=
  List.foldlRecOn _ _ h fun _ hm _ _ => hP.addPath hm _ _

theorem draws_inset (hP : Model.Kept P) (b : Bounds) (distance : Decimal) :
    Model.Draws P 0 (inset b distance) := by
  unfold inset
  iterate 4 refine Except.meets_bind fun _ => ?_
  exact hP.rectangle ..

theorem draws_drawCorners (hP : Model.Kept P) (h : P levels m) (b : Bounds) (plateRadius radius : Decimal) :
    Model.Draws P levels (drawCorners b plateRadius radius m) := by
  unfold drawCorners
  split
  · exact h
  · iterate 4 refine Except.meets_bind fun _ => ?_
    exact keeps_drawArcs hP h ..

theorem drawn_ofPlate (hP : Model.Kept P) (b : Bounds) (o : Options) : Drawn P (ofPlate b o) := by
  unfold ofPlate
  refine Except.meets_bind fun halfExpansion => Except.meets_bind fun halfLine => ?_
  refine (draws_inset hP b _).bind fun copper hcopper => ?_
  refine Except.meets_bind fun sum => Except.meets_bind fun wide => ?_
  refine (draws_inset hP b _).bind fun mask hmask => ?_
  split
  · refine Except.meets_bind fun radius => ?_
    refine (Plate.draws_geometry (hP.filletCorners hcopper _)).bind fun copper hcopper => ?_
    refine Except.meets_bind fun maskRadius => ?_
    have hcorners : ∀ mask : Model α, P 0 mask → Drawn P (do
        let arcRadius ← Plate.length (o.plateRadius.sub? halfLine)
        let copper ← drawCorners b o.plateRadius arcRadius copper
        let mask ← drawCorners b o.plateRadius (← Plate.length (arcRadius.sub? halfExpansion)) mask
        return mirrored copper mask) := by
      intro mask hmask
      refine Except.meets_bind fun arcRadius => ?_
      refine (draws_drawCorners hP hcopper b _ _).bind fun copper hcopper => ?_
      refine Except.meets_bind fun maskArc => ?_
      refine (draws_drawCorners hP hmask b _ _).bind fun mask hmask => ?_
      exact .mirrored (hP.succ hcopper) (hP.succ hmask)
    split
    · exact (Plate.draws_geometry (hP.filletCorners hmask _)).bind hcorners
    · exact hcorners mask hmask
  · exact .mirrored (hP.succ hcopper) (hP.succ hmask)

theorem keeps_housingCorners (hP : Model.Kept P) (x y radius : Decimal) : P 0 (housingCorners x y radius) := by
  unfold housingCorners
  split
  · exact hP.empty
  · exact keeps_drawArcs hP hP.empty ..

theorem drawn_ofSlotCorners (hP : Model.Kept P) (o : Options) : Drawn P (ofSlotCorners o) := by
  unfold ofSlotCorners
  iterate 6 refine Except.meets_bind fun _ => ?_
  exact .mirrored (hP.succ (keeps_housingCorners hP ..)) (hP.succ (keeps_housingCorners hP ..))

end Pattern

end Scalar

/-! ## Plates -/

namespace Plate

/-- The words for what stands for itself on a plate. -/
def cutWords : List String := ["Switch", "Stabilizer", "Acoustic", "ExtremeSlot", "BoundingBox"]

/-- The words for what has a pattern around it. -/
def patternWords : List String := ["Switch", "Stabilizer", "Acoustic", "Slot", "Plate"]

/-- Where a drawing on a plate comes from. -/
inductive Placed (P : Nat → Model α → Prop) (things : Named (Model α)) : String × Model α → Prop
  /-- It stands for itself. -/
  | cut {word number : String} {base m : Model α} (hword : word ∈ cutWords) (hnumber : IsNumber number)
      (hbase : P 1 base) (hm : m = base ∨ m = base.withLayer .plate) : Placed P things (word ++ number, m)
  /-- It is a layer of a pattern whose layers are all there. -/
  | layer {p : Pattern α} {word tail number : String} {entry : String × Model α} (hword : word ∈ patternWords)
      (htail : tail ∈ ["", "Corner"]) (hnumber : IsNumber number) (hp : p.Has P)
      (hall : p.entries word (tail ++ number) ⊆ things) (hentry : entry ∈ p.entries word (tail ++ number)) :
      Placed P things entry

/-- All these drawings come from somewhere. -/
def AllPlaced (P : Nat → Model α → Prop) (things : Named (Model α)) : Prop := ∀ e ∈ things, Placed P things e

section Placed
variable {things others : Named (Model α)} {entry : String × Model α}

theorem Placed.mono (h : Placed P things entry) (hsub : things ⊆ others) : Placed P others entry := by
  cases h with
  | cut hword hnumber hbase hm => exact .cut hword hnumber hbase hm
  | layer hword htail hnumber hp hall hentry => exact .layer hword htail hnumber hp (List.Subset.trans hall hsub) hentry

theorem allPlaced_nil : AllPlaced P [] := fun _ he => by cases he

theorem AllPlaced.append (h : AllPlaced P things) (h' : AllPlaced P others) : AllPlaced P (things ++ others) := by
  intro e he
  rcases List.mem_append.mp he with he | he
  · exact (h e he).mono (List.subset_append_left _ _)
  · exact (h' e he).mono (List.subset_append_right _ _)

theorem allPlaced_cut {word number : String} {base m : Model α} (hword : word ∈ cutWords)
    (hnumber : IsNumber number) (hbase : P 1 base) (hm : m = base ∨ m = base.withLayer .plate) :
    AllPlaced P [(word ++ number, m)] := by
  intro e he
  obtain rfl := List.mem_singleton.mp he
  exact .cut hword hnumber hbase hm

theorem allPlaced_entries {p : Pattern α} {word tail number : String} (hword : word ∈ patternWords)
    (htail : tail ∈ ["", "Corner"]) (hnumber : IsNumber number) (hp : p.Has P) :
    AllPlaced P (p.entries word (tail ++ number)) :=
  fun _ he => .layer hword htail hnumber hp (List.Subset.refl _) he

end Placed

/-- The step makes drawings that come from somewhere, if it makes any. -/
abbrev Makes (P : Nat → Model α → Prop) (step : Except (PlateError α) (Named (Model α))) : Prop :=
  step.Meets (AllPlaced P) fun _ => True

section Blocks
variable [Scalar α] {o : Options} {number : String} {base m : Model α}

theorem makes_withPattern (hP : Model.Kept P) {word patternWord : String} (hword : word ∈ cutWords)
    (hpattern : patternWord ∈ patternWords) (hnumber : IsNumber number) (hbase : P 1 base)
    (hm : m = base ∨ m = base.withLayer .plate) (wanted : Bool) (lineWidth expansion : Decimal) :
    Makes P (withPattern wanted m lineWidth expansion word patternWord number) := by
  have haround : Makes P (patternIf wanted m lineWidth expansion patternWord number) := by
    unfold patternIf
    split
    · refine (Pattern.drawn_around hP ..).bind fun pattern hp => ?_
      have hentries : AllPlaced P (pattern.entries patternWord ("" ++ number)) :=
        allPlaced_entries hpattern (by simp) hnumber hp
      rwa [String.empty_append] at hentries
    · exact allPlaced_nil
  exact haround.bind fun pattern hp => (allPlaced_cut hword hnumber hbase hm).append hp

theorem makes_cutoutBlock (hP : Model.Kept P) {cutout : Except (PlateError α) (Option (Model α))}
    (h : MayDraw P 1 cutout) {word : String} (hword : word ∈ cutWords) (hpattern : word ∈ patternWords)
    (hnumber : IsNumber number) (wanted : Bool) (lineWidth expansion : Decimal) (p : Pose α) :
    Makes P (cutoutBlock cutout wanted lineWidth expansion word number p) := by
  refine h.bind fun cutout hcutout => ?_
  cases cutout with
  | none => exact allPlaced_nil
  | some m =>
    have hplaced := hP.rotate (hP.moveTo (hcutout m rfl) p.origin) p.cutoutAngle p.origin
    exact makes_withPattern hP hword hpattern hnumber hplaced (.inr rfl) ..

theorem makes_slotBlock (hP : Model.Kept P) (hnumber : IsNumber number) (o : Options) (p : Pose α) :
    Makes P (slotBlock o number p) := by
  unfold slotBlock
  split
  · refine (o.draws_slots hP).bind fun m hm => ?_
    have hcorners : Makes P (cornerBlock o number p) := by
      unfold cornerBlock
      split
      · refine (Pattern.drawn_ofSlotCorners hP o).bind fun pattern hp => ?_
        exact allPlaced_entries (by decide) (by simp) hnumber (hp.place hP _ _)
      · exact allPlaced_nil
    have hplaced := hP.moveTo (hP.rotate (hP.succ hm) p.switchAngle .zero) p.origin
    refine (makes_withPattern hP (by decide) (by decide) hnumber hplaced (.inr rfl) ..).bind fun block hblock => ?_
    exact hcorners.bind fun corners hc => hblock.append hc
  · exact allPlaced_nil

theorem makes_keyBlock (hP : Model.Kept P) (o : Options) (id : Nat) (k : Key) : Makes P (keyBlock o id k) := by
  have hnumber := isNumber_toString id
  unfold keyBlock
  refine Except.meets_bind fun p => ?_
  have hswitch : Makes P (switchBlock o (toString id) p k) := by
    refine (k.draws_aperture hP o).bind fun m hm => ?_
    have hplaced := hP.moveTo (hP.rotate (hP.succ hm) p.switchAngle .zero) p.origin
    exact makes_withPattern hP (by decide) (by decide) hnumber hplaced (.inl rfl) ..
  refine hswitch.bind fun switch hswitch => ?_
  refine (makes_cutoutBlock hP (k.mayDraw_stabilizer hP o) (by decide) (by decide) hnumber ..).bind
    fun stabilizer hstabilizer => ?_
  refine (makes_cutoutBlock hP (k.mayDraw_acoustic hP o) (by decide) (by decide) hnumber ..).bind
    fun acoustic hacoustic => ?_
  refine (makes_slotBlock hP hnumber o p).bind fun slot hslot => ?_
  exact ((hswitch.append hstabilizer).append hacoustic).append hslot

theorem allPlaced_keyBlocks (hP : Model.Kept P) (o : Options) (id : Nat) (keys : List Key) :
    (keyBlocks o id keys).Meets (fun blocks => AllPlaced P (blocks.flatMap (·.2))) fun _ => True := by
  induction keys generalizing id with
  | nil => exact allPlaced_nil
  | cons k keys ih =>
    rw [keyBlocks_cons]
    have hplace : (place o id k).Meets (fun block => AllPlaced P block.2) fun _ => True := by
      unfold place
      split
      · trivial
      · exact (makes_keyBlock hP o id k).bind fun block hblock => hblock
    refine hplace.bind fun block hblock => ?_
    refine (ih (id + 1)).bind fun blocks hblocks => ?_
    change AllPlaced P ((block :: blocks).flatMap (·.2))
    rw [List.flatMap_cons]
    exact hblock.append hblocks

theorem makes_ownBlock (hP : Model.Kept P) (b : Bounds) (o : Options) : Makes P (ownBlock b o) := by
  have hedge : (edge b o).Meets (fun m => ∃ base, P 1 base ∧ m = base.withLayer .plate) fun _ => True := by
    unfold edge
    dsimp only
    split
    · refine (draws_geometry (hP.filletCorners (hP.rectangle ..) _)).bind fun m hm => ?_
      exact ⟨m, hP.succ hm, rfl⟩
    · exact ⟨_, hP.succ (hP.rectangle ..), rfl⟩
  unfold ownBlock
  refine hedge.bind fun outline ⟨base, hbase, houtline⟩ => ?_
  have hcut : AllPlaced P [("BoundingBox0", outline)] :=
    allPlaced_cut (by decide : "BoundingBox" ∈ cutWords) (isNumber_toString 0) hbase (.inr houtline)
  split
  · refine (Pattern.drawn_ofPlate hP b o).bind fun pattern hp => ?_
    have hentries : AllPlaced P (pattern.entries "Plate" ("" ++ "")) :=
      allPlaced_entries (by decide) (by simp) isNumber_empty hp
    exact hcut.append hentries
  · exact hcut

/-- All drawings of a plate come from somewhere, and those without a layer are then put on the plate's. -/
theorem allPlaced_build (hP : Model.Kept P) {keys : List Key} {plate : Plate α} (h : build keys o = .ok plate) :
    ∃ entries, AllPlaced P entries ∧ (names entries).Nodup ∧
      plate.models = entries.map fun (name, m) => (name, withDefaultLayer m) := by
  obtain ⟨blocks, own, hblocks, -, hown, hnodup, hmodels⟩ := build_ok h
  have hkeys := (allPlaced_keyBlocks hP o 0 keys).of_eq_ok hblocks
  have howned := (makes_ownBlock hP plate.bounds o).of_eq_ok hown
  exact ⟨_, hkeys.append howned, hnodup, hmodels⟩

end Blocks

end Plate

end KeyboardPlate
