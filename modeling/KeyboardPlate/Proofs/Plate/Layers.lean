import KeyboardPlate.Proofs.Model.Walk
import KeyboardPlate.Proofs.Plate.Drawn

/-!
# Layers of a plate

Every drawing of a plate is on the layer that its name tells, and so is each path below it. What is on the
copper or in the mask of one side of the plate is on the other side as well.
-/

set_option autoImplicit false

namespace KeyboardPlate

open Named

variable {α : Type}

namespace Model

/-! ## Drawings without layers -/

/-- No drawing of the tree has a layer, and there are at most `levels` levels of children. -/
def Bare : (levels : Nat) → Model α → Prop
  | 0, m => m.layer = none ∧ m.children = []
  | levels + 1, m => m.layer = none ∧ ∀ c ∈ m.children, Bare levels c.2

/-- The drawing without a layer of its own. -/
def withoutLayer (m : Model α) : Model α := { m with layer := none }

theorem isEmpty_withLayer (m : Model α) (layer : Layer) : (m.withLayer layer).isEmpty = m.isEmpty := by
  cases m
  rfl

variable {levels : Nat} {m : Model α}

theorem Bare.layer_eq (h : m.Bare levels) : m.layer = none := by
  cases levels with
  | zero => exact h.1
  | succ levels => exact h.1

theorem Bare.of_children_eq {other : Model α} (h : m.Bare levels) (hlayer : other.layer = m.layer)
    (hchildren : other.children = m.children) : other.Bare levels := by
  cases levels with
  | zero => exact ⟨hlayer.trans h.1, hchildren.trans h.2⟩
  | succ levels =>
    refine ⟨hlayer.trans h.1, ?_⟩
    rw [hchildren]
    exact h.2

theorem Bare.succ (h : m.Bare levels) : m.Bare (levels + 1) := by
  induction levels generalizing m with
  | zero =>
    refine ⟨h.1, ?_⟩
    rw [h.2]
    exact fun c hc => by cases hc
  | succ levels ih => exact ⟨h.1, fun c hc => ih (h.2 c hc)⟩

theorem Bare.addChild {child : Model α} (h : m.Bare (levels + 1)) (hchild : child.Bare levels) (name : String) :
    (m.addChild name child).Bare (levels + 1) := by
  refine ⟨h.1, fun c hc => ?_⟩
  rcases mem_put hc with rfl | hc
  · exact hchild
  · exact h.2 c hc

theorem Bare.rotate [Scalar α] (h : m.Bare levels) (degrees : α) (about : Point α) :
    (m.rotate degrees about).Bare levels := by
  induction levels generalizing m about with
  | zero =>
    obtain ⟨origin, layer, paths, children⟩ := m
    obtain ⟨hlayer, rfl⟩ := h
    rw [Model.rotate]
    split
    · exact ⟨hlayer, rfl⟩
    · exact ⟨hlayer, rfl⟩
  | succ levels ih =>
    obtain ⟨origin, layer, paths, children⟩ := m
    obtain ⟨hlayer, hall⟩ := h
    rw [Model.rotate]
    split
    · exact ⟨hlayer, hall⟩
    · dsimp only
      rw [rotateAll_eq]
      refine ⟨hlayer, fun c hc => ?_⟩
      obtain ⟨⟨name, child⟩, hchild, rfl⟩ := List.mem_map.mp hc
      exact ih (hall _ hchild) _

theorem kept_bare [Scalar α] : Kept (Bare (α := α)) where
  paths _ := ⟨rfl, rfl⟩
  succ h := h.succ
  addPath h _ _ := h.of_children_eq rfl rfl
  addChild h := h.addChild
  rotate h := h.rotate
  moveTo h _ := h.of_children_eq rfl rfl

/-- Without layers below it, everything in a drawing is on the layer that holds where it stands. -/
theorem Bare.layer_of_mem_walkFrom [Quantity α] (h : m.Bare levels) (offset : Point α) (layer : Layer)
    (route : String) : ∀ w ∈ m.walkFrom offset layer route, w.layer = layer := by
  induction levels generalizing m offset route with
  | zero =>
    obtain ⟨origin, own, paths, children⟩ := m
    obtain ⟨rfl, rfl⟩ := h
    intro w hw
    simp only [walkFrom, walkAll, List.append_nil] at hw
    obtain ⟨entry, -, rfl⟩ := List.mem_map.mp hw
    rfl
  | succ levels ih =>
    obtain ⟨origin, own, paths, children⟩ := m
    obtain ⟨rfl, hall⟩ := h
    intro w hw
    rw [walkFrom] at hw
    rcases List.mem_append.mp hw with hw | hw
    · obtain ⟨entry, -, rfl⟩ := List.mem_map.mp hw
      rfl
    · rw [walkAll_eq] at hw
      obtain ⟨entry, hentry, hw⟩ := List.mem_flatMap.mp hw
      exact ih (hall entry hentry) _ _ w hw

theorem walkFrom_withLayer [Quantity α] (h : m.layer = none) (offset : Point α) (layer own : Layer)
    (route : String) : (m.withLayer own).walkFrom offset layer route = m.walkFrom offset own route := by
  obtain ⟨origin, _, paths, children⟩ := m
  obtain rfl := h
  rfl

end Model

namespace Plate

/-! ## Layers by name -/

/-- A name up to its number. -/
def stem (name : String) : List Char := name.toList.takeWhile fun c => !c.isDigit

/-- The words for layers in names. -/
def layerWords : List (String × Layer) :=
  [("TopSolder", .topSolderMask), ("BottomSolder", .bottomSolderMask), ("Top", .top), ("Bottom", .bottom)]

/-- The layer whose word ends the text, perhaps with `Corner` behind it. Without such a word it is the
layer of the plate. -/
def layerOfStem (stem : List Char) : Layer :=
  ((layerWords.find? fun entry => entry.1.toList <:+ stem ∨ (entry.1 ++ "Corner").toList <:+ stem).map
    (·.2)).getD .plate

/-- The layer that the name of a drawing tells. -/
def layerNamed (name : String) : Layer := layerOfStem (stem name)

theorem layerNamed_append {word number : String} (hw : IsWord word) (hn : IsNumber number) :
    layerNamed (word ++ number) = layerOfStem word.toList := by
  unfold layerNamed stem
  rw [takeWhile_word_append hw hn]

example : layerNamed "SlotTopSolderCorner12" = .topSolderMask := by decide

/-- The words for the sides of a plate. -/
def sides : List String := ["Top", "Bottom"]

/-- What follows the side in the name of copper, and in that of a mask. -/
def kinds : List String := ["", "Solder"]

/-- What is drawn on both sides. -/
def sheet (copper mask : Model α) (kind : String) : Model α := if kind = "Solder" then mask else copper

theorem layers_mirrored (copper mask : Model α) : (Pattern.mirrored copper mask).layers =
    kinds.flatMap fun kind => sides.map fun side =>
      (side ++ kind, (sheet copper mask kind).withLayer (layerOfStem (side ++ kind).toList)) := by
  rfl

theorem isWord_layer {word side kind tail : String} (hword : word ∈ patternWords) (hside : side ∈ sides)
    (hkind : kind ∈ kinds) (htail : tail ∈ ["", "Corner"]) : IsWord (word ++ (side ++ kind) ++ tail) := by
  have hall : ∀ text ∈ patternWords ++ sides ++ kinds ++ ["", "Corner"], IsWord text := by decide
  have hlayer : IsWord (side ++ kind) := isWord_append (hall side (by simp [hside])) (hall kind (by simp [hkind]))
  exact isWord_append (isWord_append (hall word (by simp [hword])) hlayer) (hall tail (by simp_all))

theorem layerOfStem_layer : ∀ word ∈ patternWords, ∀ side ∈ sides, ∀ kind ∈ kinds, ∀ tail ∈ ["", "Corner"],
    layerOfStem (word ++ (side ++ kind) ++ tail).toList = layerOfStem (side ++ kind).toList := by
  decide +kernel

theorem isWord_cut : ∀ word ∈ cutWords, IsWord word := by decide

theorem layerOfStem_cut : ∀ word ∈ cutWords, layerOfStem word.toList = .plate := by decide

theorem mem_entries_iff {copper mask : Model α} {before after : String} {entry : String × Model α} :
    entry ∈ (Pattern.mirrored copper mask).entries before after ↔
      ∃ kind ∈ kinds, ∃ side ∈ sides, (sheet copper mask kind).isEmpty = false ∧
        entry = (before ++ (side ++ kind) ++ after,
          (sheet copper mask kind).withLayer (layerOfStem (side ++ kind).toList)) := by
  unfold Pattern.entries
  rw [layers_mirrored]
  constructor
  · intro h
    obtain ⟨layer, hlayer, rfl⟩ := List.mem_map.mp h
    obtain ⟨hmem, hdrawn⟩ := List.mem_filter.mp hlayer
    obtain ⟨kind, hkind, hmem⟩ := List.mem_flatMap.mp hmem
    obtain ⟨side, hside, rfl⟩ := List.mem_map.mp hmem
    rw [Model.isEmpty_withLayer, Bool.not_eq_true'] at hdrawn
    exact ⟨kind, hkind, side, hside, hdrawn, rfl⟩
  · rintro ⟨kind, hkind, side, hside, hdrawn, rfl⟩
    refine List.mem_map.mpr ⟨(side ++ kind, _), List.mem_filter.mpr ⟨?_, ?_⟩, rfl⟩
    · exact List.mem_flatMap.mpr ⟨kind, hkind, List.mem_map.mpr ⟨side, hside, rfl⟩⟩
    · rw [Model.isEmpty_withLayer, Bool.not_eq_true', hdrawn]

section Placed
variable {things : Named (Model α)} {entry : String × Model α}

/-- What is placed on a plate ends up on the layer of its name, and nothing below it has a layer. -/
theorem Placed.exists_bare (h : Placed Model.Bare things entry) :
    ∃ base : Model α, base.Bare 1 ∧ withDefaultLayer entry.2 = base.withLayer (layerNamed entry.1) := by
  cases h with
  | @cut word number base m hword hnumber hbase hm =>
    refine ⟨base, hbase, ?_⟩
    rw [layerNamed_append (isWord_cut word hword) hnumber, layerOfStem_cut word hword]
    rcases hm with rfl | rfl
    · unfold withDefaultLayer
      rw [hbase.layer_eq]
    · rfl
  | @layer _ word tail number _ hword htail hnumber hp hall hentry =>
    obtain @⟨copper, mask, hcopper, hmask⟩ := hp
    obtain ⟨kind, hkind, side, hside, -, rfl⟩ := mem_entries_iff.mp hentry
    have hsheet : (sheet copper mask kind).Bare 1 := by
      unfold sheet
      split
      · exact hmask
      · exact hcopper
    refine ⟨sheet copper mask kind, hsheet, ?_⟩
    have hw := isWord_layer hword hside hkind htail
    rw [← String.append_assoc, layerNamed_append hw hnumber,
      layerOfStem_layer word hword side hside kind hkind tail htail]
    rfl

end Placed

/-! ## Twins -/

/-- The first letter of a side is nowhere else in the name of a layer. -/
theorem exists_initial : ∀ side ∈ sides, ∃ initial rest, side.toList = initial :: rest ∧
    initial.isDigit = false ∧ initial ∉ rest ∧ (∀ other ∈ sides, initial ∈ other.toList → other = side) ∧
    ∀ text ∈ patternWords ++ kinds ++ ["", "Corner"], initial ∉ text.toList := by
  intro side hside
  rcases List.mem_pair.mp hside with rfl | rfl
  · exact ⟨'T', ['o', 'p'], by decide⟩
  · exact ⟨'B', ['o', 't', 't', 'o', 'm'], by decide⟩

theorem layer_name_inj {before after word kind tail number side other : String} (hword : word ∈ patternWords)
    (hkind : kind ∈ kinds) (htail : tail ∈ ["", "Corner"]) (hnumber : IsNumber number) (hside : side ∈ sides)
    (hother : other ∈ sides) (h : before ++ side ++ after = word ++ (other ++ kind) ++ (tail ++ number)) :
    other = side ∧ before = word ∧ after = kind ++ (tail ++ number) := by
  obtain ⟨initial, rest, hinitial, hdigit, hrest, hsides, htexts⟩ := exists_initial side hside
  have hw : initial ∉ word.toList := htexts word (by simp [hword])
  have hk : initial ∉ kind.toList := htexts kind (by simp [hkind])
  have ht : initial ∉ tail.toList := htexts tail (by simp_all)
  have hn : initial ∉ number.toList := not_mem_number hnumber hdigit
  -- the initial is in no other part on the right, so both sides have the name of the side in one place
  have hlists : before.toList ++ initial :: (rest ++ after.toList) =
      word.toList ++ (other.toList ++ (kind.toList ++ (tail.toList ++ number.toList))) := by
    have := congrArg String.toList h
    simpa [String.toList_append, hinitial] using this
  have hmem : initial ∈ other.toList := by
    have := hlists ▸ List.mem_append_right before.toList (List.mem_cons_self (a := initial))
    simpa [hw, hk, ht, hn] using this
  obtain rfl := hsides other hother hmem
  rw [hinitial, List.cons_append] at hlists
  have hafter : initial ∉ rest ++ (kind.toList ++ (tail.toList ++ number.toList)) := by
    simp [hrest, hk, ht, hn]
  obtain ⟨hb, -, ha⟩ := (List.append_cons_inj_of_notMem hw hafter).mp hlists.symm
  refine ⟨rfl, String.toList_inj.mp hb.symm, String.toList_inj.mp ?_⟩
  rw [String.toList_append, String.toList_append]
  exact (List.append_cancel_left ha).symm

theorem any_not_mem_cut : ∀ side ∈ sides, ∀ word ∈ cutWords,
    (side.toList.any fun c => !word.toList.contains c && !c.isDigit) = true := by
  decide

theorem cut_name_ne {before after word number side : String} (hside : side ∈ sides) (hword : word ∈ cutWords)
    (hnumber : IsNumber number) : before ++ side ++ after ≠ word ++ number := by
  intro h
  obtain ⟨c, hc, hnot⟩ := List.any_eq_true.mp (any_not_mem_cut side hside word hword)
  obtain ⟨hw, hdigit⟩ : c ∉ word.toList ∧ c.isDigit = false := by simpa using hnot
  have hmem : c ∈ (word ++ number).toList := by
    rw [← h, String.toList_append, String.toList_append]
    exact List.mem_append_left _ (List.mem_append_right _ hc)
  rw [String.toList_append] at hmem
  rcases List.mem_append.mp hmem with hmem | hmem
  · exact hw hmem
  · exact not_mem_number hnumber hdigit hmem

section Twins
variable {P : Nat → Model α → Prop} {things : Named (Model α)} {before after side other : String} {m : Model α}

theorem Placed.exists_twin (hside : side ∈ sides) (hother : other ∈ sides)
    (h : Placed P things (before ++ side ++ after, m)) :
    ∃ twin, (before ++ other ++ after, twin) ∈ things ∧ twin.withoutLayer = m.withoutLayer := by
  generalize hname : before ++ side ++ after = name at h
  cases h with
  | cut hword hnumber hbase hm => exact absurd hname (cut_name_ne hside hword hnumber)
  | @layer _ word tail number _ hword htail hnumber hp hall hentry =>
    obtain @⟨copper, mask, -, -⟩ := hp
    obtain ⟨kind, hkind, found, hfound, hdrawn, heq⟩ := mem_entries_iff.mp hentry
    obtain ⟨rfl, rfl⟩ := Prod.mk.inj heq
    obtain ⟨rfl, rfl, rfl⟩ := layer_name_inj hword hkind htail hnumber hside hfound hname
    let twin := (sheet copper mask kind).withLayer (layerOfStem (other ++ kind).toList)
    have htwin : (before ++ (other ++ kind) ++ (tail ++ number), twin) ∈
        (Pattern.mirrored copper mask).entries before (tail ++ number) :=
      mem_entries_iff.mpr ⟨kind, hkind, other, hother, hdrawn, rfl⟩
    refine ⟨twin, ?_, rfl⟩
    simpa only [String.append_assoc] using hall htwin

theorem withoutLayer_withDefaultLayer (m : Model α) : (withDefaultLayer m).withoutLayer = m.withoutLayer := by
  unfold withDefaultLayer
  split
  · rfl
  · rfl

end Twins

/-- What is drawn under a name. -/
def walkUnder [Quantity α] (entry : String × Model α) : List (WalkedPath α) :=
  ({ children := [entry] } : Model α).walk

theorem walkUnder_eq [Quantity α] (entry : String × Model α) : walkUnder entry =
    entry.2.walkFrom (.zero + .zero) .plate ("" ++ "models/" ++ entry.1 ++ "/") :=
  List.append_nil _

theorem walk_toModel [Quantity α] (plate : Plate α) : plate.toModel.walk = plate.models.flatMap walkUnder := by
  rw [funext walkUnder_eq, ← Model.walkAll_eq]
  rfl

section Build
variable [Scalar α] {keys : List Key} {o : Options} {plate : Plate α} {before after side other : String}
  {m : Model α}

theorem exists_bare_of_build (h : build keys o = .ok plate) :
    ∀ e ∈ plate.models, ∃ base : Model α, base.Bare 1 ∧ e.2 = base.withLayer (layerNamed e.1) := by
  obtain ⟨entries, hplaced, -, hmodels⟩ := allPlaced_build Model.kept_bare h
  rw [hmodels]
  intro e he
  obtain ⟨entry, hentry, rfl⟩ := List.mem_map.mp he
  exact (hplaced entry hentry).exists_bare

theorem nodup_names_of_build (h : build keys o = .ok plate) : (names plate.models).Nodup := by
  obtain ⟨entries, -, hnodup, hmodels⟩ := allPlaced_build Model.kept_bare h
  rwa [hmodels, names_map]

theorem exists_twin_of_build (h : build keys o = .ok plate) (hside : side ∈ sides) (hother : other ∈ sides)
    (hm : (before ++ side ++ after, m) ∈ plate.models) :
    ∃ twin, (before ++ other ++ after, twin) ∈ plate.models ∧ twin.withoutLayer = m.withoutLayer := by
  obtain ⟨entries, hplaced, -, hmodels⟩ := allPlaced_build Model.kept_bare h
  rw [hmodels] at hm ⊢
  obtain ⟨⟨name, thing⟩, hthing, heq⟩ := List.mem_map.mp hm
  obtain ⟨rfl, rfl⟩ := Prod.mk.inj heq
  obtain ⟨twin, htwin, hsame⟩ := (hplaced _ hthing).exists_twin hside hother
  refine ⟨_, List.mem_map.mpr ⟨_, htwin, rfl⟩, ?_⟩
  rw [withoutLayer_withDefaultLayer, withoutLayer_withDefaultLayer, hsame]

theorem get?_twin (h : build keys o = .ok plate) (hside : side ∈ sides) (hother : other ∈ sides)
    (hm : get? (before ++ side ++ after) plate.models = some m) :
    ∃ twin, get? (before ++ other ++ after) plate.models = some twin ∧ twin.withoutLayer = m.withoutLayer := by
  have hnodup := nodup_names_of_build h
  obtain ⟨twin, htwin, hsame⟩ := exists_twin_of_build h hside hother ((get?_eq_some_iff hnodup).mp hm)
  exact ⟨twin, (get?_eq_some_iff hnodup).mpr htwin, hsame⟩

/-- Each drawing of a plate is on the layer that its name tells, and the walk finds all its paths there.
What is drawn on one side of the plate, copper or mask, is drawn on the other side as well, under the name
with the other side in it. -/
theorem build_layers (h : build keys o = .ok plate) :
    (∀ e ∈ plate.models, e.2.layer = some (layerNamed e.1)) ∧
    (plate.toModel.walk = plate.models.flatMap walkUnder ∧
      ∀ e ∈ plate.models, ∀ w ∈ walkUnder e, e.2.layer = some w.layer) ∧
    ∀ before after : String,
      (get? (before ++ "Top" ++ after) plate.models).map Model.withoutLayer =
        (get? (before ++ "Bottom" ++ after) plate.models).map Model.withoutLayer := by
  refine ⟨?_, ⟨walk_toModel plate, ?_⟩, ?_⟩
  · intro e he
    obtain ⟨base, -, heq⟩ := exists_bare_of_build h e he
    rw [heq]
    rfl
  · intro e he w hw
    obtain ⟨base, hbare, heq⟩ := exists_bare_of_build h e he
    rw [walkUnder_eq, heq, Model.walkFrom_withLayer hbare.layer_eq] at hw
    rw [heq, hbare.layer_of_mem_walkFrom _ _ _ w hw]
    rfl
  · intro before after
    cases htop : get? (before ++ "Top" ++ after) plate.models with
    | some m =>
      obtain ⟨twin, htwin, hsame⟩ := get?_twin h (by decide) (by decide : "Bottom" ∈ sides) htop
      rw [htwin, Option.map_some, Option.map_some, hsame]
    | none =>
      -- a drawing on the other side would have its twin here
      cases hbottom : get? (before ++ "Bottom" ++ after) plate.models with
      | none => rfl
      | some m =>
        obtain ⟨twin, htwin, -⟩ := get?_twin h (by decide) (by decide : "Top" ∈ sides) hbottom
        rw [htop] at htwin
        cases htwin

theorem unitAndWide_layers : ∃ plate : Plate Float, build [unitKey, wideKey] sharpOptions = .ok plate ∧
    (∃ m, ("BoundingBox0", m) ∈ plate.models ∧ m.layer = some .plate) ∧
    ∃ top bottom, get? "PlateTopSolder" plate.models = some top ∧ top.layer = some .topSolderMask ∧
      get? "PlateBottomSolder" plate.models = some bottom ∧ bottom.layer = some .bottomSolderMask ∧
      top.withoutLayer = bottom.withoutLayer ∧ ∀ w ∈ walkUnder ("PlateTopSolder", top), w.layer = .topSolderMask := by
  have hnames : (match build (α := Float) [unitKey, wideKey] sharpOptions with
      | .ok plate => decide ("BoundingBox0" ∈ names plate.models ∧ "PlateTopSolder" ∈ names plate.models)
      | .error _ => false) = true := by
    decide +kernel
  split at hnames
  · rename_i plate h
    obtain ⟨hbox, htop⟩ := of_decide_eq_true hnames
    obtain ⟨hlayers, ⟨-, hwalk⟩, htwins⟩ := build_layers h
    have hnodup := nodup_names_of_build h
    obtain ⟨⟨name, box⟩, hbox, rfl⟩ := List.mem_map.mp hbox
    obtain ⟨⟨name, top⟩, htop, rfl⟩ := List.mem_map.mp htop
    have hfound := (get?_eq_some_iff hnodup).mpr htop
    have htwin : (get? "PlateTopSolder" plate.models).map Model.withoutLayer =
        (get? "PlateBottomSolder" plate.models).map Model.withoutLayer := htwins "Plate" "Solder"
    rw [hfound] at htwin
    obtain ⟨bottom, hbottom, hsame⟩ := Option.map_eq_some_iff.mp htwin.symm
    have hboxLayer : box.layer = some .plate := by
      rw [hlayers _ hbox]
      exact congrArg some (by decide : layerNamed "BoundingBox0" = .plate)
    have htopLayer : top.layer = some .topSolderMask := by
      rw [hlayers _ htop]
      exact congrArg some (by decide : layerNamed "PlateTopSolder" = .topSolderMask)
    have hbottomLayer : bottom.layer = some .bottomSolderMask := by
      rw [hlayers _ ((get?_eq_some_iff hnodup).mp hbottom)]
      exact congrArg some (by decide : layerNamed "PlateBottomSolder" = .bottomSolderMask)
    refine ⟨plate, h, ⟨box, hbox, hboxLayer⟩, top, bottom, hfound, htopLayer, hbottom, hbottomLayer,
      hsame.symm, fun w hw => ?_⟩
    have hlayer : top.layer = some w.layer := hwalk _ htop w hw
    rw [htopLayer] at hlayer
    exact (Option.some.inj hlayer).symm
  · cases hnames

end Build

end Plate

end KeyboardPlate
