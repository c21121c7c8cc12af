import KeyboardPlate.Proofs.Drawing.Element
import KeyboardPlate.Proofs.Drawing.Entity
import KeyboardPlate.Proofs.Model.RoundTrip

/-!
# Entities in the exports of a drawing

A reader of any export can count its entities: in a DXF text the pairs of code zero in the section of entities, in
an SVG text the moves of all path data, in JSON the objects that tell their type. There are as many as the drawing
has paths, and which exports there are depends on the walk alone.
-/

set_option autoImplicit false

namespace KeyboardPlate

open Named

/-! ## JSON -/

namespace Json

/-- Whether a member tells the type of its object. -/
def isType : String × Json → Bool
  | (name, .string _) => name == "type"
  | _ => false

mutual

/-- The number of objects anywhere in a value that tell their type. -/
def typedCount : Json → Nat
  | array items => itemsTyped items
  | object members => (if members.any isType then 1 else 0) + membersTyped members
  | _ => 0

def itemsTyped : List Json → Nat
  | [] => 0
  | item :: rest => item.typedCount + itemsTyped rest

def membersTyped : List (String × Json) → Nat
  | [] => 0
  | (_, value) :: rest => value.typedCount + membersTyped rest

end

theorem typedCount_object {members : List (String × Json)} (h : members.any isType = false) :
    (object members).typedCount = membersTyped members := by
  rw [typedCount, h]
  simp

theorem membersTyped_object {name : String} {members : List (String × Json)} (h : members.any isType = false) :
    membersTyped [(name, object members)] = membersTyped members := by
  rw [membersTyped, typedCount_object h, membersTyped, Nat.add_zero]

theorem membersTyped_append (members more : List (String × Json)) :
    membersTyped (members ++ more) = membersTyped members + membersTyped more := by
  induction members with
  | nil => simp [membersTyped]
  | cons entry members ih =>
    obtain ⟨name, value⟩ := entry
    rw [List.cons_append, membersTyped, membersTyped, ih, Nat.add_assoc]

end Json

theorem Path.typedCount_toJson (p : Path Float) : p.toJson.typedCount = 1 := by
  cases p with
  | line l => simp [Path.toJson, Point.toJson, Json.typedCount, Json.membersTyped, Json.itemsTyped, Json.isType]
  | arc a => simp [Path.toJson, Point.toJson, Json.typedCount, Json.membersTyped, Json.itemsTyped, Json.isType]

namespace Model

open Json

theorem membersTyped_paths (paths : Named (Path Float)) :
    membersTyped (paths.map fun (name, path) => (name, path.toJson)) = paths.length := by
  induction paths with
  | nil => rfl
  | cons entry paths ih =>
    obtain ⟨name, path⟩ := entry
    rw [List.map_cons, membersTyped, ih, path.typedCount_toJson, List.length_cons, Nat.add_comm]

theorem any_isType_paths (paths : Named (Path Float)) :
    (paths.map fun (name, path) => (name, path.toJson)).any isType = false := by
  apply List.any_eq_false.mpr
  intro entry hentry
  obtain ⟨⟨name, path⟩, -, rfl⟩ := List.mem_map.mp hentry
  cases path with
  | line l => simp [Path.toJson, isType]
  | arc a => simp [Path.toJson, isType]

theorem any_isType_childrenToJson (children : Named (Model Float)) :
    (childrenToJson children).any isType = false := by
  induction children with
  | nil => rfl
  | cons entry children ih =>
    obtain ⟨name, child⟩ := entry
    rw [childrenToJson, toJson_eq, List.any_cons, ih]
    rfl

theorem membersTyped_pathsMember (paths : Named (Path Float)) :
    membersTyped (pathsMember paths) = paths.length := by
  cases paths with
  | nil => rfl
  | cons first rest => exact (membersTyped_object (any_isType_paths _)).trans (membersTyped_paths _)

theorem membersTyped_childrenMember (children : Named (Model Float)) :
    membersTyped (childrenMember children) = membersTyped (childrenToJson children) := by
  cases children with
  | nil => rfl
  | cons first rest => exact membersTyped_object (any_isType_childrenToJson _)

/-- No member of a drawing tells a type. -/
theorem any_isType_members (m : Model Float) : (originMember m.origin ++ pathsMember m.paths ++
    childrenMember m.children ++ layerMember m.layer).any isType = false := by
  obtain ⟨origin, layer, paths, children⟩ := m
  have horigin : (originMember origin).any isType = false := by cases origin <;> rfl
  have hpaths : (pathsMember paths).any isType = false := by cases paths <;> rfl
  have hchildren : (childrenMember children).any isType = false := by cases children <;> rfl
  have hlayer : (layerMember layer).any isType = false := by
    cases layer with
    | none => rfl
    | some layer => simp [layerMember, isType]
  simp only [List.any_append, horigin, hpaths, hchildren, hlayer, Bool.or_self]

mutual

/-- The objects that tell their type are the paths of the tree. -/
theorem typedCount_toJson : ∀ m : Model Float, m.toJson.typedCount = m.pathCount
  | ⟨origin, layer, paths, children⟩ => by
    have horigin : membersTyped (originMember origin) = 0 := by cases origin <;> rfl
    have hlayer : membersTyped (layerMember layer) = 0 := by cases layer <;> rfl
    rw [toJson_eq, typedCount_object (any_isType_members _), pathCount, membersTyped_append, membersTyped_append,
      membersTyped_append, horigin, hlayer, membersTyped_pathsMember, membersTyped_childrenMember,
      membersTyped_childrenToJson children, Nat.zero_add, Nat.add_zero]

theorem membersTyped_childrenToJson : ∀ children : List (String × Model Float),
    membersTyped (childrenToJson children) = totalCount children
  | [] => rfl
  | (name, child) :: rest => by
    rw [childrenToJson, membersTyped, totalCount, typedCount_toJson child, membersTyped_childrenToJson rest]

end

end Model

namespace Drawing

/-! ## DXF and SVG -/

namespace Dxf

/-- The number of entities in a text: each of them starts with a pair of code zero. -/
def entityCount? (text : String) : Option Nat := do
  let entities ← entitySection? (← readPairs? text)
  return entities.countP fun p => p.1 = 0

theorem countP_entity {w : WalkedPath Float} {es : List Pair} (h : entity numberText w = .ok es) :
    es.countP (fun p => p.1 = 0) = 1 := by
  obtain ⟨-, rfl⟩ := entity_eq_ok_iff.mp h
  have hcodes : ∀ code ∈ (kind w.path).2, code ≠ 0 := by
    cases w.path with
    | line l => simp [kind]
    | arc a => simp [kind]
  have hrest : ((kind w.path).2.zip ((numbers w.path).map fun entry => numberText entry.2)).countP
      (fun p => p.1 = 0) = 0 := by
    apply List.countP_eq_zero.mpr
    intro p hp
    have hcode := hcodes p.1 (List.of_mem_zip hp).1
    simpa using hcode
  rw [List.countP_cons, List.countP_cons, hrest]
  simp

theorem countP_flatten {walk : List (WalkedPath Float)} {entities : List (List Pair)}
    (h : List.Forall₂ (fun w es => entity numberText w = .ok es) walk entities) :
    entities.flatten.countP (fun p => p.1 = 0) = walk.length := by
  induction h with
  | nil => rfl
  | cons hw _ ih =>
    rw [List.flatten_cons, List.countP_append, countP_entity hw, ih, List.length_cons, Nat.add_comm]

theorem entityCount?_dxf {m : Model Float} {text : String} (h : dxf m = .ok text) :
    entityCount? text = some m.pathCount := by
  obtain ⟨-, entities, hentities, rfl⟩ := dxf_eq_ok_iff.mp h
  have hmem : ∀ p ∈ entities.flatten, ∃ es, p ∈ es ∧ ∃ w, entity numberText w = .ok es := by
    intro p hp
    obtain ⟨es, hes, hp⟩ := List.mem_flatten.mp hp
    obtain ⟨w, -, hw⟩ := Except.exists_of_mem_mapM hentities hes
    exact ⟨es, hp, w, hw⟩
  have hlined : OneLined (document entities.flatten) := by
    apply oneLined_document
    intro p hp
    obtain ⟨es, hp, w, hw⟩ := hmem p hp
    exact oneLined_entity hw p hp
  have hend : (0, "ENDSEC") ∉ entities.flatten := by
    intro hp
    obtain ⟨es, hp, w, hw⟩ := hmem _ hp
    exact endsec_not_mem_entity hw hp
  simp only [entityCount?, readPairs?_lines hlined, entitySection?_document hend, Option.bind_eq_bind,
    Option.bind_some]
  rw [countP_flatten (Except.mapM_eq_ok_iff.mp hentities), m.length_walk]
  rfl

end Dxf

namespace Svg

/-- How often the path data of a text move to a start, over all its elements. -/
def moveCount? (text : String) : Option Nat :=
  (paths? text).map fun elements => moves (String.join (elements.map (·.2)))

theorem moveCount?_svg {style : SvgStyle} {m : Model Float} {text : String} (h : svg style m = .ok text) :
    moveCount? text = some m.pathCount := by
  obtain ⟨box, -, htags⟩ := groupTags_of_svgWith isData_numberText h
  have hmoves : ∀ layer, moves (dataOn numberText box m.walk layer) = (onLayer m.walk layer).length :=
    fun layer => (isData_dataOn isData_numberText box m.walk layer).moves_eq
  unfold moveCount?
  rw [paths?_of_groupTags isData_numberText htags, Option.map_some, List.map_map]
  apply congrArg some
  calc moves (String.join ((drawnLayers m.walk).map fun layer => dataOn numberText box m.walk layer))
      = ((drawnLayers m.walk).flatMap (onLayer m.walk)).length := moves_join hmoves _
    _ = m.walk.length := (perm_drawnLayers m.walk).length_eq
    _ = m.pathCount := m.length_walk

end Svg

/-! ## All exports -/

/-- Every export of the drawing shows so many entities. -/
structure Shows (m : Model Float) (n : Nat) : Prop where
  dxf : ∀ text, dxf m = .ok text → Dxf.entityCount? text = some n
  svg : ∀ style text, svg style m = .ok text → Svg.moveCount? text = some n
  json : m.toJson.typedCount = n

theorem shows_iff {m : Model Float} {n : Nat} : Shows m n ↔ n = m.pathCount := by
  constructor
  · intro h
    rw [← h.json, m.typedCount_toJson]
  · rintro rfl
    exact ⟨fun _ => Dxf.entityCount?_dxf, fun _ _ => Svg.moveCount?_svg, m.typedCount_toJson⟩

/-- Among other drawings, a drawing adds so many entities to every export of them. -/
def Contributes (ahead behind : Named (Model Float)) (entry : String × Model Float) (n : Nat) : Prop :=
  ∃ k, Shows { children := ahead ++ behind } k ∧ Shows { children := ahead ++ entry :: behind } (k + n)

theorem contributes_iff {ahead behind : Named (Model Float)} {name : String} {m : Model Float} {n : Nat} :
    Contributes ahead behind (name, m) n ↔ n = m.pathCount := by
  unfold Contributes
  simp only [shows_iff, Model.pathCount_among, exists_eq_left]
  omega

section Walk
variable {α : Type} [Scalar α] {m m' : Model α}

theorem dxfWith_congr (text : α → String) (h : m.walk = m'.walk) : dxfWith text m = dxfWith text m' := by
  unfold dxfWith Dxf.pairs
  rw [h]

theorem svgWith_congr (text : α → String) (style : SvgStyle) (h : m.walk = m'.walk) :
    svgWith text style m = svgWith text style m' := by
  unfold svgWith Model.extents
  rw [h]

end Walk

end Drawing

end KeyboardPlate
