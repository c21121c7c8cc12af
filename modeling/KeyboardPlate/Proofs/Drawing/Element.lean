import KeyboardPlate.Proofs.Double.Text
import KeyboardPlate.Proofs.Drawing.Refusal
import KeyboardPlate.Proofs.Model.Walk

/-!
# Reading SVG drawings

An SVG text is cut into tags where they open, and the tags of its group are read as elements with path data.
They share out the walked paths by layer: a path is in the data of the element of its layer, which moves to
the start of each of its paths once and so as often as it has paths.
-/

set_option autoImplicit false

namespace KeyboardPlate.Drawing.Svg

/-! ## Elements of a text -/

/-- The word that a tag starts with. -/
def tagWord (tag : List Char) : String := String.ofList (tag.takeWhile fun c => c ≠ ' ' ∧ c ≠ '>')

/-- The tags within the first group of a text. -/
def groupTags (text : String) : List (List Char) :=
  (((text.toList.splitOn '<').dropWhile fun tag => tagWord tag ≠ "g").tail).takeWhile fun tag =>
    tagWord tag ≠ "/g"

/-- The name and the data of a path, from its tag. -/
def path? (tag : List Char) : Option (String × String) :=
  match (tag.splitOn '"').map String.ofList with
  | "path id=" :: name :: " d=" :: data :: _ => some (name, data)
  | _ => none

/-- The names and the data of the elements of the group, if all of them are paths. -/
def paths? (text : String) : Option (List (String × String)) := (groupTags text).mapM path?

/-- How often path data move to a start. -/
def moves (data : String) : Nat := data.toList.count 'M'

/-! ## Path data -/

/-- Path data that move so often and have no mark that ends them. -/
structure IsData (n : Nat) (data : String) : Prop where
  bracket : '<' ∉ data.toList
  quote : '"' ∉ data.toList
  moves_eq : moves data = n

instance (n : Nat) (data : String) : Decidable (IsData n data) :=
  decidable_of_iff ('<' ∉ data.toList ∧ '"' ∉ data.toList ∧ moves data = n)
    ⟨fun ⟨hb, hq, hm⟩ => ⟨hb, hq, hm⟩, fun ⟨hb, hq, hm⟩ => ⟨hb, hq, hm⟩⟩

theorem IsData.append {n k : Nat} {data more : String} (h : IsData n data) (h' : IsData k more) :
    IsData (n + k) (data ++ more) where
  bracket := by simp [String.toList_append, h.bracket, h'.bracket]
  quote := by simp [String.toList_append, h.quote, h'.quote]
  moves_eq := by
    rw [← h.moves_eq, ← h'.moves_eq]
    simp [moves, String.toList_append]

theorem isData_intercalate {parts : List String} (h : ∀ part ∈ parts, IsData 1 part) :
    IsData parts.length (" ".intercalate parts) := by
  induction parts with
  | nil => exact (by decide : IsData 0 "")
  | cons part parts ih =>
    obtain ⟨hpart, hparts⟩ := List.forall_mem_cons.mp h
    cases parts with
    | nil => simpa using hpart
    | cons next rest =>
      rw [String.intercalate_cons_cons, List.length_cons, Nat.add_comm]
      exact (hpart.append (by decide : IsData 0 " ")).append (ih hparts)

theorem moves_join {ι β : Type} {data : ι → String} {drawn : ι → List β}
    (h : ∀ i, moves (data i) = (drawn i).length) (indices : List ι) :
    moves (String.join (indices.map data)) = (indices.flatMap drawn).length := by
  induction indices with
  | nil => rfl
  | cons i indices ih =>
    rw [List.flatMap_cons, List.length_append, ← h i, ← ih, List.map_cons, String.join_cons]
    simp [moves, String.toList_append]

theorem isData_numberText (x : Float) : IsData 0 (numberText x) := by
  have hnot {c : Char} (hc : ¬ (Double.isNumeralChar c = true ∨ c ∈ ['N', 'a', 'i', 'n', 'f'])) :
      c ∉ (numberText x).toList := fun hmem => hc (Double.mem_text hmem)
  exact ⟨hnot (by decide), hnot (by decide), List.count_eq_zero.mpr (hnot (by decide))⟩

section Commands
variable {α : Type} {text : α → String}

theorem isData_pointText (htext : ∀ x, IsData 0 (text x)) (p : Point α) : IsData 0 (pointText text p) :=
  ((htext p.x).append (by decide : IsData 0 " ")).append (htext p.y)

theorem isData_arcCommand (htext : ∀ x, IsData 0 (text x)) (radius : α) (large : Bool) :
    IsData 0 (arcCommand text radius large) := by
  have hflag : IsData 0 (if large then "1" else "0") := by cases large <;> decide
  have hradii := ((by decide : IsData 0 " A ").append (htext radius)).append (by decide : IsData 0 " ")
  exact (((hradii.append (htext radius)).append (by decide : IsData 0 " 0 ")).append hflag).append
    (by decide : IsData 0 " 0 ")

/-- The commands of a path move once, those of a full circle too. -/
theorem isData_commands [Scalar α] (htext : ∀ x, IsData 0 (text x)) (box : Box α) (p : Path α) :
    IsData 1 (commands text box p) := by
  have hmove (start : Point α) : IsData 1 ("M " ++ pointText text start) :=
    (by decide : IsData 1 "M ").append (isData_pointText htext start)
  have hpoint := isData_pointText htext
  have harc := isData_arcCommand htext
  cases p with
  | line l => exact ((hmove _).append (by decide : IsData 0 " L ")).append (hpoint _)
  | arc a =>
    simp only [commands]
    split
    · exact ((((hmove _).append (harc _ _)).append (hpoint _)).append (harc _ _)).append (hpoint _)
    · exact ((hmove _).append (harc _ _)).append (hpoint _)

theorem commands_ne_empty [Scalar α] (box : Box α) (p : Path α) : commands text box p ≠ "" := by
  have hmove (rest : String) : "M " ++ rest ≠ "" := by
    rw [Ne, ← String.toList_inj, String.toList_append]
    simp
  cases p with
  | line l =>
    simp only [commands, String.append_assoc]
    exact hmove _
  | arc a =>
    simp only [commands, String.append_assoc]
    split
    · exact hmove _
    · exact hmove _

end Commands

theorem pushSubpath_of_ne {data part : String} (hdata : data ≠ "") (hpart : part ≠ "") :
    pushSubpath data part = data ++ " " ++ part := by
  rw [pushSubpath, if_neg (by simpa using hpart), if_neg (by simpa using hdata)]

theorem append_intercalate (head part : String) (parts : List String) :
    head ++ " ".intercalate (part :: parts) = " ".intercalate ((head ++ part) :: parts) := by
  cases parts with
  | nil => simp
  | cons next rest => simp only [String.intercalate_cons_cons, String.append_assoc]

theorem foldl_pushSubpath {data : String} {parts : List String} (hdata : data ≠ "") (hparts : ∀ part ∈ parts, part ≠ "") :
    parts.foldl pushSubpath data = " ".intercalate (data :: parts) := by
  induction parts generalizing data with
  | nil => simp
  | cons part parts ih =>
    obtain ⟨hpart, hrest⟩ := List.forall_mem_cons.mp hparts
    have hlonger : data ++ " " ++ part ≠ "" := by simp [hpart]
    rw [List.foldl_cons, pushSubpath_of_ne hdata hpart, ih hlonger hrest, String.intercalate_cons_cons,
      append_intercalate]

/-- Commands that are none of them empty end up with a space between each two. -/
theorem foldl_pushSubpath_empty {parts : List String} (hparts : ∀ part ∈ parts, part ≠ "") :
    parts.foldl pushSubpath "" = " ".intercalate parts := by
  cases parts with
  | nil => rfl
  | cons part parts =>
    obtain ⟨hpart, hrest⟩ := List.forall_mem_cons.mp hparts
    have hfirst : pushSubpath "" part = part := by
      rw [pushSubpath, if_neg (by simpa using hpart), if_pos (by rfl), String.empty_append]
    rw [List.foldl_cons, hfirst, foldl_pushSubpath hpart hrest]

/-! ## Tags -/

/-- The text goes on after its start, but opens no further tag. -/
def Opens (start : List Char) (text : String) : Prop := ∃ rest, '<' ∉ rest ∧ text.toList = start ++ rest

theorem Opens.of_take {start : List Char} {text : String} (n : Nat) (h : start = text.toList.take n)
    (hrest : '<' ∉ text.toList.drop n) : Opens start text :=
  ⟨text.toList.drop n, hrest, by rw [h, List.take_append_drop]⟩

theorem Opens.append {start : List Char} {text more : String} (h : Opens start text) (hmore : '<' ∉ more.toList) :
    Opens start (text ++ more) := by
  obtain ⟨rest, hrest, heq⟩ := h
  refine ⟨rest ++ more.toList, ?_, ?_⟩
  · rw [List.mem_append]
    exact fun hmem => hmem.elim hrest hmore
  · rw [String.toList_append, heq, List.append_assoc]

theorem Opens.next {start next : List Char} {text more : String} (h : Opens start text) (h' : Opens next more) :
    ∃ rest, '<' ∉ rest ∧ Opens (start ++ rest ++ next) (text ++ more) := by
  obtain ⟨rest, hrest, heq⟩ := h
  obtain ⟨others, hothers, heq'⟩ := h'
  refine ⟨rest, hrest, others, hothers, ?_⟩
  simp only [String.toList_append, heq, heq', List.append_assoc]

/-- A drawing opens with its own tag and that of its group. -/
theorem exists_opening (style : SvgStyle) {width height : String} (hwidth : '<' ∉ width.toList)
    (hheight : '<' ∉ height.toList) : ∃ head, '<' ∉ head ∧
      Opens ("<svg ".toList ++ head ++ "<g ".toList) (opening style width height) := by
  have hview {size : String} (hsize : Opens "<svg ".toList size) := ((((hsize.append
    (by decide : '<' ∉ " viewBox=\"0 0 ".toList)).append hwidth).append
    (by decide : '<' ∉ " ".toList)).append hheight).append
    (by decide : '<' ∉ "\" xmlns=\"http://www.w3.org/2000/svg\">".toList)
  have hgroup : Opens "<g ".toList
      "<g id=\"svgGroup\" stroke-linecap=\"round\" fill-rule=\"evenodd\" stroke=\"" :=
    .of_take 3 (by decide) (by decide)
  cases style with
  | preview =>
    have hsize : Opens "<svg ".toList "<svg width=\"100%\" height=\"100%\"" := .of_take 5 (by decide) (by decide)
    obtain ⟨head, hhead, hopens⟩ := (hview hsize).next hgroup
    refine ⟨head, hhead, ?_⟩
    unfold opening
    iterate 8 refine Opens.append ?_ (by decide)
    exact hopens
  | download =>
    have hwide : Opens "<svg ".toList ("<svg width=\"" ++ width) :=
      (Opens.of_take 5 (by decide) (by decide)).append hwidth
    have hsize := ((hwide.append (by decide : '<' ∉ "mm\" height=\"".toList)).append hheight).append
      (by decide : '<' ∉ "mm\"".toList)
    obtain ⟨head, hhead, hopens⟩ := (hview hsize).next hgroup
    refine ⟨head, hhead, ?_⟩
    unfold opening
    iterate 8 refine Opens.append ?_ (by decide)
    exact hopens

theorem splitOn_flatMap {tags : List (List Char)} (h : ∀ tag ∈ tags, '<' ∉ tag) (text : List Char) :
    (text ++ tags.flatMap ('<' :: ·)).splitOn '<' = text.splitOn '<' ++ tags := by
  induction tags generalizing text with
  | nil => simp
  | cons tag tags ih =>
    obtain ⟨htag, htags⟩ := List.forall_mem_cons.mp h
    rw [List.flatMap_cons, List.cons_append, List.splitOn_append_cons_self, ih htags tag,
      List.splitOn_eq_singleton htag]
    rfl

/-- Between the opening of a group and its end are its tags. -/
theorem groupTags_eq {text : String} {head group : List Char} {tags : List (List Char)} (hhead : '<' ∉ head)
    (hgroup : '<' ∉ group) (htags : ∀ tag ∈ tags, '<' ∉ tag) (hwords : ∀ tag ∈ tags, tagWord tag = "path")
    (h : text.toList = "<svg ".toList ++ head ++ "<g ".toList ++ group ++ tags.flatMap ('<' :: ·) ++
      "</g></svg>".toList) : groupTags text = tags := by
  -- the text before the first bracket is empty, then come all tags one after the other
  let all := ("svg ".toList ++ head) :: ("g ".toList ++ group) :: (tags ++ ["/g>".toList, "/svg>".toList])
  have hall : ∀ tag ∈ all, '<' ∉ tag := by
    refine List.forall_mem_cons.mpr ⟨?_, List.forall_mem_cons.mpr ⟨?_, ?_⟩⟩
    · exact fun hmem => (List.mem_append.mp hmem).elim (by decide) hhead
    · exact fun hmem => (List.mem_append.mp hmem).elim (by decide) hgroup
    · exact List.forall_mem_append.mpr ⟨htags, by decide⟩
  have hlist : text.toList = [] ++ all.flatMap ('<' :: ·) := by
    rw [h]
    simp only [all, List.flatMap_cons, List.flatMap_append, List.flatMap_nil, List.append_assoc]
    rfl
  have hdrop : ([] :: all).dropWhile (fun tag => tagWord tag ≠ "g") =
      ("g ".toList ++ group) :: (tags ++ ["/g>".toList, "/svg>".toList]) := by
    have hsvg : tagWord ("svg ".toList ++ head) = "svg" := rfl
    have hg : tagWord ("g ".toList ++ group) = "g" := rfl
    rw [List.dropWhile_cons_of_pos (by decide), List.dropWhile_cons_of_pos (by rw [hsvg]; decide),
      List.dropWhile_cons_of_neg (by rw [hg]; decide)]
  have hinside : ∀ tag ∈ tags, decide (tagWord tag ≠ "/g") = true := by
    intro tag htag
    rw [hwords tag htag]
    decide
  have hend : ["/g>".toList, "/svg>".toList].takeWhile (fun tag => tagWord tag ≠ "/g") = [] := by decide
  unfold groupTags
  rw [hlist, splitOn_flatMap hall, List.splitOn_nil, List.singleton_append, hdrop, List.tail_cons,
    List.takeWhile_append_of_pos hinside, hend, List.append_nil]

/-- The tag of a path, without its bracket. -/
def pathTag (name data : String) : String :=
  "path id=\"" ++ name ++ "\" d=\"" ++ data ++ "\" vector-effect=\"non-scaling-stroke\"/>"

theorem toList_pathTag (name data : String) : ∃ rest, (pathTag name data).toList =
    "path id=".toList ++ '"' :: (name.toList ++ '"' :: (" d=".toList ++ '"' :: (data.toList ++ '"' :: rest))) := by
  refine ⟨" vector-effect=\"non-scaling-stroke\"/>".toList, ?_⟩
  unfold pathTag
  simp only [String.toList_append, List.append_assoc]
  rfl

theorem tagWord_pathTag (name data : String) : tagWord (pathTag name data).toList = "path" := by
  obtain ⟨rest, h⟩ := toList_pathTag name data
  rw [h]
  rfl

theorem path?_pathTag {name data : String} (hname : '"' ∉ name.toList) (hdata : '"' ∉ data.toList) :
    path? (pathTag name data).toList = some (name, data) := by
  obtain ⟨rest, h⟩ := toList_pathTag name data
  unfold path?
  rw [h, List.splitOn_append_cons_self_of_not_mem (by decide), List.splitOn_append_cons_self_of_not_mem hname,
    List.splitOn_append_cons_self_of_not_mem (by decide), List.splitOn_append_cons_self_of_not_mem hdata]
  simp only [List.map_cons, String.ofList_toList]

/-! ## Layers -/

section Layers
variable {α : Type}

/-- The paths on a layer, in their order. -/
def onLayer (walk : List (WalkedPath α)) (layer : Layer) : List (WalkedPath α) :=
  walk.filter fun w => w.layer = layer

/-- The layers that have paths, in the order of the layers. -/
def drawnLayers (walk : List (WalkedPath α)) : List Layer :=
  Layer.all.filter fun layer => ∃ w ∈ walk, w.layer = layer

theorem onLayer_eq_nil_iff {walk : List (WalkedPath α)} {layer : Layer} :
    onLayer walk layer = [] ↔ ¬ ∃ w ∈ walk, w.layer = layer := by
  simp [onLayer]

theorem flatMap_onLayer_cons {layers : List Layer} (hnodup : layers.Nodup) (w : WalkedPath α)
    (walk : List (WalkedPath α)) (hw : w.layer ∈ layers) :
    (layers.flatMap (onLayer (w :: walk))).Perm (w :: layers.flatMap (onLayer walk)) := by
  -- the path joins the group of its own layer, which comes once, and no other
  obtain ⟨before, after, rfl⟩ := List.append_of_mem hw
  have hother : ∀ layer, layer ≠ w.layer → onLayer (w :: walk) layer = onLayer walk layer := by
    intro layer hlayer
    simp [onLayer, Ne.symm hlayer]
  have hown : onLayer (w :: walk) w.layer = w :: onLayer walk w.layer := by simp [onLayer]
  obtain ⟨-, hafter, hbefore⟩ := List.nodup_append.mp hnodup
  have hskip (layers : List Layer) (h : w.layer ∉ layers) :
      layers.flatMap (onLayer (w :: walk)) = layers.flatMap (onLayer walk) :=
    List.flatMap_congr fun layer hlayer => hother layer fun heq => h (heq ▸ hlayer)
  rw [List.flatMap_append, List.flatMap_cons, List.flatMap_append, List.flatMap_cons, hown,
    hskip before fun h => hbefore _ h _ (by simp) rfl, hskip after (List.nodup_cons.mp hafter).1]
  exact List.perm_middle

theorem flatMap_filter_of_nil {ι β : Type} {p : ι → Bool} {f : ι → List β} (h : ∀ i, p i = false → f i = [])
    (xs : List ι) : (xs.filter p).flatMap f = xs.flatMap f := by
  induction xs with
  | nil => rfl
  | cons x xs ih =>
    rw [List.flatMap_cons, ← ih]
    cases hx : p x with
    | true => rw [List.filter_cons_of_pos hx, List.flatMap_cons]
    | false => rw [List.filter_cons_of_neg (by simp [hx]), h x hx, List.nil_append]

/-- What there is for the layers that have paths is all there is, if there is nothing for the others. -/
theorem flatMap_drawnLayers {β : Type} {walk : List (WalkedPath α)} {f : Layer → List β}
    (h : ∀ layer, onLayer walk layer = [] → f layer = []) :
    (drawnLayers walk).flatMap f = Layer.all.flatMap f := by
  refine flatMap_filter_of_nil (fun layer hlayer => h layer ?_) Layer.all
  exact onLayer_eq_nil_iff.mpr (of_decide_eq_false hlayer)

/-- The layers share out the walked paths. -/
theorem perm_drawnLayers (walk : List (WalkedPath α)) : ((drawnLayers walk).flatMap (onLayer walk)).Perm walk := by
  rw [flatMap_drawnLayers fun _ h => h]
  induction walk with
  | nil => exact .nil
  | cons w walk ih => exact (flatMap_onLayer_cons (by decide) w walk (Layer.mem_all _)).trans (ih.cons w)

end Layers

section Drawing
variable {α : Type} [Scalar α] {text : α → String} {box : Box α} {walk : List (WalkedPath α)} {layer : Layer}

/-- The commands of the paths on a layer. -/
def dataOn (text : α → String) (box : Box α) (walk : List (WalkedPath α)) (layer : Layer) : String :=
  " ".intercalate ((onLayer walk layer).map fun w => commands text box w.path)

theorem isData_dataOn (htext : ∀ x, IsData 0 (text x)) (box : Box α) (walk : List (WalkedPath α)) (layer : Layer) :
    IsData (onLayer walk layer).length (dataOn text box walk layer) := by
  have hdata : ∀ part ∈ (onLayer walk layer).map fun w => commands text box w.path, IsData 1 part := by
    intro part hpart
    obtain ⟨w, -, rfl⟩ := List.mem_map.mp hpart
    exact isData_commands htext box w.path
  have hjoined := isData_intercalate hdata
  rwa [List.length_map] at hjoined

theorem subpath_ok {w : WalkedPath α} {data : String} (h : subpath text box w = .ok data) :
    data = commands text box w.path := by
  obtain ⟨-, -, h⟩ := Except.bind_eq_ok_iff.mp h
  cases h
  rfl

/-- The text of the element of a layer, if it has paths. -/
def elementText (text : α → String) (box : Box α) (walk : List (WalkedPath α)) (layer : Layer) : String :=
  if (onLayer walk layer).isEmpty then "" else "<" ++ pathTag layer.name (dataOn text box walk layer)

theorem layerData_ok {data : String} (h : layerData text box walk layer = .ok data) :
    data = dataOn text box walk layer := by
  unfold layerData at h
  rw [Except.foldlM_bind_pure] at h
  obtain ⟨parts, hparts, rfl⟩ := Except.map_eq_ok_iff.mp h
  obtain rfl := Except.eq_map_of_mapM (fun _ _ => subpath_ok) hparts
  refine foldl_pushSubpath_empty fun part hpart => ?_
  obtain ⟨w, -, rfl⟩ := List.mem_map.mp hpart
  exact commands_ne_empty box w.path

/-- There are path data for the layers that have paths. -/
theorem dataOn_eq_empty_iff : dataOn text box walk layer = "" ↔ onLayer walk layer = [] := by
  unfold dataOn
  cases onLayer walk layer with
  | nil => simp
  | cons w rest =>
    rw [List.map_cons]
    cases rest with
    | nil => simp [commands_ne_empty]
    | cons next rest => simp [String.intercalate_cons_cons, commands_ne_empty]

theorem element_ok {drawn : String} (h : element text box walk layer = .ok drawn) :
    drawn = elementText text box walk layer := by
  obtain ⟨data, hdata, h⟩ := Except.bind_eq_ok_iff.mp h
  obtain rfl := layerData_ok hdata
  have hempty : (dataOn text box walk layer).isEmpty = (onLayer walk layer).isEmpty := by
    rw [Bool.eq_iff_iff, String.isEmpty_iff, List.isEmpty_iff, dataOn_eq_empty_iff]
  rw [hempty] at h
  unfold elementText
  split at h
  · rename_i hnone
    cases h
    rw [if_pos hnone]
  · rename_i hdrawn
    cases h
    rw [if_neg hdrawn]
    simp only [pathTag, ← String.append_assoc]
    rfl

theorem svgWith_ok {style : SvgStyle} {m : Model α} {out : String} (h : svgWith text style m = .ok out) :
    ∃ box, m.extents = some box ∧
      out = opening style (text (box.high.x - box.low.x)) (text (box.high.y - box.low.y)) ++
        String.join (Layer.all.map (elementText text box m.walk)) ++ "</g></svg>" := by
  unfold svgWith at h
  split at h
  · cases h
  · rename_i box hbox
    obtain ⟨elements, helements, h⟩ := Except.bind_eq_ok_iff.mp h
    obtain rfl := Except.eq_map_of_mapM (fun _ _ => element_ok) helements
    exact ⟨box, hbox, (Except.ok.inj h).symm⟩

/-- The tags of the layers that have paths. -/
def pathTags (text : α → String) (box : Box α) (walk : List (WalkedPath α)) : List (List Char) :=
  (drawnLayers walk).map fun layer => (pathTag layer.name (dataOn text box walk layer)).toList

theorem toList_join_elementText (box : Box α) (walk : List (WalkedPath α)) :
    (String.join (Layer.all.map (elementText text box walk))).toList =
      (pathTags text box walk).flatMap ('<' :: ·) := by
  have hundrawn : ∀ layer, onLayer walk layer = [] → (elementText text box walk layer).toList = [] := by
    intro layer hlayer
    rw [elementText, hlayer]
    rfl
  rw [String.toList_join, List.flatMap_map, pathTags, List.flatMap_map, ← flatMap_drawnLayers hundrawn]
  refine List.flatMap_congr fun layer hlayer => ?_
  have hdrawn : onLayer walk layer ≠ [] := by
    have hexists := of_decide_eq_true (List.mem_filter.mp hlayer).2
    exact fun hnil => onLayer_eq_nil_iff.mp hnil hexists
  rw [elementText, if_neg (by simpa using hdrawn), String.toList_append]
  rfl

theorem bracket_not_mem_pathTags (htext : ∀ x, IsData 0 (text x)) (box : Box α) (walk : List (WalkedPath α)) :
    ∀ tag ∈ pathTags text box walk, '<' ∉ tag := by
  intro tag htag
  obtain ⟨layer, -, rfl⟩ := List.mem_map.mp htag
  have hname : '<' ∉ layer.name.toList := by cases layer <;> decide
  have hdata := (isData_dataOn htext box walk layer).bracket
  simp only [pathTag, String.toList_append, List.mem_append, hname, hdata, or_false]
  decide +kernel

/-- The group of a drawing holds the tags of its layers. -/
theorem groupTags_of_svgWith {style : SvgStyle} {m : Model α} {out : String} (htext : ∀ x, IsData 0 (text x))
    (h : svgWith text style m = .ok out) :
    ∃ box, m.extents = some box ∧ groupTags out = pathTags text box m.walk := by
  obtain ⟨box, hbox, rfl⟩ := svgWith_ok h
  refine ⟨box, hbox, ?_⟩
  obtain ⟨head, hhead, group, hgroup, hopening⟩ := exists_opening style (htext (box.high.x - box.low.x)).bracket
    (htext (box.high.y - box.low.y)).bracket
  have htags := bracket_not_mem_pathTags htext box m.walk
  have hpath : ∀ tag ∈ pathTags text box m.walk, tagWord tag = "path" := by
    intro tag htag
    obtain ⟨layer, -, rfl⟩ := List.mem_map.mp htag
    exact tagWord_pathTag ..
  refine groupTags_eq hhead hgroup htags hpath ?_
  rw [String.toList_append, String.toList_append, hopening, toList_join_elementText]

theorem paths?_of_groupTags {out : String} (htext : ∀ x, IsData 0 (text x)) {box : Box α}
    (h : groupTags out = pathTags text box walk) :
    paths? out = some ((drawnLayers walk).map fun layer => (layer.name, dataOn text box walk layer)) := by
  have hread : ∀ layer : Layer, path? (pathTag layer.name (dataOn text box walk layer)).toList =
      some (layer.name, dataOn text box walk layer) := by
    intro layer
    have hname : '"' ∉ layer.name.toList := by cases layer <;> decide
    exact path?_pathTag hname (isData_dataOn htext box walk layer).quote
  unfold paths?
  rw [h, pathTags, List.mapM_map]
  simp only [Function.comp_def, hread]
  exact List.mapM_pure

end Drawing

/-- The elements of a drawing are those of the layers that have paths, in the order of the layers. The data of
each are the commands of the paths on its layer in the order of the walk, which move once for each path. So
every walked path is drawn once, on its own layer, and the data of all elements move as often as there are
paths. -/
theorem svg_paths {style : SvgStyle} {m : Model Float} {text : String} (h : svg style m = .ok text) :
    ∃ box elements, m.extents = some box ∧ paths? text = some elements ∧
      elements = (drawnLayers m.walk).map (fun layer => (layer.name, dataOn numberText box m.walk layer)) ∧
      ((drawnLayers m.walk).flatMap (onLayer m.walk)).Perm m.walk ∧
      (∀ w ∈ m.walk, moves (commands numberText box w.path) = 1) ∧
      elements.map (fun e => moves e.2) = (drawnLayers m.walk).map (fun layer => (onLayer m.walk layer).length) ∧
      moves (String.join (elements.map (·.2))) = m.pathCount := by
  obtain ⟨box, hbox, htags⟩ := groupTags_of_svgWith isData_numberText h
  have hperm := perm_drawnLayers m.walk
  have hmoves : ∀ layer, moves (dataOn numberText box m.walk layer) = (onLayer m.walk layer).length :=
    fun layer => (isData_dataOn isData_numberText box m.walk layer).moves_eq
  refine ⟨box, _, hbox, paths?_of_groupTags isData_numberText htags, rfl, hperm, ?_, ?_, ?_⟩
  · exact fun w _ => (isData_commands isData_numberText box w.path).moves_eq
  · rw [List.map_map]
    exact List.map_congr_left fun layer _ => hmoves layer
  · rw [List.map_map]
    exact (moves_join hmoves _).trans (hperm.length_eq.trans m.length_walk)

/-- A drawing with paths on two layers at several depths, one of them a full circle. -/
def layered : Model Float := {
  paths := [("edge", .between ⟨0, 0⟩ ⟨19.05, 0⟩)]
  children := [
    ("copper", {
      layer := some .top
      paths := [("ring", .arc ⟨⟨5, 5⟩, 2, 0, 360⟩)]
      children := [("inner", { paths := [("cut", .between ⟨1, 1⟩ ⟨2, 2⟩)] })] }),
    ("hole", { paths := [("side", .between ⟨0, 19.05⟩ ⟨19.05, 19.05⟩)] })] }

theorem layered_paths : ∃ text elements, svg .download layered = .ok text ∧ paths? text = some elements ∧
    elements.map (·.1) = ["plate", "top"] ∧ elements.map (fun e => moves e.2) = [2, 2] ∧
    moves (String.join (elements.map (·.2))) = layered.pathCount := by
  have hfinite : ∀ w ∈ layered.walk, AllFinite (numbers w.path) := by decide +kernel
  obtain ⟨text, h⟩ := (guarded_svgWith numberText .download (by decide +kernel : layered.walk ≠ [])).ok hfinite
  obtain ⟨box, elements, -, hpaths, helements, -, -, hmoves, hsum⟩ := svg_paths h
  have hdrawn : drawnLayers layered.walk = [.plate, .top] := by decide +kernel
  have hcounts : [Layer.plate, .top].map (fun layer => (onLayer layered.walk layer).length) = [2, 2] := by
    decide +kernel
  refine ⟨text, elements, h, hpaths, ?_, ?_, hsum⟩
  · rw [helements, hdrawn]
    rfl
  · rw [hmoves, hdrawn, hcounts]

end KeyboardPlate.Drawing.Svg
