import KeyboardPlate.Model.Json
import KeyboardPlate.Proofs.Json.RoundTrip
import KeyboardPlate.Proofs.Plate.Names

/-!
# Drawings read back from JSON

A drawing whose numbers read back and whose names differ is read from its text as it was, if the text is
not nested too deeply.
-/

set_option autoImplicit false

namespace KeyboardPlate

open Named

namespace Json

mutual

/-- The number of arrays and objects inside each other. -/
def depth : Json → Nat
  | array items => 1 + itemsDepth items
  | object members => 1 + membersDepth members
  | _ => 0

def itemsDepth : List Json → Nat
  | [] => 0
  | item :: rest => max item.depth (itemsDepth rest)

def membersDepth : List (String × Json) → Nat
  | [] => 0
  | (_, value) :: rest => max value.depth (membersDepth rest)

end

mutual

theorem fits_of_depth_le : ∀ (j : Json), j.Readable → ∀ n, j.depth ≤ n → j.fits n = true
  | null, _, _, _ => rfl
  | bool _, _, _, _ => rfl
  | number _, _, _, _ => rfl
  | string _, _, _, _ => rfl
  | unreadable, h, _, _ => h.elim
  | array items, h, n, hn => by
    rw [depth] at hn
    have hitems := allFit_of_depth_le items h (n - 1) (by omega)
    simp only [fits, hitems, Bool.and_true, decide_eq_true_eq]
    omega
  | object members, h, n, hn => by
    rw [depth] at hn
    have hmembers := membersFit_of_depth_le members h (n - 1) (by omega)
    simp only [fits, hmembers, Bool.and_true, decide_eq_true_eq]
    omega

theorem allFit_of_depth_le : ∀ (items : List Json), AllReadable items → ∀ n, itemsDepth items ≤ n →
    allFit n items = true
  | [], _, _, _ => rfl
  | item :: rest, h, n, hn => by
    rw [itemsDepth, Nat.max_le] at hn
    rw [allFit, fits_of_depth_le item h.1 n hn.1, allFit_of_depth_le rest h.2 n hn.2]
    rfl

theorem membersFit_of_depth_le : ∀ (members : List (String × Json)), MembersReadable members →
    ∀ n, membersDepth members ≤ n → membersFit n members = true
  | [], _, _, _ => rfl
  | (name, value) :: rest, h, n, hn => by
    rw [membersDepth, Nat.max_le] at hn
    rw [membersFit, fits_of_depth_le value h.1 n hn.1, membersFit_of_depth_le rest h.2 n hn.2]
    rfl

end

/-- The double that a number with a fraction or an exponent stands for. -/
def float? : Json → Option Float
  | number (.float x) => some x
  | _ => none

theorem membersFit_append (n : Nat) (members more : List (String × Json)) :
    membersFit n (members ++ more) = (membersFit n members && membersFit n more) := by
  induction members with
  | nil => rfl
  | cons entry members ih =>
    obtain ⟨name, value⟩ := entry
    rw [List.cons_append, membersFit, membersFit, ih, Bool.and_assoc]

theorem atMostOnce_of_nodup {members : List (String × Json)} (h : (members.map (·.1)).Nodup)
    (names : List String) : atMostOnce names members = true := by
  unfold atMostOnce
  rw [List.all_eq_true]
  intro name _
  have hcount := List.nodup_iff_count_le_one.mp h name
  rw [List.count_eq_length_filter, List.filter_map, List.length_map] at hcount
  exact decide_eq_true hcount

end Json

/-! ## Parts of a drawing -/

/-- The numbers of a path: its coordinates, radius and angles. -/
def Path.numbers {α : Type} : Path α → List α
  | line l => [l.start.x, l.start.y, l.stop.x, l.stop.y]
  | arc a => [a.center.x, a.center.y, a.radius, a.startAngle, a.endAngle]

namespace Model
variable {α : Type}

mutual

/-- All numbers in the tree. -/
def numbers : Model α → List α
  | ⟨origin, _, paths, children⟩ =>
    (origin.toList.flatMap fun p => [p.x, p.y]) ++ (paths.flatMap fun (_, path) => path.numbers) ++
      numbersBelow children

def numbersBelow : List (String × Model α) → List α
  | [] => []
  | (_, child) :: rest => child.numbers ++ numbersBelow rest

end

mutual

/-- No two paths and no two children of one drawing share a name, anywhere in the tree. -/
def WellNamed : Model α → Prop
  | ⟨_, _, paths, children⟩ => (names paths).Nodup ∧ (names children).Nodup ∧ AllWellNamed children

def AllWellNamed : List (String × Model α) → Prop
  | [] => True
  | (_, child) :: rest => child.WellNamed ∧ AllWellNamed rest

end

end Model

theorem Point.ofJson?_toJson (p : Point Float) : Point.ofJson? p.toJson = some p := rfl

theorem coordinate?_float (x : Float) : coordinate? (.number (.float x)) = some x := rfl

theorem Path.ofJson?_toJson (p : Path Float) : Path.ofJson? p.toJson = some p := by
  cases p with
  | line l =>
    simp [Path.toJson, Path.ofJson?, Json.onlyMember?, Path.partNames, Path.ofParts?, Point.ofJson?_toJson]
  | arc a =>
    simp [Path.toJson, Path.ofJson?, Json.onlyMember?, Path.partNames, Path.ofParts?, Point.ofJson?_toJson,
      coordinate?_float]

namespace Model

/-! ## Members of a drawing -/

/-- The reader of children inside an object with at most `depth` arrays and objects inside each other. -/
def childReader : Nat → Json → Option (Model Float)
  | 0 => fun _ => none
  | depth + 1 => ofJson? depth

theorem ofJson?_succ (depth : Nat) : ofJson? (depth + 1) = ofJsonWith? depth (childReader depth) := by
  cases depth with
  | zero => rfl
  | succ depth => rfl

theorem ofMembers?_append (depth : Nat) (child : Json → Option (Model Float)) (m : Model Float)
    (members more : List (String × Json)) :
    ofMembers? depth child m (members ++ more) =
      (ofMembers? depth child m members).bind fun m => ofMembers? depth child m more := by
  induction members generalizing m with
  | nil => rfl
  | cons entry members ih =>
    obtain ⟨name, value⟩ := entry
    simp only [List.cons_append, ofMembers?, Option.bind_eq_bind, ih]
    split
    all_goals rw [Option.bind_assoc]

variable {depth : Nat} {child : Json → Option (Model Float)} {m : Model Float}

def originMember (origin : Option (Point Float)) : List (String × Json) :=
  (origin.map fun p => ("origin", p.toJson)).toList

def pathsMember (paths : Named (Path Float)) : List (String × Json) :=
  if paths.isEmpty then [] else [("paths", .object (paths.map fun (name, path) => (name, path.toJson)))]

def childrenMember (children : Named (Model Float)) : List (String × Json) :=
  if children.isEmpty then [] else [("models", .object (childrenToJson children))]

def layerMember (layer : Option Layer) : List (String × Json) :=
  (layer.map fun l => ("layer", Json.string l.name)).toList

theorem toJson_eq (m : Model Float) : m.toJson = .object
    (originMember m.origin ++ pathsMember m.paths ++ childrenMember m.children ++ layerMember m.layer) := by
  cases m
  rw [toJson]
  rfl

theorem ofMembers?_origin {origin : Option (Point Float)} (hm : m.origin = none)
    (hfits : Json.membersFit depth (originMember origin) = true) :
    ofMembers? depth child m (originMember origin) = some { m with origin := origin } := by
  cases origin with
  | none =>
    cases m
    cases hm
    rfl
  | some p =>
    have hdepth : 0 < depth := by
      simp only [originMember, Point.toJson, Option.map_some, Option.toList_some, Json.membersFit, Json.fits,
        Bool.and_eq_true, decide_eq_true_eq] at hfits
      exact hfits.1.1
    have hread : originOfJson? depth p.toJson = some (some p) := by
      unfold originOfJson? Point.toJson orNull?
      dsimp only
      rw [if_pos hdepth]
      rfl
    simp [originMember, ofMembers?, hread]

theorem mapM_pathsToJson {paths : Named (Path Float)} {n : Nat}
    (hfits : Json.membersFit n (paths.map fun (name, path) => (name, path.toJson)) = true) :
    ((paths.map fun (name, path) => (name, path.toJson)).mapM fun (e : String × Json) =>
      if e.2.fits n then (Path.ofJson? e.2).map fun path => (e.1, path) else none) = some paths := by
  induction paths with
  | nil => rfl
  | cons entry paths ih =>
    obtain ⟨name, path⟩ := entry
    simp only [List.map_cons, Json.membersFit, Bool.and_eq_true] at hfits
    rw [List.map_cons, List.mapM_cons, ih hfits.2]
    dsimp only
    rw [if_pos hfits.1, Path.ofJson?_toJson]
    rfl

theorem ofMembers?_paths {paths : Named (Path Float)} (hm : m.paths = []) (hnames : (names paths).Nodup)
    (hfits : Json.membersFit depth (pathsMember paths) = true) :
    ofMembers? depth child m (pathsMember paths) = some { m with paths := paths } := by
  unfold pathsMember at hfits ⊢
  cases hempty : paths.isEmpty with
  | true =>
    rw [List.isEmpty_iff] at hempty
    subst hempty
    cases m
    cases hm
    rfl
  | false =>
    simp only [hempty, Bool.false_eq_true, if_false, Json.membersFit, Json.fits, Bool.and_eq_true,
      decide_eq_true_eq, and_true] at hfits
    obtain ⟨hdepth, hall⟩ := hfits
    have hread : pathsOfJson? depth (.object (paths.map fun (name, path) => (name, path.toJson))) = some paths := by
      rw [pathsOfJson?, if_neg (by omega), mapM_pathsToJson hall, Option.map_some, ofEntries_of_nodup hnames]
    simp [ofMembers?, hread]

theorem ofMembers?_children {children : Named (Model Float)} (hm : m.children = [])
    (hnames : (names children).Nodup) (hdepth : children ≠ [] → 0 < depth)
    (hread : (childrenToJson children).mapM (fun (e : String × Json) => (child e.2).map fun m => (e.1, m)) =
      some children) :
    ofMembers? depth child m (childrenMember children) = some { m with children := children } := by
  unfold childrenMember
  cases children with
  | nil =>
    cases m
    cases hm
    rfl
  | cons first rest =>
    have hpos : ¬ depth = 0 := by
      have := hdepth (List.cons_ne_nil _ _)
      omega
    have hchildren : childrenOfJson? depth child (.object (childrenToJson (first :: rest))) = some (first :: rest) := by
      rw [childrenOfJson?, if_neg hpos, hread, Option.map_some, ofEntries_of_nodup hnames]
    simp [ofMembers?, hchildren]

theorem ofMembers?_layer {layer : Option Layer} (hm : m.layer = none) :
    ofMembers? depth child m (layerMember layer) = some { m with layer := layer } := by
  cases layer with
  | none =>
    cases m
    cases hm
    rfl
  | some l =>
    have hread : layerOfJson? depth (.string l.name) = some (some l) := by
      unfold layerOfJson? orNull? Layer.ofJson?
      dsimp only
      rw [Layer.ofName?_name]
      rfl
    simp [layerMember, ofMembers?, hread]

/-! ## Drawings -/

theorem names_members_sublist (m : Model Float) :
    ((originMember m.origin ++ pathsMember m.paths ++ childrenMember m.children ++ layerMember m.layer).map
      (·.1)).Sublist memberNames := by
  have horigin : ((originMember m.origin).map (·.1)).Sublist ["origin"] := by
    cases m.origin <;> simp [originMember]
  have hpaths : ((pathsMember m.paths).map (·.1)).Sublist ["paths"] := by
    unfold pathsMember
    split <;> simp
  have hchildren : ((childrenMember m.children).map (·.1)).Sublist ["models"] := by
    unfold childrenMember
    split <;> simp
  have hlayer : ((layerMember m.layer).map (·.1)).Sublist ["layer"] := by
    cases m.layer <;> simp [layerMember]
  simp only [List.map_append]
  exact ((horigin.append hpaths).append hchildren).append hlayer

theorem ownMembers_of_sublist {members : List (String × Json)}
    (h : (members.map (·.1)).Sublist memberNames) : ownMembers members = members := by
  rw [ownMembers, List.filter_eq_self]
  intro entry he
  exact decide_eq_true (h.subset (List.mem_map_of_mem he))

mutual

theorem ofJson?_toJson : ∀ (m : Model Float), m.WellNamed → ∀ n, m.toJson.fits n = true →
    ofJson? n m.toJson = some m
  | ⟨origin, layer, paths, children⟩, h, n, hfits => by
    obtain ⟨hpaths, hnames, hchildren⟩ := h
    rw [toJson_eq] at hfits ⊢
    simp only [Json.fits, Json.membersFit_append, Bool.and_eq_true, decide_eq_true_eq] at hfits
    obtain ⟨hn, ⟨⟨horiginFits, hpathsFit⟩, hchildrenFit⟩, -⟩ := hfits
    obtain ⟨d, rfl⟩ : ∃ d, n = d + 1 := ⟨n - 1, by omega⟩
    rw [Nat.add_sub_cancel] at horiginFits hpathsFit hchildrenFit
    -- without children there is no member for them, and so nothing that has to fit further inside
    have hbelow : children ≠ [] → 0 < d ∧ Json.membersFit (d - 1) (childrenToJson children) = true := by
      intro hne
      have hempty : children.isEmpty = false := by simpa using hne
      simpa [childrenMember, hempty, Json.membersFit, Json.fits] using hchildrenFit
    have hread : (childrenToJson children).mapM (fun (e : String × Json) =>
        (childReader d e.2).map fun m => (e.1, m)) = some children := by
      cases d with
      | zero =>
        have hnil : children = [] := by
          by_contra hne
          exact absurd (hbelow hne).1 (Nat.lt_irrefl 0)
        rw [hnil]
        rfl
      | succ d =>
        by_cases hne : children = []
        · rw [hne]
          rfl
        · exact mapM_childrenToJson children hchildren d (hbelow hne).2
    have hsublist := names_members_sublist ⟨origin, layer, paths, children⟩
    have hown := ownMembers_of_sublist hsublist
    rw [ofJson?_succ, ofJsonWith?, if_pos (Json.atMostOnce_of_nodup ((by decide : memberNames.Nodup).sublist hsublist) _),
      hown, ofMembers?_append, ofMembers?_append, ofMembers?_append, ofMembers?_origin rfl horiginFits,
      Option.bind_some, ofMembers?_paths rfl hpaths hpathsFit, Option.bind_some,
      ofMembers?_children rfl hnames (fun hne => (hbelow hne).1) hread, Option.bind_some, ofMembers?_layer rfl]

theorem mapM_childrenToJson : ∀ (children : List (String × Model Float)), AllWellNamed children →
    ∀ n, Json.membersFit n (childrenToJson children) = true →
      (childrenToJson children).mapM (fun (e : String × Json) => (ofJson? n e.2).map fun m => (e.1, m)) =
        some children
  | [], _, _, _ => rfl
  | (name, child) :: rest, h, n, hfits => by
    rw [childrenToJson, Json.membersFit, Bool.and_eq_true] at hfits
    rw [childrenToJson, List.mapM_cons, mapM_childrenToJson rest h.2 n hfits.2]
    dsimp only
    rw [ofJson?_toJson child h.1 n hfits.1]
    rfl

end

/-! ## Texts -/

theorem membersReadable_append {members more : List (String × Json)} (h : Json.MembersReadable members)
    (h' : Json.MembersReadable more) : Json.MembersReadable (members ++ more) := by
  induction members with
  | nil => exact h'
  | cons entry members ih =>
    obtain ⟨name, value⟩ := entry
    exact ⟨h.1, ih h.2⟩

/-- The JSON text of the double stands for it. -/
def TextReadsBack (x : Float) : Prop := (Json.parse? (Double.text .json x)).bind Json.float? = some x

instance (x : Float) : Decidable (TextReadsBack x) := inferInstanceAs (Decidable (_ = _))

/-- The doubles of which a text of them can be read. -/
def IsWritable (x : Float) : Prop := x.isFinite = true ∧ TextReadsBack x

theorem readsBack_of_isWritable {x : Float} (h : IsWritable x) : Json.ReadsBack (.float x) := by
  have htext : Json.numberText (.float x) = Double.text .json x := if_pos h.1
  constructor
  · rw [htext]
    exact Double.isNumeral_text .json h.1
  · rw [htext]
    obtain ⟨j, hj, hx⟩ := Option.bind_eq_some_iff.mp h.2
    rw [hj]
    unfold Json.float? at hx
    split at hx
    · cases hx
      rfl
    · cases hx

theorem readable_point {p : Point Float} (hx : IsWritable p.x) (hy : IsWritable p.y) : p.toJson.Readable :=
  ⟨readsBack_of_isWritable hx, readsBack_of_isWritable hy, trivial⟩

theorem readable_path {p : Path Float} (h : ∀ x ∈ p.numbers, IsWritable x) : p.toJson.Readable := by
  cases p with
  | line l =>
    simp only [Path.numbers, List.forall_mem_cons] at h
    obtain ⟨hx, hy, hx', hy', -⟩ := h
    exact ⟨trivial, readable_point hx hy, readable_point hx' hy', trivial⟩
  | arc a =>
    simp only [Path.numbers, List.forall_mem_cons] at h
    obtain ⟨hx, hy, hradius, hstart, hend, -⟩ := h
    exact ⟨trivial, readable_point hx hy, readsBack_of_isWritable hradius, readsBack_of_isWritable hstart,
      readsBack_of_isWritable hend, trivial⟩

theorem readable_paths {paths : Named (Path Float)}
    (h : ∀ x ∈ paths.flatMap (fun (_, path) => path.numbers), IsWritable x) :
    Json.MembersReadable (paths.map fun (name, path) => (name, path.toJson)) := by
  induction paths with
  | nil => trivial
  | cons entry paths ih =>
    obtain ⟨name, path⟩ := entry
    rw [List.flatMap_cons, List.forall_mem_append] at h
    exact ⟨readable_path h.1, ih h.2⟩

mutual

theorem readable_toJson : ∀ m : Model Float, (∀ x ∈ m.numbers, IsWritable x) → m.toJson.Readable
  | ⟨origin, layer, paths, children⟩, h => by
    rw [numbers, List.forall_mem_append, List.forall_mem_append] at h
    obtain ⟨⟨horigin, hpaths⟩, hchildren⟩ := h
    rw [toJson_eq]
    refine membersReadable_append (membersReadable_append (membersReadable_append ?_ ?_) ?_) ?_
    · cases origin with
      | none => trivial
      | some p => exact ⟨readable_point (horigin p.x (by simp)) (horigin p.y (by simp)), trivial⟩
    · unfold pathsMember
      split
      · trivial
      · exact ⟨readable_paths hpaths, trivial⟩
    · unfold childrenMember
      split
      · trivial
      · exact ⟨readable_childrenToJson children hchildren, trivial⟩
    · cases layer with
      | none => trivial
      | some l => exact ⟨trivial, trivial⟩

theorem readable_childrenToJson : ∀ children : List (String × Model Float),
    (∀ x ∈ numbersBelow children, IsWritable x) → Json.MembersReadable (childrenToJson children)
  | [], _ => trivial
  | (name, child) :: rest, h => by
    rw [numbersBelow, List.forall_mem_append] at h
    exact ⟨readable_toJson child h.1, readable_childrenToJson rest h.2⟩

end

/-- A value that stands for a drawing is read as that drawing from any text that is parsed as the value. -/
theorem ofText?_of_parse? {m : Model Float} (hnames : m.WellNamed) (hnumbers : ∀ x ∈ m.numbers, IsWritable x)
    (hdepth : m.toJson.depth ≤ depthLimit) {text : String} (hparse : Json.parse? text = some m.toJson) :
    ofText? text = some m := by
  have hfits := Json.fits_of_depth_le m.toJson (readable_toJson m hnumbers) depthLimit hdepth
  rw [ofText?, hparse]
  exact ofJson?_toJson m hnames depthLimit hfits

end Model

end KeyboardPlate
