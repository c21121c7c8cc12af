import KeyboardPlate.Model.Json
import KeyboardPlate.Proofs.Double.Text
import KeyboardPlate.Proofs.Drawing.Refusal
import Std.Data.String.ToNat

/-!
# Reading DXF drawings

A DXF text is read line by line, the lines two by two as pairs of a code and a value, and the pairs of the
section of entities as lines and arcs. What is read from the text of a drawing are its walked paths, in
their order and on their layers.
-/

set_option autoImplicit false

namespace KeyboardPlate

/-- The path with all its numbers replaced. -/
def Path.mapNumbers {α β : Type} (f : α → β) : Path α → Path β
  | line l => line ⟨⟨f l.start.x, f l.start.y⟩, ⟨f l.stop.x, f l.stop.y⟩⟩
  | arc a => arc ⟨⟨f a.center.x, f a.center.y⟩, f a.radius, f a.startAngle, f a.endAngle⟩

namespace Drawing

/-- The double that a numeral stands for. -/
def readNumber? (numeral : String) : Option Float := (Json.parse? numeral).bind coordinate?

/-- A number as it is drawn: what is nearly zero becomes zero. -/
def drawn (x : Float) : Float := if x.abs < 1e-9 then 0.0 else x

theorem isFinite_drawn {x : Float} (h : x.isFinite = true) : (drawn x).isFinite = true := by
  unfold drawn
  split
  · decide +kernel
  · exact h

theorem newline_not_mem_numberText {x : Float} (h : x.isFinite = true) : '\n' ∉ (numberText x).toList := by
  intro hmem
  have hchar := Double.isNumeral_text .drawing (isFinite_drawn h) '\n' hmem
  cases hchar

theorem readNumber?_numberText {x : Float}
    (h : x.isFinite = true → readNumber? (Double.text .drawing x) = some x) (hx : x.isFinite = true) :
    readNumber? (numberText x) = some (drawn x) := by
  change readNumber? (Double.text .drawing (drawn x)) = some (drawn x)
  unfold drawn
  split
  · decide +kernel
  · exact h hx

namespace Dxf

/-! ## Lines and pairs -/

/-- The lines of a text, every one of which ends in a line break. -/
def readLines? : List Char → Option (List (List Char))
  | [] => some []
  | c :: rest =>
    if c = '\n' then (readLines? rest).map ([] :: ·)
    else
      match readLines? rest with
      | some (line :: others) => some ((c :: line) :: others)
      | _ => none

/-- The pairs that stand on lines. -/
def pairsOf? : List (List Char) → Option (List Pair)
  | [] => some []
  | [_] => none
  | code :: value :: rest => do
    let n ← (String.ofList code).toNat?
    return (n, String.ofList value) :: (← pairsOf? rest)

def readPairs? (text : String) : Option (List Pair) := (readLines? text.toList).bind pairsOf?

/-- The values stand on one line each. -/
def OneLined (ps : List Pair) : Prop := ∀ p ∈ ps, '\n' ∉ p.2.toList

theorem readLines?_append {line : List Char} (h : '\n' ∉ line) (rest : List Char) :
    readLines? (line ++ '\n' :: rest) = (readLines? rest).map (line :: ·) := by
  induction line with
  | nil => simp [readLines?]
  | cons c line ih =>
    rw [List.mem_cons, not_or] at h
    obtain ⟨hc, hline⟩ := h
    rw [List.cons_append, readLines?, if_neg (Ne.symm hc), ih hline]
    cases readLines? rest with
    | none => rfl
    | some others => rfl

theorem newline_not_mem_toString (n : Nat) : '\n' ∉ (toString n).toList := by
  intro hmem
  rw [Nat.toString_eq_repr, Nat.toList_repr] at hmem
  have hdigit : ('\n' : Char).isDigit = true := Nat.isDigit_of_mem_toDigits (by omega) (by omega) hmem
  cases hdigit

theorem toList_lines_cons (code : Nat) (value : String) (ps : List Pair) :
    (lines ((code, value) :: ps)).toList =
      (toString code).toList ++ '\n' :: (value.toList ++ '\n' :: (lines ps).toList) := by
  simp [lines, String.toList_join]

theorem readPairs?_lines {ps : List Pair} (h : OneLined ps) : readPairs? (lines ps) = some ps := by
  induction ps with
  | nil => rfl
  | cons p ps ih =>
    obtain ⟨code, value⟩ := p
    have hvalue : '\n' ∉ value.toList := h (code, value) (by simp)
    have hrest : readPairs? (lines ps) = some ps := ih fun q hq => h q (List.mem_cons_of_mem _ hq)
    unfold readPairs? at hrest ⊢
    rw [toList_lines_cons, readLines?_append (newline_not_mem_toString code), readLines?_append hvalue]
    obtain ⟨ls, hls, hps⟩ := Option.bind_eq_some_iff.mp hrest
    have hcode : (String.ofList (toString code).toList).toNat? = some code := by
      rw [String.ofList_toList, Nat.toString_eq_repr]
      exact Nat.toNat?_repr code
    rw [hls, Option.map_some, Option.map_some, Option.bind_some, pairsOf?, hcode, hps, String.ofList_toList]
    rfl

theorem count_newline_lines {ps : List Pair} (h : OneLined ps) :
    (lines ps).toList.count '\n' = 2 * ps.length := by
  induction ps with
  | nil => rfl
  | cons p ps ih =>
    obtain ⟨code, value⟩ := p
    have hvalue : value.toList.count '\n' = 0 := List.count_eq_zero.mpr (h (code, value) (by simp))
    have hcode : (toString code).toList.count '\n' = 0 := List.count_eq_zero.mpr (newline_not_mem_toString code)
    have hrest := ih fun q hq => h q (List.mem_cons_of_mem _ hq)
    rw [toList_lines_cons]
    simp only [List.count_append, List.count_cons_self, hvalue, hcode, hrest, List.length_cons]
    omega

/-! ## Entities -/

/-- The pairs of the section of entities. -/
def entitySection? : List Pair → Option (List Pair)
  | (0, "SECTION") :: (2, "ENTITIES") :: rest => some (rest.takeWhile fun p => p ≠ (0, "ENDSEC"))
  | _ :: rest => entitySection? rest
  | [] => none

/-- The entities in a list of pairs: the names of their layers and their paths. -/
def entities? : List Pair → Option (List (String × Path Float))
  | [] => some []
  | (0, "LINE") :: (8, layer) :: (10, x) :: (20, y) :: (11, u) :: (21, v) :: rest => do
    let line : Line Float := ⟨⟨← readNumber? x, ← readNumber? y⟩, ⟨← readNumber? u, ← readNumber? v⟩⟩
    return (layer, .line line) :: (← entities? rest)
  | (0, "ARC") :: (8, layer) :: (10, x) :: (20, y) :: (40, r) :: (50, a) :: (51, b) :: rest => do
    let arc : Arc Float :=
      ⟨⟨← readNumber? x, ← readNumber? y⟩, ← readNumber? r, ← readNumber? a, ← readNumber? b⟩
    return (layer, .arc arc) :: (← entities? rest)
  | _ => none

/-- The entities of a text. -/
def decode? (text : String) : Option (List (String × Path Float)) := do
  entities? (← entitySection? (← readPairs? text))

/-- The finite numbers of a path read back from their numerals. -/
def ReadsBack (p : Path Float) : Prop :=
  ∀ entry ∈ numbers p, entry.2.isFinite = true → readNumber? (Double.text .drawing entry.2) = some entry.2

instance (p : Path Float) : Decidable (ReadsBack p) :=
  inferInstanceAs (Decidable (∀ entry ∈ numbers p, _ → _))

section Entity
variable {w : WalkedPath Float} {es : List Pair}

theorem entity_eq_ok_iff :
    entity numberText w = .ok es ↔ AllFinite (numbers w.path) ∧
      es = (0, (kind w.path).1) :: (8, w.layer.name) ::
        (kind w.path).2.zip ((numbers w.path).map fun entry => numberText entry.2) := by
  unfold entity
  rw [Except.bind_eq_ok_iff]
  constructor
  · rintro ⟨u, hu, h⟩
    cases h
    exact ⟨(guarded_checkFinite w.route _).ok_iff.mp ⟨u, hu⟩, rfl⟩
  · rintro ⟨hfin, rfl⟩
    obtain ⟨u, hu⟩ := (guarded_checkFinite w.route _).ok hfin
    exact ⟨u, hu, rfl⟩

theorem oneLined_entity (h : entity numberText w = .ok es) : OneLined es := by
  obtain ⟨hfin, rfl⟩ := entity_eq_ok_iff.mp h
  have hlayer (layer : Layer) : '\n' ∉ layer.name.toList := by cases layer <;> decide
  have hkind : '\n' ∉ (kind w.path).1.toList := by
    cases w.path with
    | line l => exact (by decide : '\n' ∉ "LINE".toList)
    | arc a => exact (by decide : '\n' ∉ "ARC".toList)
  intro p hp
  rcases List.mem_cons.mp hp with rfl | hp
  · exact hkind
  · rcases List.mem_cons.mp hp with rfl | hp
    · exact hlayer w.layer
    · obtain ⟨code, value⟩ := p
      obtain ⟨entry, hentry, rfl⟩ := List.mem_map.mp (List.of_mem_zip hp).2
      exact newline_not_mem_numberText (hfin entry hentry)

theorem endsec_not_mem_entity (h : entity numberText w = .ok es) : (0, "ENDSEC") ∉ es := by
  obtain ⟨-, rfl⟩ := entity_eq_ok_iff.mp h
  intro hp
  rcases List.mem_cons.mp hp with hp | hp
  · cases hw : w.path with
    | line l => simp [hw, kind] at hp
    | arc a => simp [hw, kind] at hp
  · rcases List.mem_cons.mp hp with hp | hp
    · cases hp
    · have hcode := (List.of_mem_zip hp).1
      cases hw : w.path with
      | line l => simp [hw, kind] at hcode
      | arc a => simp [hw, kind] at hcode

theorem entities?_entity (h : entity numberText w = .ok es) (hread : ReadsBack w.path) (rest : List Pair) :
    entities? (es ++ rest) =
      (entities? rest).map ((w.layer.name, w.path.mapNumbers drawn) :: ·) := by
  obtain ⟨hfin, rfl⟩ := entity_eq_ok_iff.mp h
  have hnumber : ∀ entry ∈ numbers w.path, readNumber? (numberText entry.2) = some (drawn entry.2) :=
    fun entry he => readNumber?_numberText (hread entry he) (hfin entry he)
  cases hw : w.path with
  | line l =>
    simp only [hw, numbers, List.forall_mem_cons] at hnumber
    obtain ⟨hx, hy, hu, hv, -⟩ := hnumber
    simp only [kind, numbers, List.map_cons, List.map_nil, List.zip_cons_cons, List.zip_nil_right,
      List.cons_append, List.nil_append, entities?, hx, hy, hu, hv, Path.mapNumbers]
    cases entities? rest <;> rfl
  | arc a =>
    simp only [hw, numbers, List.forall_mem_cons] at hnumber
    obtain ⟨hx, hy, hr, hs, he, -⟩ := hnumber
    simp only [kind, numbers, List.map_cons, List.map_nil, List.zip_cons_cons, List.zip_nil_right,
      List.cons_append, List.nil_append, entities?, hx, hy, hr, hs, he, Path.mapNumbers]
    cases entities? rest <;> rfl

end Entity

theorem entities?_flatten {walk : List (WalkedPath Float)} {entities : List (List Pair)}
    (h : List.Forall₂ (fun w es => entity numberText w = .ok es) walk entities)
    (hread : ∀ w ∈ walk, ReadsBack w.path) :
    entities? entities.flatten = some (walk.map fun w => (w.layer.name, w.path.mapNumbers drawn)) := by
  induction h with
  | nil => rfl
  | cons hw _ ih =>
    rw [List.forall_mem_cons] at hread
    rw [List.flatten_cons, entities?_entity hw hread.1, ih hread.2]
    rfl

/-! ## Whole drawings -/

/-- The pairs of a drawing with the given entities. -/
def document (entities : List Pair) : List Pair :=
  header ++ tables ++ [(0, "SECTION"), (2, "ENTITIES")] ++ entities ++ [(0, "ENDSEC"), (0, "EOF")]

theorem oneLined_document {es : List Pair} (h : OneLined es) : OneLined (document es) := by
  have hhead : OneLined (header ++ tables ++ [(0, "SECTION"), (2, "ENTITIES")]) := by
    unfold OneLined
    decide
  have htail : OneLined [(0, "ENDSEC"), (0, "EOF")] := by
    unfold OneLined
    decide
  intro p hp
  rcases List.mem_append.mp hp with hp | hp
  · rcases List.mem_append.mp hp with hp | hp
    · exact hhead p hp
    · exact h p hp
  · exact htail p hp

theorem entitySection?_document {es : List Pair} (h : (0, "ENDSEC") ∉ es) :
    entitySection? (document es) = some es := by
  have hhead : ∀ rest, entitySection? (header ++ tables ++ [(0, "SECTION"), (2, "ENTITIES")] ++ rest) =
      some (rest.takeWhile fun p => p ≠ (0, "ENDSEC")) := fun rest => rfl
  unfold document
  rw [List.append_assoc, hhead, List.takeWhile_append_of_pos]
  · simp
  · intro p hp
    rw [decide_eq_true_eq]
    rintro rfl
    exact h hp

theorem dxf_eq_ok_iff {m : Model Float} {text : String} :
    dxf m = .ok text ↔ m.walk ≠ [] ∧ ∃ entities, m.walk.mapM (entity numberText) = .ok entities ∧
      text = lines (document entities.flatten) := by
  by_cases h : m.walk = []
  · unfold dxf
    rw [dxfWith_of_walk_eq_nil numberText h]
    simp [h]
  · unfold dxf dxfWith
    rw [pairs_of_walk_ne_nil numberText h, Except.map_eq_ok_iff]
    constructor
    · rintro ⟨ps, hps, rfl⟩
      obtain ⟨entities, hentities, hps⟩ := Except.bind_eq_ok_iff.mp hps
      cases hps
      exact ⟨h, entities, hentities, rfl⟩
    · rintro ⟨-, entities, hentities, rfl⟩
      exact ⟨_, Except.bind_eq_ok_iff.mpr ⟨entities, hentities, rfl⟩, rfl⟩

/-- A drawing has a text if it has paths and all their numbers are finite. The text is a list of pairs on
two lines each, in one way only, and its entities are the walked paths. -/
theorem dxf_decode {m : Model Float} (hread : ∀ w ∈ m.walk, ReadsBack w.path) :
    ((∃ text, dxf m = .ok text) ↔ m.walk ≠ [] ∧ ∀ w ∈ m.walk, AllFinite (numbers w.path)) ∧
    ∀ text, dxf m = .ok text →
      (∃! ps : List Pair, OneLined ps ∧ lines ps = text ∧ text.toList.count '\n' = 2 * ps.length) ∧
      decode? text = some (m.walk.map fun w => (w.layer.name, w.path.mapNumbers drawn)) := by
  constructor
  · by_cases h : m.walk = []
    · unfold dxf
      rw [dxfWith_of_walk_eq_nil numberText h]
      simp [h]
    · exact (guarded_dxfWith numberText h).ok_iff.trans ⟨fun hall => ⟨h, hall⟩, fun hall => hall.2⟩
  · intro text htext
    obtain ⟨-, entities, hentities, rfl⟩ := dxf_eq_ok_iff.mp htext
    have hall := Except.mapM_eq_ok_iff.mp hentities
    have hlined : OneLined (document entities.flatten) := by
      refine oneLined_document fun p hp => ?_
      obtain ⟨es, hes, hp⟩ := List.mem_flatten.mp hp
      obtain ⟨w, -, hw⟩ := Except.exists_of_mem_mapM hentities hes
      exact oneLined_entity hw p hp
    have hpairs := readPairs?_lines hlined
    refine ⟨⟨document entities.flatten, ⟨hlined, rfl, count_newline_lines hlined⟩, ?_⟩, ?_⟩
    · rintro qs ⟨hqs, heq, -⟩
      have hqs := readPairs?_lines hqs
      rw [heq, hpairs] at hqs
      exact (Option.some.inj hqs).symm
    · -- the section ends at its own last pair, since no entity holds a pair like it
      have hend : (0, "ENDSEC") ∉ entities.flatten := by
        intro hp
        obtain ⟨es, hes, hp⟩ := List.mem_flatten.mp hp
        obtain ⟨w, -, hw⟩ := Except.exists_of_mem_mapM hentities hes
        exact endsec_not_mem_entity hw hp
      have hsection := entitySection?_document hend
      simp only [decode?, hpairs, hsection, Option.bind_eq_bind, Option.bind_some]
      exact entities?_flatten hall hread

/-- A line under a name that looks like the end of a section, and an arc on copper. -/
def misnamed : Model Float := {
  paths := [("a\n0\nENDSEC", .between ⟨0, 1e-12⟩ ⟨19.05, -1.5⟩)]
  children := [("0", {
    origin := some ⟨0.1, 0⟩
    layer := some .top
    paths := [("LINE", .arc ⟨⟨0.2, -1e20⟩, 0.5, 270, 359.99999999⟩)] })] }

theorem misnamed_decode : ∃ text, dxf misnamed = .ok text ∧
    decode? text = some (misnamed.walk.map fun w => (w.layer.name, w.path.mapNumbers drawn)) := by
  have hread : ∀ w ∈ misnamed.walk, ReadsBack w.path := by decide +kernel
  obtain ⟨text, h⟩ := Except.exists_of_isOk (x := dxf misnamed) (by decide +kernel)
  exact ⟨text, h, ((dxf_decode hread).2 text h).2⟩

end Dxf

end Drawing

end KeyboardPlate
