import Mathlib.Data.List.FinRange
import KeyboardPlate.Proofs.Geometry.Ring
import KeyboardPlate.Proofs.Plate.Aperture
import KeyboardPlate.Proofs.Plate.Names
import KeyboardPlate.Proofs.Plate.Rectangle
import KeyboardPlate.Plate.Slot

/-!
# Lines under running numbers

A run of fillets finds its lines by their numbers, cuts them where they stand in the drawing and draws its arcs behind
all that was there. As long as no name is used twice this is a run on the lines themselves.
-/

set_option autoImplicit false

namespace KeyboardPlate

/-! ## Putting things between others -/

namespace Named

variable {β ι : Type} {name : String} {older later things : Named β}

theorem put_append_of_not_mem (h : name ∉ names older) (thing : β) :
    put name thing (older ++ things) = older ++ put name thing things := by
  induction older with
  | nil => rfl
  | cons entry older ih =>
    obtain ⟨n, t⟩ := entry
    obtain ⟨hne, hrest⟩ := List.ne_and_not_mem_of_not_mem_cons h
    rw [List.cons_append, put, if_neg hne.symm, ih hrest, List.cons_append]

theorem put_append_of_mem (h : name ∈ names things) (thing : β) :
    put name thing (things ++ later) = put name thing things ++ later := by
  induction things with
  | nil => cases h
  | cons entry things ih =>
    obtain ⟨n, t⟩ := entry
    rw [List.cons_append, put, put]
    split
    · rfl
    · rename_i hne
      rw [ih ((List.mem_cons.mp h).resolve_left (Ne.symm hne)), List.cons_append]

/-- Putting a thing in the place of one of many under names of their own. -/
theorem put_map [DecidableEq ι] {key : ι → String} (hkey : Function.Injective key) (f : ι → β) {a : ι} (thing : β) :
    ∀ {is : List ι}, is.Nodup → a ∈ is →
      put (key a) thing (is.map fun i => (key i, f i)) = is.map fun i => (key i, Function.update f a thing i)
  | i :: is, hnodup, ha => by
    obtain ⟨hnew, hnodup⟩ := List.nodup_cons.mp hnodup
    rw [List.map_cons, List.map_cons, put]
    by_cases hi : i = a
    · subst hi
      have hrest : ∀ j ∈ is, (key j, f j) = (key j, Function.update f i thing j) := by
        intro j hj
        have hne : j ≠ i := fun heq => hnew (heq ▸ hj)
        rw [Function.update_of_ne hne]
      rw [if_pos rfl, Function.update_self, List.map_congr_left hrest]
    · have hmem := (List.mem_cons.mp ha).resolve_left (Ne.symm hi)
      rw [if_neg (fun heq => hi (hkey heq)), Function.update_of_ne hi, put_map hkey f thing hnodup hmem]

theorem get?_append_of_not_mem (h : name ∉ names older) : get? name (older ++ things) = get? name things := by
  induction older with
  | nil => rfl
  | cons entry older ih =>
    obtain ⟨n, t⟩ := entry
    obtain ⟨hne, hrest⟩ := List.ne_and_not_mem_of_not_mem_cons h
    rw [← ih hrest]
    simp [get?, hne.symm]

theorem get?_append_of_eq_some {thing : β} (h : get? name things = some thing) :
    get? name (things ++ later) = some thing := by
  obtain ⟨entry, hentry, hthing⟩ := Option.map_eq_some_iff.mp h
  unfold get?
  rw [List.find?_append, hentry, ← hthing]
  rfl

theorem get?_map {key : ι → String} (hkey : Function.Injective key) (f : ι → β) {a : ι} :
    ∀ {is : List ι}, a ∈ is → get? (key a) (is.map fun i => (key i, f i)) = some (f a)
  | i :: is, ha => by
    by_cases hi : i = a
    · subst hi
      simp [get?]
    · have hmem := (List.mem_cons.mp ha).resolve_left (Ne.symm hi)
      have hne : key i ≠ key a := fun heq => hi (hkey heq)
      rw [← get?_map hkey f hmem]
      simp [get?, hne]

end Named

namespace Slot

open Named

theorem lineName_injective : Function.Injective lineName := fun _ _ h =>
  (Plate.word_append_toString_inj (by decide) (by decide) h).2

/-- Paths under running numbers. -/
def numbered (name : Nat → String) : Nat → List (Path ℝ) → Named (Path ℝ)
  | _, [] => []
  | first, path :: paths => (name first, path) :: numbered name (first + 1) paths

theorem names_numbered (name : Nat → String) (first : Nat) (paths : List (Path ℝ)) :
    names (numbered name first paths) = (List.range' first paths.length).map name := by
  induction paths generalizing first with
  | nil => rfl
  | cons path paths ih =>
    have hcons : names (numbered name first (path :: paths)) =
      name first :: names (numbered name (first + 1) paths) := rfl
    rw [hcons, ih, List.length_cons, List.range'_succ, List.map_cons]

theorem numbered_ofFn (name : Nat → String) {n : Nat} (first : Nat) (f : Fin n → Path ℝ) :
    numbered name first (List.ofFn f) = (List.finRange n).map fun i : Fin n => (name (first + i), f i) := by
  induction n generalizing first with
  | zero => rfl
  | succ n ih =>
    rw [List.ofFn_succ, numbered, ih, List.finRange_succ, List.map_cons, List.map_map]
    refine congrArg₂ _ rfl (List.map_congr_left fun i _ => ?_)
    simp [Nat.add_assoc, Nat.add_comm 1]

section
variable {n : Nat} {older later : Named (Path ℝ)} {first : Nat} {L L' : Fin n → Line ℝ} {a b : Fin n}
  {fresh : String} {r : ℝ} {m m' : Model ℝ}

/-- A drawing with numbered lines between older and later paths. -/
def sheet (older : Named (Path ℝ)) (first : Nat) (L : Fin n → Line ℝ) (later : Named (Path ℝ)) : Model ℝ :=
  { paths := older ++ numbered lineName first (List.ofFn fun i => .line (L i)) ++ later }

theorem names_sheet : names (sheet older first L later).paths =
    names older ++ (List.range' first n).map lineName ++ names later := by
  unfold sheet
  rw [names_append, names_append, names_numbered, List.length_ofFn]

theorem key_injective (n first : Nat) : Function.Injective fun i : Fin n => lineName (first + i) := by
  intro i j h
  exact Fin.ext (Nat.add_left_cancel (lineName_injective h))

theorem mem_lineNames (first : Nat) (i : Fin n) : lineName (first + i) ∈ (List.range' first n).map lineName := by
  refine List.mem_map_of_mem (List.mem_range'_1.mpr ⟨Nat.le_add_right _ _, ?_⟩)
  exact Nat.add_lt_add_left i.isLt first

/-- A name that no other path has. -/
theorem not_mem_older (h : (names (sheet older first L later).paths).Nodup) (i : Fin n) :
    lineName (first + i) ∉ names older := by
  rw [names_sheet, List.append_assoc] at h
  intro hmem
  exact (List.nodup_append.mp h).2.2 _ hmem _ (List.mem_append_left _ (mem_lineNames first i)) rfl

theorem get?_sheet (h : (names (sheet older first L later).paths).Nodup) (i : Fin n) :
    get? (lineName (first + i)) (sheet older first L later).paths = some (.line (L i)) := by
  have hget := get?_map (key_injective n first) (fun i => Path.line (L i)) (List.mem_finRange i)
  unfold sheet
  dsimp only
  rw [List.append_assoc, get?_append_of_not_mem (not_mem_older h i), numbered_ofFn]
  exact get?_append_of_eq_some hget

theorem addPath_sheet (h : (names (sheet older first L later).paths).Nodup) (i : Fin n) (line : Line ℝ) :
    (sheet older first L later).addPath (lineName (first + i)) (.line line) =
      sheet older first (Function.update L i line) later := by
  have hput := put_map (key_injective n first) (fun i => Path.line (L i)) (.line line) (List.nodup_finRange n)
    (List.mem_finRange i)
  have hupdate : Function.update (fun i => Path.line (L i)) i (.line line) =
      fun j => Path.line (Function.update L i line j) := by
    funext j
    by_cases hj : j = i
    · subst hj
      rw [Function.update_self, Function.update_self]
    · rw [Function.update_of_ne hj, Function.update_of_ne hj]
  have hmem : lineName (first + i) ∈ names ((List.finRange n).map fun i : Fin n =>
      (lineName (first + i), Path.line (L i))) := by
    rw [← numbered_ofFn lineName first fun i => Path.line (L i), names_numbered, List.length_ofFn]
    exact mem_lineNames first i
  unfold sheet Model.addPath
  dsimp only
  rw [List.append_assoc, put_append_of_not_mem (not_mem_older h i), numbered_ofFn, put_append_of_mem hmem, hput,
    hupdate, ← numbered_ofFn lineName first fun j => Path.line (Function.update L i line j), List.append_assoc]

theorem addPath_fresh (h : fresh ∉ names (sheet older first L later).paths) (path : Path ℝ) :
    (sheet older first L later).addPath fresh path = sheet older first L (later ++ [(fresh, path)]) := by
  have hput := put_of_not_mem h path
  unfold sheet Model.addPath at *
  dsimp only at *
  rw [hput, List.append_assoc _ later]

theorem addPath_fresh_pair {fresh' : String} (h : (names (sheet older first L later).paths ++ [fresh, fresh']).Nodup)
    (path path' : Path ℝ) : ((sheet older first L later).addPath fresh path).addPath fresh' path' =
      sheet older first L (later ++ [(fresh, path), (fresh', path')]) := by
  obtain ⟨-, hdistinct, hnew⟩ := List.nodup_append.mp h
  have hfresh : fresh ∉ names (sheet older first L later).paths := fun hmem => hnew _ hmem _ (.head _) rfl
  have hfresh' : fresh' ∉ names (sheet older first L (later ++ [(fresh, path)])).paths := by
    intro hmem
    rw [names_sheet] at hnew hmem
    rw [names_append, ← List.append_assoc] at hmem
    rcases List.mem_append.mp hmem with hmem | hmem
    · exact hnew _ hmem _ (.tail _ (.head _)) rfl
    · exact (List.nodup_cons.mp hdistinct).1 (List.mem_singleton.mp hmem ▸ .head _)
  rw [addPath_fresh hfresh, addPath_fresh hfresh', List.append_assoc]
  rfl

/-- A fillet between two of the lines. -/
theorem addFillet_sheet (h : (names (sheet older first L later).paths ++ [fresh]).Nodup) (hr : 0 < r) :
    (sheet older first L later).addFillet fresh (lineName (first + a)) (lineName (first + b)) r = .ok m' ↔
      ∃ A B arc, (L a).fillet (L b) r = .ok (A, B, arc) ∧
        m' = sheet older first (cut L a b A B) (later ++ [(fresh, .arc arc)]) := by
  obtain ⟨hnodup, -, hfresh⟩ := List.nodup_append.mp h
  have hnew : ∀ L : Fin n → Line ℝ, fresh ∉ names (sheet older first L later).paths := by
    intro L hmem
    rw [names_sheet] at hmem
    exact hfresh fresh (by rwa [names_sheet]) fresh (List.mem_singleton_self _) rfl
  have hcut : ∀ A B arc, (((sheet older first L later).addPath (lineName (first + a)) (.line A)).addPath
      (lineName (first + b)) (.line B)).addPath fresh (.arc arc) =
        sheet older first (cut L a b A B) (later ++ [(fresh, .arc arc)]) := by
    intro A B arc
    have hnodup' : (names (sheet older first (Function.update L a A) later).paths).Nodup := by
      rw [names_sheet]
      rwa [names_sheet] at hnodup
    rw [addPath_sheet hnodup, addPath_sheet hnodup', addPath_fresh (hnew _)]
    rfl
  constructor
  · intro hadd
    obtain ⟨A, B, arc, hfillet, rfl⟩ := Model.fillet_of_addFillet (get?_sheet hnodup a) (get?_sheet hnodup b) hadd
    exact ⟨A, B, arc, hfillet, hcut A B arc⟩
  · rintro ⟨A, B, arc, hfillet, rfl⟩
    rw [Model.addFillet_of_fillet (get?_sheet hnodup a) (get?_sheet hnodup b) hr hfillet, hcut]

/-! ## Whole runs -/

theorem drawLines_eq {lines : List (Point ℝ × Point ℝ)} {number : Nat} :
    (names older ++ (List.range' first lines.length).map lineName).Nodup →
      Sketch.drawLines lines ⟨{ paths := older }, first, number⟩ =
        (⟨{ paths := older ++ numbered lineName first (lines.map fun (p, q) => .between p q) },
            first + lines.length, number⟩,
          (List.range' first lines.length).map lineName) := by
  induction lines generalizing first older with
  | nil =>
    intro _
    simp [Sketch.drawLines, numbered]
  | cons line lines ih =>
    obtain ⟨p, q⟩ := line
    intro h
    rw [List.length_cons, List.range'_succ, List.map_cons] at h
    have hnew : lineName first ∉ names older := fun hmem =>
      (List.nodup_append.mp h).2.2 _ hmem _ (.head _) rfl
    have hdrawn : Sketch.addLine ⟨{ paths := older }, first, number⟩ p q =
        ⟨{ paths := older ++ [(lineName first, .between p q)] }, first + 1, number⟩ := by
      unfold Sketch.addLine Model.addPath
      rw [put_of_not_mem hnew]
    have hrest : (names (older ++ [(lineName first, Path.between p q)]) ++
        (List.range' (first + 1) lines.length).map lineName).Nodup := by
      rw [names_append, List.append_assoc]
      exact h
    rw [Sketch.drawLines, hdrawn, ih hrest, List.append_assoc, List.length_cons, List.range'_succ, List.map_cons,
      Nat.add_right_comm first 1, Nat.add_assoc]
    rfl

/-- Lines take the numbers that come next, and their names are told in order. -/
theorem drawLines_sheet (number : Nat) (h : (names older ++ (List.range' first n).map lineName).Nodup) :
    Sketch.drawLines (List.ofFn fun i => ((L i).start, (L i).stop)) ⟨{ paths := older }, first, number⟩ =
      (⟨sheet older first L [], first + n, number⟩, List.ofFn fun i : Fin n => lineName (first + i)) := by
  have hnames : (List.range' first n).map lineName = List.ofFn fun i : Fin n => lineName (first + i) := by
    rw [List.range'_eq_map_range, List.map_map, ← List.map_coe_finRange_eq_range, List.map_map, List.ofFn_eq_map]
    rfl
  rw [drawLines_eq (by rwa [List.length_ofFn]), List.map_ofFn, List.length_ofFn, hnames]
  unfold sheet
  rw [List.append_nil]
  rfl

theorem getElem!_ofFn (f : Fin n → String) (i : Fin n) : (List.ofFn f)[i.val]! = f i := by
  rw [getElem!_pos _ _ (by rw [List.length_ofFn]; exact i.isLt), List.getElem_ofFn]

/-- A fillet between two of the lines takes the number that comes next. -/
theorem sketch_addFillet {next number : Nat} {radius : Decimal} {sketch : Sketch ℝ} (hradius : 0 < radius)
    (h : (names (sheet older first L later).paths ++ [filletName number]).Nodup) :
    Sketch.addFillet ⟨sheet older first L later, next, number⟩ radius (lineName (first + a)) (lineName (first + b)) =
        .ok sketch ↔
      ∃ A B arc, (L a).fillet (L b) (radius.toRat : ℝ) = .ok (A, B, arc) ∧
        sketch = ⟨sheet older first (cut L a b A B) (later ++ [(filletName number, .arc arc)]), next, number + 1⟩ := by
  have hpositive : (0 : ℝ) < Scalar.ofDecimal radius := Rat.cast_pos.mpr (Decimal.pos_iff.mp hradius)
  unfold Sketch.addFillet
  rw [Except.bind_eq_ok_iff]
  constructor
  · rintro ⟨drawn, hdrawn, hsketch⟩
    obtain ⟨A, B, arc, hfillet, rfl⟩ := (addFillet_sheet h hpositive).mp (Except.mapError_eq_ok_iff.mp hdrawn)
    exact ⟨A, B, arc, hfillet, (Except.ok.inj hsketch).symm⟩
  · rintro ⟨A, B, arc, hfillet, rfl⟩
    exact ⟨_, Except.mapError_eq_ok_iff.mpr ((addFillet_sheet h hpositive).mpr ⟨A, B, arc, hfillet, rfl⟩), rfl⟩

theorem foldlM_addFillet {next : Nat} {radius : Decimal} {sketch : Sketch ℝ} (hradius : 0 < radius)
    (joints : List (Fin n × Fin n)) (number : Nat) :
    (names (sheet older first L later).paths ++ (List.range' number joints.length).map filletName).Nodup →
      ((joints.map fun j => (j.1.val, j.2.val)).foldlM
          (fun sketch (a, b) => Sketch.addFillet sketch radius (List.ofFn fun i : Fin n => lineName (first + i))[a]!
            (List.ofFn fun i : Fin n => lineName (first + i))[b]!)
          (⟨sheet older first L later, next, number⟩ : Sketch ℝ) = .ok sketch ↔
        ∃ L' arcs, Filleted (radius.toRat : ℝ) joints L L' arcs ∧
          sketch = ⟨sheet older first L' (later ++ numbered filletName number (arcs.map .arc)), next,
            number + joints.length⟩) := by
  induction joints generalizing number L later with
  | nil =>
    intro _
    constructor
    · intro hdone
      cases hdone
      exact ⟨L, [], .nil L, by simp [numbered]⟩
    · rintro ⟨L', arcs, hrun, rfl⟩
      cases hrun
      simp [numbered, pure, Except.pure]
  | cons j joints ih =>
    obtain ⟨a, b⟩ := j
    intro h
    rw [List.length_cons, List.range'_succ, List.map_cons, ← List.singleton_append, ← List.append_assoc] at h
    have hfirst := (List.nodup_append.mp h).1
    have hrest : ∀ (A B : Line ℝ) (arc : Arc ℝ),
        (names (sheet older first (cut L a b A B) (later ++ [(filletName number, Path.arc arc)])).paths ++
          (List.range' (number + 1) joints.length).map filletName).Nodup := by
      intro A B arc
      rw [names_sheet] at h ⊢
      rw [names_append, ← List.append_assoc]
      exact h
    have hcount : number + 1 + joints.length = number + (joints.length + 1) := by omega
    rw [List.map_cons, List.foldlM_cons, Except.bind_eq_ok_iff, List.length_cons, ← hcount]
    dsimp only
    rw [getElem!_ofFn, getElem!_ofFn]
    constructor
    · rintro ⟨sketch₁, hstep, hdone⟩
      obtain ⟨A, B, arc, hfillet, rfl⟩ := (sketch_addFillet hradius hfirst).mp hstep
      obtain ⟨L', arcs, hrun, rfl⟩ := (ih (number + 1) (hrest A B arc)).mp hdone
      exact ⟨L', arc :: arcs, .cons hfillet hrun, by rw [List.append_assoc]; rfl⟩
    · rintro ⟨L', arcs, hrun, rfl⟩
      cases hrun with
      | @cons _ _ _ _ _ A B arc arcs hfillet hrun =>
        refine ⟨_, (sketch_addFillet hradius hfirst).mpr ⟨A, B, arc, hfillet, rfl⟩, ?_⟩
        exact (ih (number + 1) (hrest A B arc)).mpr ⟨L', arcs, hrun, by rw [List.append_assoc]; rfl⟩

/-- Fillets drawn between numbered lines are a run of fillets on these lines, and take the numbers that come next. -/
theorem drawFillets_sheet {radius : Decimal} {next number : Nat} {joints : List (Fin n × Fin n)} {sketch : Sketch ℝ}
    (hradius : 0 < radius)
    (h : (names (sheet older first L later).paths ++ (List.range' number joints.length).map filletName).Nodup) :
    Sketch.drawFillets radius (List.ofFn fun i : Fin n => lineName (first + i))
          (joints.map fun j => (j.1.val, j.2.val)) ⟨sheet older first L later, next, number⟩ = .ok sketch ↔
      ∃ L' arcs, Filleted (radius.toRat : ℝ) joints L L' arcs ∧
        sketch = ⟨sheet older first L' (later ++ numbered filletName number (arcs.map .arc)), next,
          number + joints.length⟩ := by
  unfold Sketch.drawFillets
  rw [if_pos hradius]
  exact foldlM_addFillet hradius joints number h

end

end Slot

end KeyboardPlate
