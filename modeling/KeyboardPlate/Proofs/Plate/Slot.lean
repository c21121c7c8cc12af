import KeyboardPlate.Proofs.Plate.SlotCorner

/-!
# Slots around a switch close

Each slot is one ring of lines and arcs, whatever its sizes are, as long as its fillets fit. The four slots are the
mirror images of the first, and no two of their paths share a name.
-/

set_option autoImplicit false

namespace KeyboardPlate

namespace Slot

open Named

section
variable {x y outerX outerY : Decimal} {signs : Decimal × Decimal} {s : Slot}

/-- Drawings of one corner after the other stand behind each other if their names differ. What a corner adds to the
running numbers is the same for all corners, so these are a matter of how many corners there have been. -/
theorem foldlM_blocks {f : Sketch ℝ → (Decimal × Decimal) × Nat → Except (PlateError ℝ) (Sketch ℝ)}
    {lines fillets : Nat} {blockNames : Nat → List String} (Block : Decimal × Decimal → Nat → Named (Path ℝ) → Prop)
    (hnames : ∀ {signs quadrant block}, Block signs quadrant block → names block = blockNames quadrant)
    (hstep : ∀ {older signs quadrant sketch}, IsSigns signs → (names older ++ blockNames quadrant).Nodup →
      (f (before lines fillets quadrant older) (signs, quadrant) = .ok sketch ↔
        ∃ block, Block signs quadrant block ∧ sketch = before lines fillets (quadrant + 1) (older ++ block)))
    {corners : List (Decimal × Decimal)} (hsigns : ∀ signs ∈ corners, IsSigns signs) (k : Nat)
    {older : Named (Path ℝ)} {sketch : Sketch ℝ} :
    (names older ++ (List.range' k corners.length).flatMap blockNames).Nodup →
      ((corners.zipIdx k).foldlM f (before lines fillets k older) = .ok sketch ↔
        ∃ blocks, List.Forall₂ (fun corner block => Block corner.1 corner.2 block) (corners.zipIdx k) blocks ∧
          sketch = before lines fillets (k + corners.length) (older ++ blocks.flatten)) := by
  induction corners generalizing k older with
  | nil =>
    intro _
    constructor
    · intro hdone
      cases hdone
      exact ⟨[], .nil, by rw [List.flatten_nil, List.append_nil]; rfl⟩
    · rintro ⟨blocks, hblocks, rfl⟩
      cases hblocks
      simp [pure, Except.pure]
  | cons signs corners ih =>
    intro hnodup
    rw [List.length_cons, List.range'_succ, List.flatMap_cons, ← List.append_assoc] at hnodup
    have hfirst := (List.nodup_append.mp hnodup).1
    have hrest : ∀ {block}, Block signs k block →
        (names (older ++ block) ++ (List.range' (k + 1) corners.length).flatMap blockNames).Nodup := by
      intro block hblock
      rw [names_append, hnames hblock]
      exact hnodup
    have hothers : ∀ c ∈ corners, IsSigns c := fun c hc => hsigns c (.tail _ hc)
    rw [List.zipIdx_cons, List.foldlM_cons, Except.bind_eq_ok_iff, List.length_cons, ← Nat.add_assoc,
      Nat.add_right_comm]
    constructor
    · rintro ⟨sketch₁, hdrawn, hdone⟩
      obtain ⟨block, hblock, rfl⟩ := (hstep (hsigns signs (.head _)) hfirst).mp hdrawn
      obtain ⟨blocks, hblocks, rfl⟩ := (ih hothers (k + 1) (hrest hblock)).mp hdone
      exact ⟨block :: blocks, .cons hblock hblocks, by rw [List.flatten_cons, List.append_assoc]⟩
    · rintro ⟨blocks, hblocks, rfl⟩
      cases hblocks with
      | @cons _ block _ blocks hblock hblocks =>
        refine ⟨_, (hstep (hsigns signs (.head _)) hfirst).mpr ⟨block, hblock, rfl⟩, ?_⟩
        exact (ih hothers (k + 1) (hrest hblock)).mpr ⟨blocks, hblocks, by rw [List.flatten_cons, List.append_assoc]⟩

theorem isSigns_of_mem : ∀ signs ∈ quadrants, IsSigns signs := by
  have hall : ∀ signs ∈ quadrants, (signs.1 = 1 ∨ signs.1 = -1) ∧ (signs.2 = 1 ∨ signs.2 = -1) := by decide +kernel
  exact fun signs hsigns => ⟨(hall signs hsigns).1, (hall signs hsigns).2⟩

theorem isSigns_signsOf (quadrant : Fin 4) : IsSigns (signsOf quadrant) := isSigns_of_mem _ (List.get_mem _ _)

theorem zipIdx_quadrants : quadrants.zipIdx = List.ofFn fun q : Fin 4 => (signsOf q, q.val) := rfl

/-- The names of all four drawings. -/
theorem names_flatten {block : Fin 4 → Named (Path ℝ)} {blockNames : Nat → List String}
    (h : ∀ quadrant : Fin 4, names (block quadrant) = blockNames quadrant) :
    names (List.ofFn block).flatten = (List.range' 0 4).flatMap blockNames := by
  simp only [List.ofFn_succ, List.ofFn_zero, List.flatten_cons, List.flatten_nil, names_append, h]
  rfl

theorem names_roundBlock {quadrant : Nat} {lines : List (Line ℝ)} {arcs : List (Arc ℝ)} (hlines : lines.length = 6)
    (harcs : arcs.length = 6) : names (roundBlock quadrant lines arcs) = roundNames quadrant := by
  unfold roundBlock roundNames
  rw [names_append, names_numbered, names_numbered, List.length_map, List.length_map, hlines, harcs]

theorem names_halfBlock {quadrant : Nat} {lines : List (Line ℝ)} {first second : Arc ℝ} {fillets : List (Arc ℝ)}
    (hlines : lines.length = 4) (hfillets : fillets.length = 2) :
    names (halfBlock quadrant lines first second fillets) = halfNames quadrant := by
  unfold halfBlock halfNames
  rw [names_append, names_append, names_numbered, names_numbered, List.length_map, List.length_map, hlines, hfillets]
  rfl

theorem nodup_roundNames : ((List.range' 0 4).flatMap roundNames).Nodup := by decide +kernel

theorem nodup_halfNames : ((List.range' 0 4).flatMap halfNames).Nodup := by decide +kernel

/-- The same outline with the same joints is drawn in every quadrant, and each drawing is the lines and arcs that a run
of fillets has left there. -/
theorem foldlM_quadrants {n lines fillets : Nat}
    {f : Sketch ℝ → (Decimal × Decimal) × Nat → Except (PlateError ℝ) (Sketch ℝ)} {blockNames : Nat → List String}
    {r : ℝ} {joints : List (Fin n × Fin n)} {L₀ : Fin n → Line ℝ} {sketch : Sketch ℝ}
    (block : Decimal × Decimal → Nat → List (Line ℝ) → List (Arc ℝ) → Named (Path ℝ))
    (hnames : ∀ {signs quadrant lines arcs}, lines.length = n → arcs.length = joints.length →
      names (block signs quadrant lines arcs) = blockNames quadrant)
    (hstep : ∀ {older signs quadrant sketch}, IsSigns signs → (names older ++ blockNames quadrant).Nodup →
      (f (before lines fillets quadrant older) (signs, quadrant) = .ok sketch ↔
        ∃ L arcs, Filleted r joints (mirrored L₀ signs) L arcs ∧
          sketch = before lines fillets (quadrant + 1) (older ++ block signs quadrant (List.ofFn L) arcs)))
    (hnodup : ((List.range' 0 4).flatMap blockNames).Nodup) :
    quadrants.zipIdx.foldlM f {} = .ok sketch ↔ ∃ (L : Fin 4 → Fin n → Line ℝ) (arcs : Fin 4 → List (Arc ℝ)),
      (∀ q, Filleted r joints (mirrored L₀ (signsOf q)) (L q) (arcs q)) ∧
      sketch = before lines fillets 4 (List.ofFn fun q => block (signsOf q) q (List.ofFn (L q)) (arcs q)).flatten := by
  let Block (signs : Decimal × Decimal) (quadrant : Nat) (paths : Named (Path ℝ)) : Prop :=
    ∃ L arcs, Filleted r joints (mirrored L₀ signs) L arcs ∧ paths = block signs quadrant (List.ofFn L) arcs
  have hall : (names ([] : Named (Path ℝ)) ++ (List.range' 0 quadrants.length).flatMap blockNames).Nodup := hnodup
  have hstart : ({} : Sketch ℝ) = before lines fillets 0 [] := by simp [before]
  rw [hstart]
  refine (foldlM_blocks Block ?_ ?_ isSigns_of_mem 0 hall).trans ⟨?_, ?_⟩
  · rintro signs quadrant _ ⟨L, arcs, hrun, rfl⟩
    exact hnames List.length_ofFn hrun.length_eq
  · intro older signs quadrant sketch hsigns hnodup
    refine (hstep hsigns hnodup).trans ⟨?_, ?_⟩
    · rintro ⟨L, arcs, hrun, rfl⟩
      exact ⟨_, ⟨L, arcs, hrun, rfl⟩, rfl⟩
    · rintro ⟨_, ⟨L, arcs, hrun, rfl⟩, rfl⟩
      exact ⟨L, arcs, hrun, rfl⟩
  · rintro ⟨blocks, hblocks, rfl⟩
    rw [zipIdx_quadrants, forall₂_ofFn_left_iff] at hblocks
    obtain ⟨paths, hpaths, rfl⟩ := hblocks
    choose L arcs hrun heq using hpaths
    exact ⟨L, arcs, hrun, by rw [funext heq]; rfl⟩
  · rintro ⟨L, arcs, hrun, rfl⟩
    refine ⟨List.ofFn fun q => block (signsOf q) q (List.ofFn (L q)) (arcs q), ?_, rfl⟩
    rw [zipIdx_quadrants, forall₂_ofFn_left_iff]
    exact ⟨_, fun q => ⟨L q, arcs q, hrun q, rfl⟩, rfl⟩

theorem Measured.foldlM_drawRounded {sketch : Sketch ℝ} (hm : s.Measured x y outerX outerY)
    (hradius : 0 < s.radius) :
    quadrants.zipIdx.foldlM (fun sketch corner => s.drawRounded sketch corner.1) {} = .ok sketch ↔
      ∃ (L : Fin 4 → Fin 6 → Line ℝ) (arcs : Fin 4 → List (Arc ℝ)),
        (∀ q, Filleted (s.radius.toRat : ℝ) roundJoints
          (mirrored (roundLines (outline x y outerX outerY s.halfConnector)) (signsOf q)) (L q) (arcs q)) ∧
        sketch = before 6 6 4 (List.ofFn fun q => roundBlock q (List.ofFn (L q)) (arcs q)).flatten :=
  foldlM_quadrants (fun _ quadrant => roundBlock quadrant) names_roundBlock
    (fun hsigns hnodup => hm.drawRounded_eq_ok_iff hsigns hradius hnodup) nodup_roundNames

theorem Measured.foldlM_drawHalfRound {bridge midX midY : Decimal} {sketch : Sketch ℝ}
    (hm : s.Measured x y outerX outerY) (hb : s.Bridged x y bridge midX midY) (hradius : 0 < s.radius) :
    quadrants.zipIdx.foldlM (fun sketch corner => s.drawHalfRound sketch corner.2 corner.1) {} = .ok sketch ↔
      ∃ (L : Fin 4 → Fin 4 → Line ℝ) (fillets : Fin 4 → List (Arc ℝ)),
        (∀ q, Filleted (s.radius.toRat : ℝ) halfJoints
          (mirrored (halfLines (outline x y outerX outerY bridge)) (signsOf q)) (L q) (fillets q)) ∧
        sketch = before 4 2 4 (List.ofFn fun q => halfBlock q (List.ofFn (L q))
          (firstEnd bridge midY (signsOf q) s.radius.toRat) (secondEnd midX bridge (signsOf q) s.radius.toRat)
          (fillets q)).flatten :=
  foldlM_quadrants (fun signs quadrant lines fillets => halfBlock quadrant lines
      (firstEnd bridge midY signs s.radius.toRat) (secondEnd midX bridge signs s.radius.toRat) fillets)
    names_halfBlock (fun hsigns hnodup => hm.drawHalfRound_eq_ok_iff hb hsigns hradius hnodup) nodup_halfNames

/-- What is drawn in a quadrant is the mirror image of what is drawn in the first. -/
theorem mirror_of_filleted {n : Nat} {axis : Fin n → Axis} {r : ℝ} {joints : List (Fin n × Fin n)} {L₀ : Fin n → Line ℝ}
    {L : Fin 4 → Fin n → Line ℝ} {arcs : Fin 4 → List (Arc ℝ)} (hr : 0 < r) (hjointed : Jointed axis joints L₀)
    (hrun : ∀ q, Filleted r joints (mirrored L₀ (signsOf q)) (L q) (arcs q)) (q : Fin 4) :
    List.ofFn (L q) = (List.ofFn (L 0)).map (Line.mirror (across (signsOf q)) (down (signsOf q))) ∧
      List.Forall₂ (Arc.Mirrors (across (signsOf q)) (down (signsOf q))) (arcs 0) (arcs q) := by
  have hsigns := isSigns_signsOf q
  have hacross : across (signsOf 0) = 1 := across_one
  have hdown : down (signsOf 0) = 1 := down_one
  have hunchanged : mirrored L₀ (signsOf 0) = L₀ := by
    funext i
    rw [mirrored, hacross, hdown, Line.mirror_one]
  have hzero := hrun 0
  rw [hunchanged] at hzero
  obtain ⟨hlines, harcs⟩ := hzero.eq_mirror hsigns.across_mul_self hsigns.down_mul_self hjointed hr (hrun q)
  refine ⟨?_, harcs⟩
  rw [hlines, List.map_ofFn]
  rfl

/-- All four corners are drawn in the same mode. -/
theorem slots_eq_ok_iff {o : Options} {m : Model ℝ} : o.slots = .ok m ↔
    ∃ s half sketch, Slot.ofOptions (α := ℝ) o = .ok s ∧ s.isHalfRound (α := ℝ) = .ok half ∧
      quadrants.zipIdx.foldlM (fun sketch corner => if half = true then s.drawHalfRound sketch corner.2 corner.1
        else s.drawRounded sketch corner.1) {} = .ok sketch ∧ m = sketch.drawn := by
  refine Except.bind_eq_ok_iff.trans ⟨?_, ?_⟩
  · rintro ⟨s, hs, h⟩
    cases hhalf : s.isHalfRound (α := ℝ) with
    | error e =>
      rw [hhalf] at h
      cases h
    | ok half =>
      rw [hhalf] at h
      obtain ⟨sketch, hsketch, h⟩ := Except.bind_eq_ok_iff.mp h
      exact ⟨s, half, sketch, hs, hhalf, hsketch, (Except.ok.inj h).symm⟩
  · rintro ⟨s, half, sketch, hs, hhalf, hsketch, rfl⟩
    refine ⟨s, hs, ?_⟩
    rw [hhalf]
    exact Except.bind_eq_ok_iff.mpr ⟨sketch, hsketch, rfl⟩

theorem measured_of_drawRounded {sketch sketch' : Sketch ℝ} (h : s.drawRounded sketch signs = .ok sketch') :
    ∃ x y outerX outerY, s.Measured x y outerX outerY := by
  obtain ⟨points, hpoints, -⟩ := Except.bind_eq_ok_iff.mp h
  exact measured_of_corners hpoints

theorem measured_of_drawHalfRound {sketch sketch' : Sketch ℝ} {corner : Nat}
    (h : s.drawHalfRound sketch corner signs = .ok sketch') :
    ∃ x y outerX outerY bridge midX midY, s.Measured x y outerX outerY ∧ s.Bridged x y bridge midX midY := by
  unfold drawHalfRound at h
  obtain ⟨bridge, hbridge, h⟩ := Except.bind_eq_ok_iff.mp h
  obtain ⟨points, hpoints, h⟩ := Except.bind_eq_ok_iff.mp h
  obtain ⟨x, y, outerX, outerY, hm⟩ := measured_of_corners hpoints
  dsimp only at h
  obtain ⟨y', hy, h⟩ := Except.bind_eq_ok_iff.mp h
  obtain ⟨midY, hmidY, h⟩ := Except.bind_eq_ok_iff.mp h
  obtain ⟨_, _, h⟩ := Except.bind_eq_ok_iff.mp h
  obtain ⟨x', hx, h⟩ := Except.bind_eq_ok_iff.mp h
  obtain ⟨midX, hmidX, -⟩ := Except.bind_eq_ok_iff.mp h
  rw [Plate.length_eq_ok_iff] at hbridge hmidX hmidY
  cases hm.innerX.symm.trans (Plate.length_eq_ok_iff.mp hx)
  cases hm.innerY.symm.trans (Plate.length_eq_ok_iff.mp hy)
  exact ⟨x, y, outerX, outerY, bridge, midX, midY, hm, hbridge, hmidX, hmidY⟩

theorem radius_of_ofOptions {o : Options} (h : ofOptions (α := ℝ) o = .ok s) : s.radius = o.acousticFilletRadius := by
  obtain ⟨halfWidth, -, h⟩ := Except.bind_eq_ok_iff.mp h
  obtain ⟨halfHeight, -, h⟩ := Except.bind_eq_ok_iff.mp h
  obtain ⟨halfConnector, -, h⟩ := Except.bind_eq_ok_iff.mp h
  cases h
  rfl

theorem areRound_of_foldlM {sketch : Sketch ℝ} (hradius : 0 < s.radius)
    (h : quadrants.zipIdx.foldlM (fun sketch corner => s.drawRounded sketch corner.1) {} = .ok sketch) :
    AreRound s.radius.toRat sketch.drawn ∧ names sketch.drawn.paths = (List.range' 0 4).flatMap roundNames := by
  have hr : (0 : ℝ) < s.radius.toRat := Rat.cast_pos.mpr (Decimal.pos_iff.mp hradius)
  obtain ⟨_, hfirst, -⟩ := Except.bind_eq_ok_iff.mp h
  obtain ⟨x, y, outerX, outerY, hm⟩ := measured_of_drawRounded hfirst
  obtain ⟨L, arcs, hrun, rfl⟩ := (hm.foldlM_drawRounded hradius).mp h
  have hjointed := jointed_roundLines x y outerX outerY s.halfConnector
  refine ⟨⟨fun q => List.ofFn (L q), arcs, rfl, fun q => ⟨?_, mirror_of_filleted hr hjointed hrun q⟩⟩, ?_⟩
  · exact roundSlot_of_filleted hr hjointed.mirror (hrun q)
  · rw [paths_before]
    exact names_flatten fun q => names_roundBlock List.length_ofFn (hrun q).length_eq

theorem areHalfRound_of_foldlM {sketch : Sketch ℝ} (hradius : 0 < s.radius)
    (hround : s.isHalfRound (α := ℝ) = .ok true)
    (h : quadrants.zipIdx.foldlM (fun sketch corner => s.drawHalfRound sketch corner.2 corner.1) {} = .ok sketch) :
    AreHalfRound s sketch.drawn ∧ names sketch.drawn.paths = (List.range' 0 4).flatMap halfNames := by
  have hr : (0 : ℝ) < s.radius.toRat := Rat.cast_pos.mpr (Decimal.pos_iff.mp hradius)
  obtain ⟨_, hfirst, -⟩ := Except.bind_eq_ok_iff.mp h
  obtain ⟨x, y, outerX, outerY, bridge, midX, midY, hm, hb⟩ := measured_of_drawHalfRound hfirst
  obtain ⟨L, fillets, hrun, rfl⟩ := (hm.foldlM_drawHalfRound hb hradius).mp h
  have hjointed := jointed_halfLines x y outerX outerY bridge
  refine ⟨⟨fun q => List.ofFn (L q), fun q => firstEnd bridge midY (signsOf q) s.radius.toRat,
    fun q => secondEnd midX bridge (signsOf q) s.radius.toRat, fillets, rfl, fun q => ⟨?_, ?_⟩⟩, ?_⟩
  · intro hexact
    exact halfSlot_of_filleted hradius hround hexact hm hb (isSigns_signsOf q) (hrun q)
  · have hsigns := isSigns_signsOf q
    obtain ⟨hlines, harcs⟩ := mirror_of_filleted hr hjointed hrun q
    exact ⟨hlines, firstEnd_mirrors hsigns, secondEnd_mirrors hsigns, harcs⟩
  · rw [paths_before]
    refine names_flatten fun q => ?_
    exact names_halfBlock List.length_ofFn (hrun q).length_eq

/-- An outline that can be rounded in the first quadrant can be rounded in all of them. -/
theorem exists_filleted_mirrored {n : Nat} {axis : Fin n → Axis} {r : ℝ} {joints : List (Fin n × Fin n)}
    {L₀ : Fin n → Line ℝ} (hr : 0 < r) (hjointed : Jointed axis joints L₀)
    (hlong : ∀ i, 2 * r + jointTolerance ≤ (L₀ i).length .start) :
    ∃ (L : Fin 4 → Fin n → Line ℝ) (arcs : Fin 4 → List (Arc ℝ)),
      ∀ q, Filleted r joints (mirrored L₀ (signsOf q)) (L q) (arcs q) := by
  obtain ⟨L', arcs, hrun⟩ := hjointed.exists_filleted_of_double hr hlong
  have hmirrored : ∀ q, ∃ L arcs, Filleted r joints (mirrored L₀ (signsOf q)) L arcs := by
    intro q
    have hsigns := isSigns_signsOf q
    obtain ⟨arcs, harcs, -⟩ := hrun.mirror hsigns.across_mul_self hsigns.down_mul_self hjointed hr
    exact ⟨_, arcs, harcs⟩
  choose L arcs hruns using hmirrored
  exact ⟨L, arcs, hruns⟩

/-- Slots with all joints rounded can be drawn if every line has room for two cuts. -/
theorem Measured.exists_drawRounded (hm : s.Measured x y outerX outerY) (hradius : 0 < s.radius)
    (hx : (s.halfConnector.toRat : ℝ) + (2 * s.radius.toRat + jointTolerance) ≤ x.toRat)
    (hy : (s.halfConnector.toRat : ℝ) + (2 * s.radius.toRat + jointTolerance) ≤ y.toRat)
    (houterX : (x.toRat : ℝ) + (2 * s.radius.toRat + jointTolerance) ≤ outerX.toRat)
    (houterY : (y.toRat : ℝ) + (2 * s.radius.toRat + jointTolerance) ≤ outerY.toRat) :
    ∃ sketch : Sketch ℝ,
      quadrants.zipIdx.foldlM (fun sketch corner => s.drawRounded sketch corner.1) {} = .ok sketch := by
  have hr : (0 : ℝ) < s.radius.toRat := Rat.cast_pos.mpr (Decimal.pos_iff.mp hradius)
  have htol := Line.jointTolerance_pos
  have hacross : (s.halfConnector.toRat : ℝ) + (2 * s.radius.toRat + jointTolerance) ≤ outerX.toRat := by linarith
  have hdown : (s.halfConnector.toRat : ℝ) + (2 * s.radius.toRat + jointTolerance) ≤ outerY.toRat := by linarith
  have hlong : ∀ i, 2 * (s.radius.toRat : ℝ) + jointTolerance ≤
      (roundLines (outline x y outerX outerY s.halfConnector) i).length .start := by
    intro i
    fin_cases i
    · exact Line.le_length_across (Or.inl (le_sub_iff_add_le'.mpr hx))
    · exact Line.le_length_down (Or.inr (le_sub_iff_add_le'.mpr houterY))
    · exact Line.le_length_across (Or.inr (le_sub_iff_add_le'.mpr hacross))
    · exact Line.le_length_down (Or.inl (le_sub_iff_add_le'.mpr hdown))
    · exact Line.le_length_across (Or.inl (le_sub_iff_add_le'.mpr houterX))
    · exact Line.le_length_down (Or.inr (le_sub_iff_add_le'.mpr hy))
  obtain ⟨L, arcs, hrun⟩ := exists_filleted_mirrored hr (jointed_roundLines x y outerX outerY s.halfConnector) hlong
  exact ⟨_, (hm.foldlM_drawRounded hradius).mpr ⟨L, arcs, hrun, rfl⟩⟩

/-- Slots that end in half circles need no such room at their ends. -/
theorem Measured.exists_drawHalfRound {bridge midX midY : Decimal} (hm : s.Measured x y outerX outerY)
    (hb : s.Bridged x y bridge midX midY) (hradius : 0 < s.radius)
    (hx : (bridge.toRat : ℝ) + (2 * s.radius.toRat + jointTolerance) ≤ x.toRat)
    (hy : (bridge.toRat : ℝ) + (2 * s.radius.toRat + jointTolerance) ≤ y.toRat)
    (houterX : (x.toRat : ℝ) ≤ outerX.toRat) (houterY : (y.toRat : ℝ) ≤ outerY.toRat) :
    ∃ sketch : Sketch ℝ,
      quadrants.zipIdx.foldlM (fun sketch corner => s.drawHalfRound sketch corner.2 corner.1) {} = .ok sketch := by
  have hr : (0 : ℝ) < s.radius.toRat := Rat.cast_pos.mpr (Decimal.pos_iff.mp hradius)
  have hlong : ∀ i, 2 * (s.radius.toRat : ℝ) + jointTolerance ≤
      (halfLines (outline x y outerX outerY bridge) i).length .start := by
    intro i
    fin_cases i
    · exact Line.le_length_across (Or.inl (le_sub_iff_add_le'.mpr hx))
    · exact Line.le_length_across (Or.inr (le_sub_iff_add_le'.mpr (hx.trans houterX)))
    · exact Line.le_length_down (Or.inl (le_sub_iff_add_le'.mpr (hy.trans houterY)))
    · exact Line.le_length_down (Or.inr (le_sub_iff_add_le'.mpr hy))
  obtain ⟨L, fillets, hrun⟩ := exists_filleted_mirrored hr (jointed_halfLines x y outerX outerY bridge) hlong
  exact ⟨_, (hm.foldlM_drawHalfRound hb hradius).mpr ⟨L, fillets, hrun, rfl⟩⟩

end

end Slot

open Slot

/-- The slots around a switch have no two paths of one name, and each of them is one ring of lines and arcs; all are
mirror images of the first. Which paths they have is a matter of whether the radius is half of the width. -/
theorem Options.slots_rings {o : Options} {m : Model ℝ} (hradius : 0 < o.acousticFilletRadius) (h : o.slots = .ok m) :
    ∃ s half, Slot.ofOptions (α := ℝ) o = .ok s ∧ s.isHalfRound (α := ℝ) = .ok half ∧ (Named.names m.paths).Nodup ∧
      (half = false → m.paths.length = 48 ∧ AreRound o.acousticFilletRadius.toRat m) ∧
      (half = true → m.paths.length = 32 ∧ AreHalfRound s m) := by
  obtain ⟨s, half, sketch, hs, hhalf, hdrawn, rfl⟩ := slots_eq_ok_iff.mp h
  have hlength : (Named.names sketch.drawn.paths).length = sketch.drawn.paths.length := List.length_map _
  rw [← radius_of_ofOptions hs] at hradius ⊢
  cases half with
  | false =>
    obtain ⟨hround, hnames⟩ := areRound_of_foldlM hradius hdrawn
    rw [hnames] at hlength ⊢
    exact ⟨s, false, hs, hhalf, nodup_roundNames, fun _ => ⟨hlength.symm.trans (by decide), hround⟩, nofun⟩
  | true =>
    obtain ⟨hround, hnames⟩ := areHalfRound_of_foldlM hradius hhalf hdrawn
    rw [hnames] at hlength ⊢
    exact ⟨s, true, hs, hhalf, nodup_halfNames, nofun, fun _ => ⟨hlength.symm.trans (by decide), hround⟩⟩

/-- The slot of the default options, whose radius is half of its width. -/
def defaultSlot : Slot :=
  { halfWidth := 7, halfHeight := 7, housing := 1, width := 1, halfConnector := 0.6, radius := 0.5 }

theorem defaultSlot_unrounded : defaultSlot.Unrounded where
  half := by decide +kernel
  bridge := by decide +kernel
  outerX := by decide +kernel
  outerY := by decide +kernel
  midX := by decide +kernel
  midY := by decide +kernel

theorem exists_defaultSlots : ∃ m : Model ℝ, Options.slots {} = .ok m := by
  have hm : defaultSlot.Measured 8 8 9 9 := ⟨by decide +kernel, by decide +kernel, by decide +kernel, by decide +kernel⟩
  have hb : defaultSlot.Bridged 8 8 1.1 8.5 8.5 := ⟨by decide +kernel, by decide +kernel, by decide +kernel⟩
  have hinner : (8 : Decimal).toRat = 8 := by decide +kernel
  have houter : (9 : Decimal).toRat = 9 := by decide +kernel
  have hbridge : (1.1 : Decimal).toRat = 11 / 10 := by decide +kernel
  have hradius : defaultSlot.radius.toRat = 1 / 2 := by decide +kernel
  have hroom : ((1.1 : Decimal).toRat : ℝ) + (2 * defaultSlot.radius.toRat + jointTolerance) ≤ (8 : Decimal).toRat := by
    rw [hbridge, hradius, hinner, jointTolerance_eq]
    norm_num
  have hthick : ((8 : Decimal).toRat : ℝ) ≤ (9 : Decimal).toRat := by
    rw [hinner, houter]
    norm_num
  obtain ⟨sketch, hdrawn⟩ := hm.exists_drawHalfRound hb (by decide +kernel) hroom hroom hthick hthick
  exact ⟨sketch.drawn, slots_eq_ok_iff.mpr ⟨defaultSlot, true, sketch, rfl, rfl, hdrawn, rfl⟩⟩

/-- A radius of less than half of the width of the slots. -/
def narrowOptions : Options := { acousticFilletRadius := 0.25 }

/-- The slot of these options. -/
def narrowSlot : Slot := { defaultSlot with radius := 0.25 }

theorem exists_narrowSlots : ∃ m : Model ℝ, narrowOptions.slots = .ok m := by
  have hm : narrowSlot.Measured 8 8 9 9 := ⟨by decide +kernel, by decide +kernel, by decide +kernel, by decide +kernel⟩
  have hinner : (8 : Decimal).toRat = 8 := by decide +kernel
  have houter : (9 : Decimal).toRat = 9 := by decide +kernel
  have hconnector : narrowSlot.halfConnector.toRat = 3 / 5 := by decide +kernel
  have hradius : narrowSlot.radius.toRat = 1 / 4 := by decide +kernel
  have hroom : (narrowSlot.halfConnector.toRat : ℝ) + (2 * narrowSlot.radius.toRat + jointTolerance) ≤
      (8 : Decimal).toRat := by
    rw [hconnector, hradius, hinner, jointTolerance_eq]
    norm_num
  have hthick : ((8 : Decimal).toRat : ℝ) + (2 * narrowSlot.radius.toRat + jointTolerance) ≤ (9 : Decimal).toRat := by
    rw [hradius, hinner, houter, jointTolerance_eq]
    norm_num
  obtain ⟨sketch, hdrawn⟩ := hm.exists_drawRounded (by decide +kernel) hroom hroom hthick hthick
  exact ⟨sketch.drawn, slots_eq_ok_iff.mpr ⟨narrowSlot, false, sketch, rfl, rfl, hdrawn, rfl⟩⟩

theorem defaultSlots_rings :
    (∃ m : Model ℝ, 0 < ({} : Options).acousticFilletRadius ∧ Options.slots {} = .ok m ∧ (Named.names m.paths).Nodup ∧
      m.paths.length = 32 ∧ defaultSlot.Unrounded ∧ AreHalfRound defaultSlot m) ∧
    ∃ m : Model ℝ, 0 < narrowOptions.acousticFilletRadius ∧ narrowOptions.slots = .ok m ∧ (Named.names m.paths).Nodup ∧
      m.paths.length = 48 ∧ AreRound narrowOptions.acousticFilletRadius.toRat m := by
  constructor
  · have hradius : 0 < ({} : Options).acousticFilletRadius := by decide +kernel
    obtain ⟨m, hm⟩ := exists_defaultSlots
    obtain ⟨s, half, hs, hhalf, hnodup, -, hround⟩ := Options.slots_rings hradius hm
    have hs' : Slot.ofOptions (α := ℝ) {} = .ok defaultSlot := rfl
    cases hs.symm.trans hs'
    have hhalf' : defaultSlot.isHalfRound (α := ℝ) = .ok true := rfl
    cases hhalf.symm.trans hhalf'
    obtain ⟨hlength, hslots⟩ := hround rfl
    exact ⟨m, hradius, hm, hnodup, hlength, defaultSlot_unrounded, hslots⟩
  · have hradius : 0 < narrowOptions.acousticFilletRadius := by decide +kernel
    obtain ⟨m, hm⟩ := exists_narrowSlots
    obtain ⟨s, half, hs, hhalf, hnodup, hround, -⟩ := Options.slots_rings hradius hm
    have hs' : Slot.ofOptions (α := ℝ) narrowOptions = .ok narrowSlot := rfl
    cases hs.symm.trans hs'
    have hhalf' : narrowSlot.isHalfRound (α := ℝ) = .ok false := rfl
    cases hhalf.symm.trans hhalf'
    obtain ⟨hlength, hslots⟩ := hround rfl
    exact ⟨m, hradius, hm, hnodup, hlength, hslots⟩

end KeyboardPlate
