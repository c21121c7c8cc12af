import KeyboardPlate.Proofs.Plate.Blocks

/-!
# What a plate consists of

A plate is built from the blocks of its keys, one after the other, and from its own outline and pattern.
Nothing replaces anything else. The first key without a block decides the error.
-/

set_option autoImplicit false

namespace KeyboardPlate.Plate

open Named

variable {α : Type} [Scalar α] {o : Options} {id : Nat} {keys : List Key}

/-- The bounds and the drawings of the key with a number. -/
def place (o : Options) (id : Nat) (k : Key) : Except (PlateError α) (Bounds × Named (Model α)) :=
  match Bounds.ofKey? k o with
  | none => .error (.keyOutOfRange id)
  | some bounds => do return (bounds, ← keyBlock o id k)

theorem place_ok {k : Key} {block : Bounds × Named (Model α)} (h : place o id k = .ok block) :
    keyBlock o id k = .ok block.2 := by
  unfold place at h
  split at h
  · cases h
  · obtain ⟨drawn, hdrawn, hblock⟩ := Except.bind_eq_ok_iff.mp h
    cases hblock
    exact hdrawn

theorem place_bounds {k : Key} {block : Bounds × Named (Model α)} (h : place o id k = .ok block) :
    Bounds.ofKey? k o = some block.1 := by
  unfold place at h
  split at h
  · cases h
  · rename_i bounds heq
    obtain ⟨drawn, -, hblock⟩ := Except.bind_eq_ok_iff.mp h
    cases hblock
    exact heq

theorem keyBlocks_cons (id : Nat) (k : Key) (keys : List Key) :
    keyBlocks (α := α) o id (k :: keys) = do
      let block ← place o id k
      return block :: (← keyBlocks o (id + 1) keys) := by
  unfold place
  rw [keyBlocks]
  cases Bounds.ofKey? k o with
  | none => rfl
  | some bounds => simp only [bind_assoc, pure_bind]

theorem keyBlocks_append (id : Nat) (keys more : List Key) :
    keyBlocks (α := α) o id (keys ++ more) = do
      let blocks ← keyBlocks o id keys
      return blocks ++ (← keyBlocks o (id + keys.length) more) := by
  induction keys generalizing id with
  | nil => exact (id_map _).symm
  | cons k keys ih =>
    rw [List.cons_append, keyBlocks_cons, keyBlocks_cons, ih]
    simp [Nat.add_assoc, Nat.add_comm 1]

theorem keyBlocks_ok {blocks : List (Bounds × Named (Model α))} (h : keyBlocks o id keys = .ok blocks) :
    blocks.length = keys.length ∧
      ∀ i k, keys[i]? = some k → ∃ block, blocks[i]? = some block ∧ place o (id + i) k = .ok block := by
  induction keys generalizing id blocks with
  | nil =>
    cases h
    exact ⟨rfl, fun i k hk => by simp at hk⟩
  | cons key keys ih =>
    rw [keyBlocks_cons] at h
    obtain ⟨first, hfirst, h⟩ := Except.bind_eq_ok_iff.mp h
    obtain ⟨rest, hrest, h⟩ := Except.bind_eq_ok_iff.mp h
    cases h
    obtain ⟨hlen, hall⟩ := ih hrest
    refine ⟨by simp [hlen], fun i k hk => ?_⟩
    cases i with
    | zero =>
      cases hk
      exact ⟨first, rfl, hfirst⟩
    | succ i =>
      obtain ⟨block, hblock, hplace⟩ := hall i k hk
      exact ⟨block, hblock, by rwa [Nat.add_right_comm] at hplace⟩

theorem mapM_ofKey?_of_keyBlocks {blocks : List (Bounds × Named (Model α))} (h : keyBlocks o id keys = .ok blocks) :
    (keys.mapM fun k => Bounds.ofKey? k o) = some (blocks.map (·.1)) := by
  induction keys generalizing id blocks with
  | nil =>
    cases h
    rfl
  | cons k keys ih =>
    rw [keyBlocks_cons] at h
    obtain ⟨first, hfirst, h⟩ := Except.bind_eq_ok_iff.mp h
    obtain ⟨rest, hrest, h⟩ := Except.bind_eq_ok_iff.mp h
    cases h
    rw [List.mapM_cons, place_bounds hfirst, ih hrest]
    rfl

theorem names_keyBlocks {blocks : List (Bounds × Named (Model α))} (h : keyBlocks o id keys = .ok blocks) :
    (names (blocks.flatMap (·.2))).Sublist (keyNames (List.range' id keys.length)) := by
  induction keys generalizing id blocks with
  | nil =>
    cases h
    exact List.nil_sublist _
  | cons key keys ih =>
    rw [keyBlocks_cons] at h
    obtain ⟨first, hfirst, h⟩ := Except.bind_eq_ok_iff.mp h
    obtain ⟨rest, hrest, h⟩ := Except.bind_eq_ok_iff.mp h
    cases h
    obtain ⟨things, hthings, hblock⟩ := keyBlock_ok_iff.mp (place_ok hfirst)
    rw [List.flatMap_cons, names_append, hblock, names_suffixed]
    exact ((names_drawings hthings).map _).append (ih hrest)

/-- The first key without a block has this error. -/
def FailsFirst (keys : List Key) (o : Options) (e : PlateError α) : Prop :=
  ∃ i k, keys[i]? = some k ∧ place o i k = .error e ∧
    ∀ j < i, ∀ k', keys[j]? = some k' → ∃ block : Bounds × Named (Model α), place o j k' = .ok block

theorem keyBlocks_error {e : PlateError α} (h : keyBlocks o id keys = .error e) :
    ∃ i k, keys[i]? = some k ∧ place o (id + i) k = .error e ∧
      ∀ j < i, ∀ k', keys[j]? = some k' →
        ∃ block : Bounds × Named (Model α), place o (id + j) k' = .ok block := by
  induction keys generalizing id with
  | nil => cases h
  | cons key keys ih =>
    rw [keyBlocks_cons] at h
    rcases Except.bind_eq_error_iff.mp h with hfirst | ⟨first, hfirst, h⟩
    · exact ⟨0, key, rfl, hfirst, fun j hj => absurd hj (Nat.not_lt_zero j)⟩
    · rcases Except.bind_eq_error_iff.mp h with hrest | ⟨rest, -, h⟩
      · obtain ⟨i, k, hk, hplace, hbefore⟩ := ih hrest
        refine ⟨i + 1, k, hk, by rwa [Nat.add_right_comm] at hplace, fun j hj k' hk' => ?_⟩
        cases j with
        | zero =>
          cases hk'
          exact ⟨first, hfirst⟩
        | succ j =>
          obtain ⟨block, hblock⟩ := hbefore j (by omega) k' hk'
          exact ⟨block, by rwa [Nat.add_right_comm] at hblock⟩
      · cases h

theorem build_eq_error {e : PlateError α} (h : keyBlocks o 0 keys = .error e) :
    build keys o = .error e :=
  Except.bind_eq_error_iff.mpr (.inl h)

theorem build_append_eq_error {e : PlateError α} (h : keyBlocks o 0 keys = .error e) (more : List Key) :
    build (keys ++ more) o = .error e := by
  apply build_eq_error
  rw [keyBlocks_append, h]
  rfl

theorem names_ownBlock {b : Bounds} {own : Named (Model α)} (h : ownBlock b o = .ok own) :
    ∃ outline layers, own = ("BoundingBox0", outline) :: layers ∧
      (names layers).Sublist (Pattern.names "Plate" "") := by
  unfold ownBlock at h
  obtain ⟨outline, -, h⟩ := Except.bind_eq_ok_iff.mp h
  cases hp : o.platePattern with
  | false =>
    rw [hp] at h
    cases h
    exact ⟨outline, [], rfl, List.nil_sublist _⟩
  | true =>
    rw [hp] at h
    obtain ⟨pattern, -, h⟩ := Except.bind_eq_ok_iff.mp h
    cases h
    exact ⟨outline, _, rfl, pattern.names_entries_sublist "Plate" ""⟩

/-- What a plate for some keys consists of, in this order: a block for each key, and the plate's own
outline and layers. The drawings of a block depend on the key and the options. Only its number, which
stands behind their names, depends on where the key comes in the list. -/
structure Assembled (plate : Plate α) (keys : List Key) (o : Options) (blocks : List (Named (Model α)))
    (outline : Model α) (layers : Named (Model α)) : Prop where
  length_blocks : blocks.length = keys.length
  block : ∀ i k, keys[i]? = some k → ∃ things,
    drawings o k = .ok things ∧ (names things).Sublist keyWords ∧
      keyBlock o i k = .ok (suffixed (toString i) things) ∧ blocks[i]? = some (suffixed (toString i) things)
  own : ownBlock plate.bounds o = .ok (("BoundingBox0", outline) :: layers)
  names_layers : (names layers).Sublist (Pattern.names "Plate" "")
  nodup_names : (names (blocks.flatten ++ ("BoundingBox0", outline) :: layers)).Nodup
  ofEntries_eq : ofEntries (blocks.flatten ++ ("BoundingBox0", outline) :: layers) =
    blocks.flatten ++ ("BoundingBox0", outline) :: layers
  models_eq : plate.models = (blocks.flatten ++ ("BoundingBox0", outline) :: layers).map
    fun (name, m) => (name, withDefaultLayer m)

theorem nodup_entries {blocks : List (Bounds × Named (Model α))} {layers : Named (Model α)}
    (outline : Model α) (h : keyBlocks o 0 keys = .ok blocks)
    (hlayers : (names layers).Sublist (Pattern.names "Plate" "")) :
    (names (blocks.flatMap (·.2) ++ ("BoundingBox0", outline) :: layers)).Nodup := by
  have hnames : (names (blocks.flatMap (·.2) ++ ("BoundingBox0", outline) :: layers)).Sublist
      (keyNames (List.range' 0 keys.length) ++ ownNames) := by
    rw [names_append]
    exact (names_keyBlocks h).append (hlayers.cons_cons _)
  exact (nodup_names List.nodup_range').sublist hnames

/-- All that building a plate does: the blocks of the keys are drawn, their bounds merged and the plate's
own drawings made for them. Under their different names all of these stay. -/
theorem build_ok {plate : Plate α} (h : build keys o = .ok plate) :
    ∃ blocks own, keyBlocks o 0 keys = .ok blocks ∧ Bounds.union? (blocks.map (·.1)) = some plate.bounds ∧
      ownBlock plate.bounds o = .ok own ∧ (names (blocks.flatMap (·.2) ++ own)).Nodup ∧
      plate.models = (blocks.flatMap (·.2) ++ own).map fun (name, m) => (name, withDefaultLayer m) := by
  obtain ⟨blocks, hblocks, h⟩ := Except.bind_eq_ok_iff.mp h
  split at h
  · cases h
  · rename_i bounds hbounds
    split at h
    · cases h
    · obtain ⟨own, hown, h⟩ := Except.bind_eq_ok_iff.mp h
      cases h
      obtain ⟨outline, layers, rfl, hlayers⟩ := names_ownBlock hown
      have hnodup := nodup_entries outline hblocks hlayers
      exact ⟨blocks, _, hblocks, hbounds, hown, hnodup, congrArg (List.map _) (ofEntries_of_nodup hnodup)⟩

theorem exists_assembled {plate : Plate α} (h : build keys o = .ok plate) :
    ∃ blocks outline layers, Assembled plate keys o blocks outline layers := by
  obtain ⟨placed, own, hplaced, -, hown, hnodup, hmodels⟩ := build_ok h
  obtain ⟨outline, layers, rfl, hlayers⟩ := names_ownBlock hown
  obtain ⟨hlen, hall⟩ := keyBlocks_ok hplaced
  have hflat : (placed.map (·.2)).flatten = placed.flatMap (·.2) := List.flatMap_def.symm
  refine ⟨placed.map (·.2), outline, layers, ?_⟩
  exact {
    length_blocks := by rw [List.length_map, hlen]
    block := by
      intro i k hk
      obtain ⟨block, hblock, hplace⟩ := hall i k hk
      rw [Nat.zero_add] at hplace
      obtain ⟨things, hthings, hnumbered⟩ := keyBlock_ok_iff.mp (place_ok hplace)
      refine ⟨things, hthings, names_drawings hthings, hnumbered ▸ place_ok hplace, ?_⟩
      rw [List.getElem?_map, hblock, ← hnumbered]
      rfl
    own := hown
    names_layers := hlayers
    nodup_names := hflat ▸ hnodup
    ofEntries_eq := hflat ▸ ofEntries_of_nodup hnodup
    models_eq := hflat ▸ hmodels }

theorem exists_failsFirst {i : Nat} {k : Key} {e : PlateError α} (hk : keys[i]? = some k)
    (h : place o i k = .error e) :
    ∃ first : PlateError α, FailsFirst keys o first ∧ ∀ more, build (keys ++ more) o = .error first := by
  cases hblocks : (keyBlocks o 0 keys : Except (PlateError α) _) with
  | error first =>
    refine ⟨first, ?_, build_append_eq_error hblocks⟩
    obtain ⟨j, k', hj, hplace, hbefore⟩ := keyBlocks_error hblocks
    simp only [Nat.zero_add] at hplace hbefore
    exact ⟨j, k', hj, hplace, hbefore⟩
  | ok blocks =>
    obtain ⟨block, -, hblock⟩ := (keyBlocks_ok hblocks).2 i k hk
    rw [Nat.zero_add, h] at hblock
    cases hblock

theorem Assembled.same_drawings {plate other : Plate α} {others : List Key}
    {blocks otherBlocks : List (Named (Model α))} {outline otherOutline : Model α}
    {layers otherLayers : Named (Model α)} (h : Assembled plate keys o blocks outline layers)
    (h' : Assembled other others o otherBlocks otherOutline otherLayers) {i j : Nat} {k : Key}
    (hi : keys[i]? = some k) (hj : others[j]? = some k) :
    ∃ things, blocks[i]? = some (suffixed (toString i) things) ∧
      otherBlocks[j]? = some (suffixed (toString j) things) := by
  obtain ⟨things, hthings, -, -, hblock⟩ := h.block i k hi
  obtain ⟨others, hothers, -, -, hother⟩ := h'.block j k hj
  rw [hthings] at hothers
  cases hothers
  exact ⟨things, hblock, hother⟩

/-- A plate consists of blocks under names of their own. The blocks of equal keys, in one plate or in two
with the same options, differ in the number alone. Without a block for some key there is no plate, and
further keys do not change why. -/
theorem build_blocks (keys : List Key) (o : Options) :
    (∀ plate : Plate α, build keys o = .ok plate →
      ∃ blocks outline layers, Assembled plate keys o blocks outline layers) ∧
    (∀ (plate : Plate α) blocks outline layers, Assembled plate keys o blocks outline layers →
      ∀ others (other : Plate α) otherBlocks otherOutline otherLayers,
        Assembled other others o otherBlocks otherOutline otherLayers →
        ∀ (i j : Nat) (k : Key), keys[i]? = some k → others[j]? = some k →
          ∃ things, blocks[i]? = some (suffixed (toString i) things) ∧
            otherBlocks[j]? = some (suffixed (toString j) things)) ∧
    ∀ (i : Nat) (k : Key), keys[i]? = some k → ∀ e : PlateError α, place o i k = .error e →
      ∃ first : PlateError α, FailsFirst keys o first ∧ build keys o = .error first ∧
        ∀ more, build (keys ++ more) o = .error first := by
  refine ⟨fun plate h => exists_assembled h, ?_, ?_⟩
  · intro plate blocks outline layers h others other otherBlocks otherOutline otherLayers h' i j k hi hj
    exact h.same_drawings h' hi hj
  · intro i k hk e he
    obtain ⟨first, hfirst, hall⟩ := exists_failsFirst hk he
    exact ⟨first, hfirst, by simpa using hall [], hall⟩

/-- Everything but rounded corners. -/
def sharpOptions : Options := {
  switchFilletRadius := 0, stabilizerFilletRadius := 0, acousticFilletRadius := 0, extremeSlot := true,
  plateRadius := 0, platePattern := true, platePatternRadius := 0 }

def unitKey : Key :=
  { x := 0, y := 0, centerX := 0.5, centerY := 0.5, center_eq := by decide +kernel }

def wideKey : Key :=
  { x := 1, y := 0, width := 2, centerX := 2, centerY := 0.5, center_eq := by decide +kernel }

/-- A key whose center has a decimal in key units, but not in millimetres. -/
def farKey : Key :=
  { x := 5000000000000000000000000000, y := 0, centerX := 5000000000000000000000000000.5, centerY := 0.5,
    center_eq := by decide +kernel }

theorem unitAndWide_blocks :
    (∃ (plate other : Plate Float) (blocks otherBlocks : List (Named (Model Float)))
        (outline otherOutline : Model Float) (layers otherLayers : Named (Model Float)),
      build [unitKey, wideKey] sharpOptions = .ok plate ∧ build [wideKey] sharpOptions = .ok other ∧
      Assembled plate [unitKey, wideKey] sharpOptions blocks outline layers ∧
      Assembled other [wideKey] sharpOptions otherBlocks otherOutline otherLayers ∧
      ∃ things, blocks[1]? = some (suffixed (toString 1) things) ∧
        otherBlocks[0]? = some (suffixed (toString 0) things)) ∧
    ∃ first : PlateError Float, FailsFirst [unitKey, farKey] sharpOptions first ∧
      build [unitKey, farKey] sharpOptions = .error first ∧
        ∀ more, build ([unitKey, farKey] ++ more) sharpOptions = .error first := by
  constructor
  · obtain ⟨plate, h⟩ := Except.exists_of_isOk (x := build (α := Float) [unitKey, wideKey] sharpOptions)
      (by decide +kernel)
    obtain ⟨other, h'⟩ := Except.exists_of_isOk (x := build (α := Float) [wideKey] sharpOptions)
      (by decide +kernel)
    obtain ⟨blocks, outline, layers, hblocks⟩ := (build_blocks _ _).1 plate h
    obtain ⟨otherBlocks, otherOutline, otherLayers, hothers⟩ := (build_blocks _ _).1 other h'
    refine ⟨plate, other, blocks, otherBlocks, outline, otherOutline, layers, otherLayers, h, h', hblocks,
      hothers, ?_⟩
    exact (build_blocks _ _).2.1 _ _ _ _ hblocks _ _ _ _ _ hothers 1 0 wideKey rfl rfl
  · have hfar : Bounds.ofKey? farKey sharpOptions = none := by decide +kernel
    have hplace : place sharpOptions 1 farKey = .error (.keyOutOfRange 1 : PlateError Float) := by
      unfold place
      rw [hfar]
    exact (build_blocks _ _).2.2 1 farKey rfl _ hplace

end KeyboardPlate.Plate
