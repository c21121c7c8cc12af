import KeyboardPlate.Proofs.Plate.Names

/-!
# Blocks of drawings

The drawings of a key depend on the key and the options alone. Only their names tell its number.
-/

set_option autoImplicit false

namespace KeyboardPlate

open Named

variable {α : Type}

theorem Pattern.entries_suffixed (p : Pattern α) (before after suffix : String) :
    p.entries before (after ++ suffix) = suffixed suffix (p.entries before after) := by
  simp [Pattern.entries, suffixed, String.append_assoc]

theorem Pattern.names_entries_sublist (p : Pattern α) (before after : String) :
    (Named.names (p.entries before after)).Sublist (Pattern.names before after) := by
  have hall : (p.layers.map fun entry => before ++ entry.1 ++ after) = Pattern.names before after := rfl
  have hkept : Named.names (p.entries before after) =
      (p.layers.filter fun entry => !entry.2.isEmpty).map fun entry => before ++ entry.1 ++ after := by
    simp [Pattern.entries, Named.names]
  rw [hkept, ← hall]
  exact List.filter_sublist.map _

namespace Plate

variable [Scalar α] {o : Options} {k : Key} {p : Pose α}

/-! ## The number in the names -/

theorem patternIf_suffixed (wanted : Bool) (base : Model α) (lineWidth expansion : Decimal)
    (word suffix : String) :
    patternIf wanted base lineWidth expansion word suffix =
      suffixed suffix <$> patternIf wanted base lineWidth expansion word "" := by
  unfold patternIf
  cases wanted with
  | false => rfl
  | true =>
    cases Pattern.around base lineWidth expansion with
    | error e => rfl
    | ok pattern => exact congrArg Except.ok (by simpa using pattern.entries_suffixed word "" suffix)

theorem withPattern_suffixed (wanted : Bool) (m : Model α) (lineWidth expansion : Decimal)
    (word patternWord suffix : String) :
    withPattern wanted m lineWidth expansion word patternWord suffix =
      suffixed suffix <$> withPattern wanted m lineWidth expansion word patternWord "" := by
  unfold withPattern
  rw [patternIf_suffixed]
  cases patternIf wanted m lineWidth expansion patternWord "" with
  | error e => rfl
  | ok pattern => simp [suffixed]

theorem cutoutBlock_suffixed (cutout : Except (PlateError α) (Option (Model α))) (wanted : Bool)
    (lineWidth expansion : Decimal) (word suffix : String) :
    cutoutBlock cutout wanted lineWidth expansion word suffix p =
      suffixed suffix <$> cutoutBlock cutout wanted lineWidth expansion word "" p := by
  unfold cutoutBlock
  rw [map_bind]
  refine bind_congr fun cutout => ?_
  cases cutout with
  | none => rfl
  | some cutout => exact withPattern_suffixed ..

theorem cornerBlock_suffixed (suffix : String) :
    cornerBlock o suffix p = suffixed suffix <$> cornerBlock o "" p := by
  unfold cornerBlock
  split
  · rw [map_bind]
    exact bind_congr fun pattern => congrArg Except.ok (Pattern.entries_suffixed _ "Slot" "Corner" suffix)
  · rfl

theorem switchBlock_suffixed (suffix : String) :
    switchBlock o suffix p k = suffixed suffix <$> switchBlock o "" p k := by
  unfold switchBlock
  rw [map_bind]
  exact bind_congr fun m => withPattern_suffixed ..

theorem slotBlock_suffixed (suffix : String) :
    slotBlock o suffix p = suffixed suffix <$> slotBlock o "" p := by
  unfold slotBlock
  split
  · rw [map_bind]
    refine bind_congr fun slots => ?_
    dsimp only
    rw [withPattern_suffixed, cornerBlock_suffixed]
    simp [map_bind, bind_map_left, suffixed_append]
  · rfl

/-- The drawings of a key in its pose. -/
def posedBlock (o : Options) (suffix : String) (p : Pose α) (k : Key) :
    Except (PlateError α) (Named (Model α)) := do
  let switch ← switchBlock o suffix p k
  let stabilizer ← stabilizerBlock o suffix p k
  let acoustic ← acousticBlock o suffix p k
  let slot ← slotBlock o suffix p
  return switch ++ stabilizer ++ acoustic ++ slot

theorem posedBlock_suffixed (suffix : String) :
    posedBlock o suffix p k = suffixed suffix <$> posedBlock o "" p k := by
  unfold posedBlock stabilizerBlock acousticBlock
  rw [switchBlock_suffixed, cutoutBlock_suffixed, cutoutBlock_suffixed _ o.acousticPattern, slotBlock_suffixed]
  simp [map_bind, bind_map_left, suffixed_append]

/-! ## The words in the names -/

theorem names_patternIf {wanted : Bool} {base : Model α} {lineWidth expansion : Decimal} {word : String}
    {pattern : Named (Model α)} (h : patternIf wanted base lineWidth expansion word "" = .ok pattern) :
    (names pattern).Sublist (Pattern.names word "") := by
  unfold patternIf at h
  cases wanted with
  | false =>
    cases h
    exact List.nil_sublist _
  | true =>
    obtain ⟨layers, -, hlayers⟩ := Except.bind_eq_ok_iff.mp h
    cases hlayers
    exact layers.names_entries_sublist word ""

theorem names_withPattern {wanted : Bool} {m : Model α} {lineWidth expansion : Decimal}
    {word patternWord : String} {block : Named (Model α)}
    (h : withPattern wanted m lineWidth expansion word patternWord "" = .ok block) :
    (names block).Sublist (word :: Pattern.names patternWord "") := by
  obtain ⟨pattern, hpattern, hblock⟩ := Except.bind_eq_ok_iff.mp h
  cases hblock
  have hword : names ((word ++ "", m) :: pattern) = word :: names pattern := by simp [names]
  rw [hword]
  exact (names_patternIf hpattern).cons_cons word

theorem names_cutoutBlock {cutout : Except (PlateError α) (Option (Model α))} {wanted : Bool}
    {lineWidth expansion : Decimal} {word : String} {block : Named (Model α)}
    (h : cutoutBlock cutout wanted lineWidth expansion word "" p = .ok block) :
    (names block).Sublist (word :: Pattern.names word "") := by
  obtain ⟨cutout, -, hblock⟩ := Except.bind_eq_ok_iff.mp h
  cases cutout with
  | none =>
    cases hblock
    exact List.nil_sublist _
  | some cutout => exact names_withPattern hblock

theorem names_cornerBlock {block : Named (Model α)} (h : cornerBlock o "" p = .ok block) :
    (names block).Sublist (Pattern.names "Slot" "Corner") := by
  unfold cornerBlock at h
  split at h
  · obtain ⟨layers, -, hblock⟩ := Except.bind_eq_ok_iff.mp h
    cases hblock
    exact Pattern.names_entries_sublist _ "Slot" "Corner"
  · cases h
    exact List.nil_sublist _

theorem names_slotBlock {block : Named (Model α)} (h : slotBlock o "" p = .ok block) :
    (names block).Sublist slotWords := by
  unfold slotBlock at h
  split at h
  · obtain ⟨slots, -, h⟩ := Except.bind_eq_ok_iff.mp h
    obtain ⟨slot, hslot, h⟩ := Except.bind_eq_ok_iff.mp h
    obtain ⟨corners, hcorners, h⟩ := Except.bind_eq_ok_iff.mp h
    cases h
    rw [names_append]
    exact (names_withPattern hslot).append (names_cornerBlock hcorners)
  · cases h
    exact List.nil_sublist _

theorem names_posedBlock {block : Named (Model α)} (h : posedBlock o "" p k = .ok block) :
    (names block).Sublist keyWords := by
  obtain ⟨switch, hswitch, h⟩ := Except.bind_eq_ok_iff.mp h
  obtain ⟨stabilizer, hstabilizer, h⟩ := Except.bind_eq_ok_iff.mp h
  obtain ⟨acoustic, hacoustic, h⟩ := Except.bind_eq_ok_iff.mp h
  obtain ⟨slot, hslot, h⟩ := Except.bind_eq_ok_iff.mp h
  cases h
  obtain ⟨m, -, hswitch⟩ := Except.bind_eq_ok_iff.mp hswitch
  simp only [names_append]
  exact (((names_withPattern hswitch).append (names_cutoutBlock hstabilizer)).append
    (names_cutoutBlock hacoustic)).append (names_slotBlock hslot)

/-! ## The drawings of a key without its number -/

/-- The drawings of a key under words alone. -/
def drawings (o : Options) (k : Key) : Except (PlateError α) (Named (Model α)) := do
  -- Any number would do: poses mention it in errors alone.
  posedBlock o "" (← pose o 0 k) k

theorem keyBlock_eq (id : Nat) :
    keyBlock o id k = pose o id k >>= fun p : Pose α => posedBlock o (toString id) p k :=
  rfl

/-- The number of a key counts only if the key has no pose. -/
theorem pose_ok_iff {i : Nat} (j : Nat) : pose o i k = .ok p ↔ pose o j k = .ok p := by
  unfold pose
  simp only [Except.bind_eq_ok_iff]
  cases k.centerX.mul? o.unitWidth <;> cases k.centerY.mul? o.unitHeight <;>
    cases k.angle.add? k.switchAngle <;> cases k.angle.add? k.stabilizerAngle <;> simp

theorem keyBlock_ok_iff {id : Nat} {block : Named (Model α)} :
    keyBlock o id k = .ok block ↔ ∃ things, drawings o k = .ok things ∧ block = suffixed (toString id) things := by
  rw [keyBlock_eq]
  constructor
  · intro h
    obtain ⟨p, hp, hblock⟩ := Except.bind_eq_ok_iff.mp h
    rw [posedBlock_suffixed] at hblock
    obtain ⟨things, hthings, hnamed⟩ := Except.map_eq_ok_iff.mp hblock
    exact ⟨things, Except.bind_eq_ok_iff.mpr ⟨p, (pose_ok_iff 0).mp hp, hthings⟩, hnamed.symm⟩
  · rintro ⟨things, h, rfl⟩
    obtain ⟨p, hp, hthings⟩ := Except.bind_eq_ok_iff.mp h
    refine Except.bind_eq_ok_iff.mpr ⟨p, (pose_ok_iff id).mp hp, ?_⟩
    rw [posedBlock_suffixed, hthings]
    rfl

theorem names_drawings {things : Named (Model α)} (h : drawings o k = .ok things) :
    (names things).Sublist keyWords := by
  obtain ⟨p, -, h⟩ := Except.bind_eq_ok_iff.mp h
  exact names_posedBlock h

end Plate

end KeyboardPlate
