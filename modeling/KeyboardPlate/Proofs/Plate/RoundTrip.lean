import KeyboardPlate.Command.Build
import KeyboardPlate.Proofs.Plate.Nesting

/-!
# Plates read back from their files

The JSON file of a plate is read as the drawing that the other files show.
-/

set_option autoImplicit false

namespace KeyboardPlate

open Named

namespace Model

variable {m : Model Float}

theorem ofText?_toText (hnames : m.WellNamed) (hnumbers : ∀ x ∈ m.numbers, IsWritable x)
    (hdepth : m.toJson.depth ≤ depthLimit) : ofText? m.toText = some m :=
  ofText?_of_parse? hnames hnumbers hdepth (Json.parse?_compactText (readable_toJson m hnumbers))

theorem ofText?_indentedText (hnames : m.WellNamed) (hnumbers : ∀ x ∈ m.numbers, IsWritable x)
    (hdepth : m.toJson.depth ≤ depthLimit) : ofText? m.toJson.indentedText = some m :=
  ofText?_of_parse? hnames hnumbers hdepth (Json.parse?_indentedText (readable_toJson m hnumbers))

end Model

namespace Plate

theorem models_ne_nil {keys : List Key} {o : Options} {plate : Plate Float} (h : build keys o = .ok plate) :
    plate.models ≠ [] := by
  obtain ⟨blocks, outline, layers, hassembled⟩ := exists_assembled h
  rw [hassembled.models_eq]
  simp

theorem text_json {plate : Plate Float} (h : plate.models ≠ []) :
    Command.Format.text .json plate = .ok plate.toModel.toJson.indentedText := by
  have hempty : plate.models.isEmpty = false := by simpa using h
  have hjson : plate.toModel.toJson = .object [("models", .object (Model.childrenToJson plate.models))] := by
    rw [Model.toJson_eq]
    simp [toModel, Model.originMember, Model.pathsMember, Model.childrenMember, Model.layerMember, hempty]
  rw [hjson]
  rfl

/-- A drawing is read from its text as it was, if no name in it stands twice at one place, its numbers are
finite and read back, and it is not nested too deeply for a reader. A plate never is, and so its file is
read as the plate's drawing. -/
theorem ofText?_written :
    (∀ m : Model Float, m.WellNamed → (∀ x ∈ m.numbers, x.isFinite = true) →
      (∀ x ∈ m.numbers, x.isFinite = true → Model.TextReadsBack x) → m.toJson.depth ≤ 127 →
        Model.ofText? m.toText = some m ∧ Model.ofText? m.toJson.indentedText = some m) ∧
    ∀ (keys : List Key) (o : Options) (plate : Plate Float), build keys o = .ok plate →
      (∀ x ∈ plate.toModel.numbers, x.isFinite = true) →
      (∀ x ∈ plate.toModel.numbers, x.isFinite = true → Model.TextReadsBack x) →
        ∃ text, Command.Format.text .json plate = .ok text ∧ Model.ofText? text = some plate.toModel := by
  constructor
  · intro m hnames hfinite hread hdepth
    have hnumbers : ∀ x ∈ m.numbers, Model.IsWritable x := fun x hx => ⟨hfinite x hx, hread x hx (hfinite x hx)⟩
    exact ⟨Model.ofText?_toText hnames hnumbers hdepth, Model.ofText?_indentedText hnames hnumbers hdepth⟩
  · intro keys o plate h hfinite hread
    have hnumbers : ∀ x ∈ plate.toModel.numbers, Model.IsWritable x := fun x hx =>
      ⟨hfinite x hx, hread x hx (hfinite x hx)⟩
    have htidy := tidy_build h
    refine ⟨_, text_json (models_ne_nil h), ?_⟩
    exact Model.ofText?_indentedText htidy.wellNamed hnumbers (Nat.le_trans htidy.depth_toJson_le (by decide))

/-- A drawing on a layer of its own, with names that have to be escaped. -/
def quotedModel : Model Float := {
  origin := some ⟨1.5, -2⟩
  layer := some .top
  paths := [("say \"\\\n\"", .between ⟨0, 0.1⟩ ⟨1, 0⟩), ("", .arc ⟨⟨0, 0⟩, 2, 0, 90⟩)]
  children := [("é\t", {}), ("models", { layer := some .plate })] }

/-- Whole millimetres, and the outlines of the switch and the plate alone. -/
def plainOptions : Options :=
  { sharpOptions with extremeSlot := false, platePattern := false, unitWidth := 20, unitHeight := 20 }

theorem exists_unitPlate : ∃ plate : Plate Float, build [unitKey] plainOptions = .ok plate ∧
    ∀ x ∈ plate.toModel.numbers, x.isFinite = true ∧ Model.TextReadsBack x := by
  have h : (match (build [unitKey] plainOptions : Except (PlateError Float) (Plate Float)) with
      | .ok plate => decide (∀ x ∈ plate.toModel.numbers, x.isFinite = true ∧ Model.TextReadsBack x)
      | .error _ => false) = true := by decide +kernel
  cases hbuild : (build [unitKey] plainOptions : Except (PlateError Float) (Plate Float)) with
  | error e =>
    rw [hbuild] at h
    cases h
  | ok plate =>
    rw [hbuild] at h
    exact ⟨plate, rfl, of_decide_eq_true h⟩

theorem quotedModel_written :
    (Model.ofText? quotedModel.toText = some quotedModel ∧
      Model.ofText? quotedModel.toJson.indentedText = some quotedModel) ∧
    ∃ plate text, build [unitKey] plainOptions = .ok plate ∧ Command.Format.text .json plate = .ok text ∧
      Model.ofText? text = some plate.toModel := by
  constructor
  · refine ofText?_written.1 quotedModel ?_ (by decide +kernel) ?_ (by decide)
    · simp [quotedModel, Model.WellNamed, Model.AllWellNamed, names]
    · have hread : ∀ x ∈ quotedModel.numbers, Model.TextReadsBack x := by decide +kernel
      exact fun x hx _ => hread x hx
  · obtain ⟨plate, hplate, hnumbers⟩ := exists_unitPlate
    obtain ⟨text, htext, hread⟩ := ofText?_written.2 [unitKey] plainOptions plate hplate
      (fun x hx => (hnumbers x hx).1) (fun x hx _ => (hnumbers x hx).2)
    exact ⟨plate, text, hplate, htext, hread⟩

/-- A line below some levels of drawings. -/
def nested : Nat → Model Float
  | 0 => { paths := [("p", .between ⟨0, 0⟩ ⟨1, 0⟩)] }
  | levels + 1 => { children := [("a", nested levels)] }

theorem wellNamed_nested (levels : Nat) : (nested levels).WellNamed := by
  induction levels with
  | zero => simp [nested, Model.WellNamed, Model.AllWellNamed, names]
  | succ levels ih => simpa [nested, Model.WellNamed, Model.AllWellNamed, names] using ih

theorem numbers_nested (levels : Nat) : (nested levels).numbers = [0, 0, 1, 0] := by
  induction levels with
  | zero => rfl
  | succ levels ih => simpa [nested, Model.numbers, Model.numbersBelow] using ih

theorem depth_nested (levels : Nat) : (nested levels).toJson.depth = 2 * levels + 4 := by
  induction levels with
  | zero => rfl
  | succ levels ih =>
    have hdepth : (nested (levels + 1)).toJson.depth = 1 + (1 + max (nested levels).toJson.depth 0) := by
      simp [nested, Model.toJson, Model.childrenToJson, Json.depth, Json.membersDepth]
    omega

theorem ofJson?_nested (levels : Nat) : Model.ofJson? (2 * levels + 3) (nested levels).toJson = none := by
  induction levels with
  | zero => rfl
  | succ levels ih =>
    have hjson : (nested (levels + 1)).toJson = .object [("models", .object [("a", (nested levels).toJson)])] := by
      simp [nested, Model.toJson, Model.childrenToJson]
    have hmodels : Model.childrenOfJson? (2 * levels + 4) (Model.ofJson? (2 * levels + 3))
        (.object [("a", (nested levels).toJson)]) = none := by
      simp [Model.childrenOfJson?, ih]
    rw [hjson, show 2 * (levels + 1) + 3 = 2 * levels + 3 + 2 by omega, Model.ofJson?]
    simp [Model.ofJsonWith?, Json.atMostOnce, Model.memberNames, Model.ownMembers, Model.ofMembers?, hmodels]

/-- A reader gives up at the hundred and twenty-eighth array or object inside the others. -/
theorem not_ofText?_of_depth_le :
    ¬ ∀ m : Model Float, m.WellNamed → (∀ x ∈ m.numbers, x.isFinite = true) →
      (∀ x ∈ m.numbers, x.isFinite = true → Model.TextReadsBack x) → m.toJson.depth ≤ 128 →
        Model.ofText? m.toText = some m := by
  intro h
  -- a variable for the number of levels keeps the whole tree from being unfolded
  obtain ⟨levels, hlevels⟩ : ∃ n, n = 62 := ⟨62, rfl⟩
  have hfinite : ∀ x ∈ (nested levels).numbers, x.isFinite = true := by
    rw [numbers_nested]
    decide +kernel
  have hread : ∀ x ∈ (nested levels).numbers, Model.TextReadsBack x := by
    rw [numbers_nested]
    decide +kernel
  have hdepth : (nested levels).toJson.depth ≤ 128 := by
    rw [depth_nested]
    omega
  have hsome := h (nested levels) (wellNamed_nested levels) hfinite (fun x hx _ => hread x hx) hdepth
  have hparse : Json.parse? (nested levels).toText = some (nested levels).toJson :=
    Json.parse?_compactText (Model.readable_toJson _ fun x hx => ⟨hfinite x hx, hread x hx⟩)
  have hlimit : Model.depthLimit = 2 * levels + 3 := by
    rw [hlevels]
    rfl
  rw [Model.ofText?, hparse, Option.bind_eq_bind, Option.bind_some, hlimit, ofJson?_nested] at hsome
  cases hsome

end Plate

end KeyboardPlate
