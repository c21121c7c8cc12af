import KeyboardPlate.Proofs.Layout.Place
import Mathlib.Data.List.Nodup

/-!
# Objects taken apart

The modifiers of an object take effect one after the other, and each looks at its own member only. So an
object may be replaced by objects of one member each, in the order in which the modifiers take effect. Only
the items to the right get other numbers.
-/

set_option autoImplicit false

namespace KeyboardPlate.Layout

/-- An object taken apart: one object for each modifier that it gives, in the order of their effects. -/
def splitObject (members : List (String × Json)) : List Json :=
  Modifier.all.filterMap fun m => (Json.member? m.name members).map fun value => .object [(m.name, value)]

section Single
variable {row : Nat} {s : State} {m : Modifier} {value : Json}

theorem Modifier.name_inj {m n : Modifier} (h : m.name = n.name) : m = n :=
  List.inj_on_of_nodup_map (by decide : (all.map name).Nodup) (mem_all m) (mem_all n) h

theorem member?_single_of_ne {n : Modifier} (h : n ≠ m) : Json.member? n.name [(m.name, value)] = none := by
  have hname : ¬ m.name = n.name := fun he => h (Modifier.name_inj he).symm
  simp [Json.member?, hname]

theorem member?_single_self : Json.member? m.name [(m.name, value)] = some value := by simp [Json.member?]

theorem step_single_of_ne {n : Modifier} (h : n ≠ m) : n.step row [(m.name, value)] s = .ok s := by
  rw [Modifier.step, member?_single_of_ne h]

theorem step_single_self {members : List (String × Json)} (h : Json.member? m.name members = some value) :
    m.step row [(m.name, value)] s = m.step row members s := by
  rw [Modifier.step, Modifier.step, member?_single_self, h]

theorem foldlM_step_single {ms : List Modifier} (hms : ms.Nodup) :
    ms.foldlM (Modifier.step row [(m.name, value)]) s =
      if m ∈ ms then m.step row [(m.name, value)] s else .ok s := by
  induction ms generalizing s with
  | nil => rfl
  | cons n ms ih =>
    obtain ⟨hn, hms⟩ := List.nodup_cons.mp hms
    rw [List.foldlM_cons]
    by_cases h : n = m
    · subst h
      have hrest : ∀ t, ms.foldlM (Modifier.step row [(n.name, value)]) t = .ok t := by
        intro t
        rw [ih hms, if_neg hn]
      rw [if_pos (List.mem_cons_self ..)]
      simp only [hrest]
      exact bind_pure _
    · have hmem : m ∈ n :: ms ↔ m ∈ ms := by
        rw [List.mem_cons]
        exact or_iff_right fun he => h he.symm
      rw [step_single_of_ne h, Except.ok_bind, ih hms]
      simp only [hmem]

theorem modify_single : modify row [(m.name, value)] s = m.step row [(m.name, value)] s := by
  have hall : Modifier.all.Nodup := by decide
  rw [modify, foldlM_step_single hall, if_pos (Modifier.mem_all m)]

end Single

section Split
variable {row item : Nat} {s : State}

theorem readItems_parts (members : List (String × Json)) (ms : List Modifier) :
    readItems row item s
        (ms.filterMap fun m => (Json.member? m.name members).map fun value => .object [(m.name, value)]) =
      (ms.foldlM (Modifier.step row members) s).map fun t => ([], t) := by
  induction ms generalizing item s with
  | nil => rfl
  | cons m ms ih =>
    rw [List.foldlM_cons]
    cases hvalue : Json.member? m.name members with
    | none =>
      have hstep : m.step row members s = .ok s := by rw [Modifier.step, hvalue]
      rw [List.filterMap_cons_none (by rw [hvalue]; rfl), hstep, Except.ok_bind, ih]
    | some value =>
      rw [List.filterMap_cons_some (by rw [hvalue]; rfl), readItems, readItem, modify_single, step_single_self hvalue]
      simp only [ih, Except.map_eq_bind, bind_assoc, pure_bind, List.nil_append]

theorem readItems_splitObject (members : List (String × Json)) :
    readItems row item s (splitObject members) = readItems row item s [.object members] := by
  rw [splitObject, readItems_parts]
  simp only [readItems, readItem, modify, Except.map_eq_bind, bind_assoc, pure_bind, Except.ok_bind, List.append_nil]

theorem unplaced_readOn_split (members : List (String × Json)) (right below : List Json) :
    (readOn row item s (splitObject members ++ right) below).mapError Error.unplaced =
      (readOn row item s (.object members :: right) below).mapError Error.unplaced := by
  rw [← List.singleton_append, readOn_append, readOn_append, readItems_splitObject, Except.mapError_bind,
    Except.mapError_bind]
  apply bind_congr
  rintro ⟨keys, t⟩
  dsimp only
  rw [Except.mapError_bind, Except.mapError_bind,
    unplaced_readOn row (item + (splitObject members).length) (item + [Json.object members].length)]

end Split

theorem unplaced_split (p : Place) (members : List (String × Json)) (right below : List Json) :
    (resolveValue (p.layout (splitObject members ++ right) below)).mapError Error.unplaced =
      (resolveValue (p.layout (.object members :: right) below)).mapError Error.unplaced := by
  rw [Place.resolveValue_layout, Place.resolveValue_layout, Except.mapError_bind, Except.mapError_bind]
  apply bind_congr
  rintro ⟨first, s⟩
  dsimp only
  rw [Except.mapError_bind, Except.mapError_bind, unplaced_readOn_split]

theorem Error.unplaced_eq_invalidField_iff {e : Error} {row : Nat} {field : String} {value : Json} :
    e.unplaced = .invalidField row field value ↔ e = .invalidField row field value := by
  cases e with
  | invalidField _ _ _ => rfl
  | _ =>
    constructor
    · intro h
      cases h
    · intro h
      cases h

/-- A layout with an object taken apart has the same keys, and fails for a modifier just when the layout with
the whole object does, with the same row, name and value. -/
theorem resolveValue_split (p : Place) (members : List (String × Json)) (right below : List Json) :
    (∀ keys, resolveValue (p.layout (splitObject members ++ right) below) = .ok keys ↔
      resolveValue (p.layout (.object members :: right) below) = .ok keys) ∧
    ∀ row field value,
      resolveValue (p.layout (splitObject members ++ right) below) = .error (.invalidField row field value) ↔
        resolveValue (p.layout (.object members :: right) below) = .error (.invalidField row field value) := by
  have h := unplaced_split p members right below
  constructor
  · intro keys
    rw [← Except.mapError_eq_ok_iff (f := Error.unplaced), h, Except.mapError_eq_ok_iff]
  · intro row field value
    have hiff : ∀ x : Except Error (List Key), x = .error (.invalidField row field value) ↔
        x.mapError Error.unplaced = .error (.invalidField row field value) := by
      intro x
      rw [Except.mapError_eq_error_iff]
      constructor
      · intro hx
        exact ⟨_, hx, rfl⟩
      · rintro ⟨e, hx, he⟩
        rw [hx, Error.unplaced_eq_invalidField_iff.mp he]
    rw [hiff, h, ← hiff]

end KeyboardPlate.Layout
