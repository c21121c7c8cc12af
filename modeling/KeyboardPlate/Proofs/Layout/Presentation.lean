import KeyboardPlate.Proofs.Layout.Place

/-!
# What a layout only shows

The text of a label, members that are no modifiers and metadata do not reach the keys of a layout, nor what is
wrong with it. Metadata takes a row, so errors behind it name the next one.
-/

set_option autoImplicit false

namespace KeyboardPlate.Layout

/-- The values have the same arrays, and differ at most in texts and in members that are no modifiers. -/
inductive Alike : Json → Json → Prop
  | text (s t : String) : Alike (.string s) (.string t)
  | object {members others : List (String × Json)}
      (h : ∀ m : Modifier, Json.member? m.name members = Json.member? m.name others) :
      Alike (.object members) (.object others)
  | array {values others : List Json} (h : List.Forall₂ Alike values others) : Alike (.array values) (.array others)
  | same (value : Json) : Alike value value

/-- The errors say the same. Of a value that is no item of a row, an error only tells the kind. -/
inductive Error.Same : Error → Error → Prop
  | refl (e : Error) : Error.Same e e
  | element (row item : Nat) {found other : Json} (h : kindOf found = kindOf other) :
      Error.Same (.invalidElement row item found) (.invalidElement row item other)

theorem Error.Same.message_eq {e e' : Error} (h : e.Same e') : e.message = e'.message := by
  cases h with
  | refl e => rfl
  | element row item h => rw [message, message, h]

/-- The steps have the same result, or errors that say the same. -/
def SameOutcome {β : Type} : Except Error β → Except Error β → Prop
  | .ok b, .ok c => b = c
  | .error e, .error e' => e.Same e'
  | _, _ => False

section Outcome
variable {β γ : Type}

theorem SameOutcome.refl (x : Except Error β) : SameOutcome x x := by
  cases x with
  | error e => exact Error.Same.refl e
  | ok b => rfl

theorem SameOutcome.bind {x y : Except Error β} {f g : β → Except Error γ} (hxy : SameOutcome x y)
    (hfg : ∀ b, SameOutcome (f b) (g b)) : SameOutcome (x >>= f) (y >>= g) := by
  cases x with
  | error e =>
    cases y with
    | error e' => exact hxy
    | ok c => exact hxy.elim
  | ok b =>
    cases y with
    | error e' => exact hxy.elim
    | ok c =>
      obtain rfl : b = c := hxy
      exact hfg b

theorem SameOutcome.map {x y : Except Error β} (hxy : SameOutcome x y) (f : β → γ) :
    SameOutcome (x.map f) (y.map f) := by
  rw [Except.map_eq_bind, Except.map_eq_bind]
  exact hxy.bind fun b => SameOutcome.refl _

theorem SameOutcome.mapError_message_eq {x y : Except Error β} (h : SameOutcome x y) :
    x.mapError Error.message = y.mapError Error.message := by
  cases x with
  | error e =>
    cases y with
    | error e' => exact congrArg Except.error (Error.Same.message_eq h)
    | ok c => exact h.elim
  | ok b =>
    cases y with
    | error e' => exact h.elim
    | ok c => exact congrArg Except.ok h

end Outcome

section Alike
variable {value other : Json} {values others : List Json}

theorem modify_eq {members others : List (String × Json)}
    (h : ∀ m : Modifier, Json.member? m.name members = Json.member? m.name others) (row : Nat) (s : State) :
    modify row members s = modify row others s := by
  unfold modify
  congr 1
  funext t m
  rw [Modifier.step, Modifier.step, h]

theorem isMetadata_eq {members others : List (String × Json)}
    (h : ∀ m : Modifier, Json.member? m.name members = Json.member? m.name others) :
    isMetadata members = isMetadata others := by
  unfold isMetadata
  congr 1
  funext m
  rw [h]

theorem Alike.readItem (h : Alike value other) (row item : Nat) (s : State) :
    SameOutcome (readItem row item s value) (readItem row item s other) := by
  cases h with
  | text a b => exact SameOutcome.refl (label row item s)
  | object h =>
    rw [Layout.readItem, Layout.readItem, modify_eq h]
    exact SameOutcome.refl _
  | array h => exact Error.Same.element row item rfl
  | same value => exact SameOutcome.refl _

theorem sameOutcome_readItems (h : List.Forall₂ Alike values others) (row item : Nat) (s : State) :
    SameOutcome (readItems row item s values) (readItems row item s others) := by
  induction h generalizing item s with
  | nil => exact SameOutcome.refl _
  | cons hvalue _ ih =>
    rw [readItems, readItems]
    apply (hvalue.readItem row item s).bind
    intro r
    apply (ih (item + 1) r.2).bind
    intro r'
    exact SameOutcome.refl _

theorem Alike.readRow (h : Alike value other) (row : Nat) (s : State) :
    SameOutcome (readRow row s value) (readRow row s other) := by
  cases h with
  | array h =>
    rw [Layout.readRow, Layout.readRow, ← h.length_eq]
    apply (sameOutcome_readItems h row 0 s).bind
    intro r
    exact SameOutcome.refl _
  | _ => exact SameOutcome.refl _

theorem sameOutcome_readRows (h : List.Forall₂ Alike values others) (row : Nat) (s : State) :
    SameOutcome (readRows row s values) (readRows row s others) := by
  induction h generalizing row s with
  | nil => exact SameOutcome.refl _
  | cons hvalue _ ih =>
    rw [readRows, readRows]
    apply (hvalue.readRow row s).bind
    intro r
    apply (ih (row + 1) r.2).bind
    intro r'
    exact SameOutcome.refl _

theorem numberedRows_alike (h : List.Forall₂ Alike values others) :
    (numberedRows values).1 = (numberedRows others).1 ∧
      List.Forall₂ Alike (numberedRows values).2 (numberedRows others).2 := by
  cases h with
  | nil => exact ⟨rfl, List.Forall₂.nil⟩
  | @cons first _ _ _ hfirst hrest =>
    cases hfirst with
    | object h =>
      rw [numberedRows, numberedRows, isMetadata_eq h]
      split
      · exact ⟨rfl, hrest⟩
      · exact ⟨rfl, List.Forall₂.cons (Alike.object h) hrest⟩
    | text a b => exact ⟨rfl, List.Forall₂.cons (Alike.text a b) hrest⟩
    | array h => exact ⟨rfl, List.Forall₂.cons (Alike.array h) hrest⟩
    | same =>
      cases first with
      | object members =>
        rw [numberedRows, numberedRows]
        split
        · exact ⟨rfl, hrest⟩
        · exact ⟨rfl, List.Forall₂.cons (Alike.same _) hrest⟩
      | _ => exact ⟨rfl, List.Forall₂.cons (Alike.same _) hrest⟩

theorem Alike.resolveValue (h : Alike value other) : SameOutcome (resolveValue value) (resolveValue other) := by
  cases h with
  | array h =>
    obtain ⟨hnumber, hrows⟩ := numberedRows_alike h
    rw [Layout.resolveValue, Layout.resolveValue, resolveRows_eq, resolveRows_eq, readLayout, readLayout, hnumber]
    apply SameOutcome.map
    exact sameOutcome_readRows hrows _ _
  | _ => exact SameOutcome.refl _

end Alike

theorem numberedRows_of_not_metadata {rows : List Json}
    (h : ∀ members rest, rows = .object members :: rest → isMetadata members = false) : numberedRows rows = (0, rows) := by
  cases rows with
  | nil => rfl
  | cons first rest =>
    cases first with
    | object members =>
      rw [numberedRows, h members rest rfl]
      rfl
    | _ => rfl

/-- Two layouts that show the same arrays, with other texts or other members that mean nothing, give the same
keys or the same error, in the same words. Metadata only moves the rows of a layout, and so those of its
errors, down by one. -/
theorem resolveValue_presentation :
    (∀ value other, Alike value other → SameOutcome (resolveValue value) (resolveValue other) ∧
      (resolveValue value).mapError Error.message = (resolveValue other).mapError Error.message) ∧
    ∀ members rows, isMetadata members = true →
      (∀ others rest, rows = .object others :: rest → isMetadata others = false) →
      resolveValue (.array (.object members :: rows)) = (resolveValue (.array rows)).mapError Error.nextRow := by
  constructor
  · intro value other h
    exact ⟨h.resolveValue, h.resolveValue.mapError_message_eq⟩
  · intro members rows hmetadata hrows
    have hbehind : numberedRows (.object members :: rows) = (1, rows) := by rw [numberedRows, if_pos hmetadata]
    rw [resolveValue, resolveValue, resolveRows_eq, resolveRows_eq, readLayout, readLayout, hbehind,
      numberedRows_of_not_metadata hrows, Except.mapError_map]
    have hshift : (readRows 0 {} rows).mapError Error.nextRow = readRows 1 {} rows :=
      mapError_readRows rows fun n => by omega
    rw [hshift]

/-- A key of some width, and in the next row an item that is none. -/
def brokenRows (color label : String) : List Json := [
  .array [.object [("c", .string color), ("w", .string "2")], .string label],
  .array [.string label, .null]]

theorem brokenRows_presentation :
    Alike (.array (brokenRows "red" "Tab")) (.array (brokenRows "blue" "")) ∧
    SameOutcome (resolveValue (.array (brokenRows "red" "Tab"))) (resolveValue (.array (brokenRows "blue" ""))) ∧
    resolveValue (.array (brokenRows "blue" "")) = .error (.invalidElement 1 1 .null) ∧
    isMetadata [("name", .string "broken")] = true ∧
    resolveValue (.array (.object [("name", .string "broken")] :: brokenRows "blue" "")) =
      .error (.invalidElement 2 1 .null) := by
  have halike : Alike (.array (brokenRows "red" "Tab")) (.array (brokenRows "blue" "")) := by
    refine Alike.array (.cons (Alike.array (.cons (Alike.object ?_) (.cons (Alike.text _ _) .nil))) (.cons
      (Alike.array (.cons (Alike.text _ _) (.cons (Alike.same _) .nil))) .nil))
    intro m
    cases m <;> rfl
  have hmetadata : isMetadata [("name", .string "broken")] = true := by decide
  have herror : resolveValue (.array (brokenRows "blue" "")) = .error (.invalidElement 1 1 .null) := by rfl
  refine ⟨halike, (resolveValue_presentation.1 _ _ halike).1, herror, hmetadata, ?_⟩
  rw [resolveValue_presentation.2 _ _ hmetadata (by simp [brokenRows]), herror]
  rfl

end KeyboardPlate.Layout
