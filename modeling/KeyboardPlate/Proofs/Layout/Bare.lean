import KeyboardPlate.Proofs.Json.Bracketed
import KeyboardPlate.Proofs.Layout.Rows

/-!
# Layouts without brackets

A text is read as it stands if it is a document, and between brackets only if it is none. The rows of a
layout without the brackets around them are no document, unless there is only one row: that one is read as a
whole layout, in which its labels are no rows.
-/

set_option autoImplicit false

namespace KeyboardPlate.Layout

open Json.Relaxed (parse? parse?_bracketed)

variable {row item : Nat} {s : State}

/-- What is wrong with a lone row, or with lone metadata, as a layout. -/
def loneRowError? : Json → Option Error
  | .object _ => some .rootNotArray
  | .array (.object members :: rest) =>
    if !isMetadata members then some (.rowNotArray 0)
    else if rest.isEmpty then none
    else some (.rowNotArray 1)
  | .array (_ :: _) => some (.rowNotArray 0)
  | _ => none

/-- What may stand in a row. -/
def IsItem (value : Json) : Prop := (∃ text, value = .string text) ∨ ∃ members, value = .object members

theorem isItem_of_readItems {values : List Json} {p : List Key × State}
    (h : readItems row item s values = .ok p) : ∀ value ∈ values, IsItem value := by
  induction values generalizing item s p with
  | nil =>
    intro value hmem
    cases hmem
  | cons value rest ih =>
    obtain ⟨q, hitem, h⟩ := Except.bind_eq_ok_iff.mp h
    obtain ⟨r, hrest, -⟩ := Except.bind_eq_ok_iff.mp h
    refine List.forall_mem_cons.mpr ⟨?_, ih hrest⟩
    cases value with
    | string text => exact .inl ⟨text, rfl⟩
    | object members => exact .inr ⟨members, rfl⟩
    | _ => cases hitem

theorem IsItem.readRows {value : Json} (h : IsItem value) (rest : List Json) :
    readRows row s (value :: rest) = .error (.rowNotArray row) := by
  obtain ⟨text, rfl⟩ | ⟨members, rfl⟩ := h
  · rfl
  · rfl

theorem readItems_object {members : List (String × Json)} {p : List Key × State}
    (h : readItems row item s [.object members] = .ok p) : p.1 = [] := by
  obtain ⟨q, hitem, h⟩ := Except.bind_eq_ok_iff.mp h
  obtain ⟨t, -, ht⟩ := Except.map_eq_ok_iff.mp hitem
  cases ht
  cases h
  rfl

/-- The items of a row as a layout of their own. -/
theorem resolveValue_items {items : List Json} {p : List Key × State}
    (h : readItems 0 0 {} items = .ok p) :
    resolveValue (.array items) = match loneRowError? (.array items) with
      | none => .ok p.1
      | some e => .error e := by
  have hitems := isItem_of_readItems h
  cases items with
  | nil =>
    cases h
    rfl
  | cons first rest =>
    obtain ⟨hfirst, hrest⟩ := List.forall_mem_cons.mp hitems
    obtain ⟨text, rfl⟩ | ⟨members, rfl⟩ := hfirst
    · rfl
    cases hmeta : isMetadata members with
    | false => simp [resolveValue, resolveRows, loneRowError?, hmeta, readRows, readRow, Except.map, bind, Except.bind]
    | true =>
      cases rest with
      | nil =>
        rw [readItems_object h]
        simp [resolveValue, resolveRows, loneRowError?, hmeta, readRows, Except.map]
      | cons second rest =>
        have hsecond : readRows 1 {} (second :: rest) = .error (.rowNotArray 1) :=
          (hrest second (by simp)).readRows rest
        simp [resolveValue, resolveRows, loneRowError?, hmeta, hsecond, Except.map]

/-- A layout of one row, as the row alone. -/
theorem resolveValue_lone {value : Json} {keys : List Key} (h : resolveValue (.array [value]) = .ok keys) :
    resolveValue value = match loneRowError? value with
      | none => .ok keys
      | some e => .error e := by
  cases value with
  | object members => rfl
  | array items =>
    obtain ⟨q, hrows, heq⟩ := Except.map_eq_ok_iff.mp h
    obtain ⟨p, hrow, hrows⟩ := Except.bind_eq_ok_iff.mp hrows
    obtain ⟨p', hitems, hrow⟩ := Except.bind_eq_ok_iff.mp hrow
    obtain ⟨t, -, hrow⟩ := Except.bind_eq_ok_iff.mp hrow
    cases hrow
    cases hrows
    rw [resolveValue_items hitems, ← heq, List.append_nil]
  | _ => cases h

/-- A text that can be read as rows between brackets has the keys of those rows, unless it is a document of
its own. Then it is a lone row or lone metadata, and is refused unless it is a row with at most metadata in it. -/
theorem resolve_bare {text : String} {value : Json} {keys : List Key}
    (h : parse? ("[" ++ text ++ "]") = some value) (hkeys : resolveValue value = .ok keys) :
    (∀ row, parse? text = some row → value = .array [row]) ∧
    resolve text = match (parse? text).bind loneRowError? with
      | none => .ok keys
      | some e => .error e := by
  have hrow : ∀ row, parse? text = some row → value = .array [row] := fun _ hrow => parse?_bracketed hrow h
  refine ⟨hrow, ?_⟩
  unfold resolve readText?
  cases htext : parse? text with
  | none =>
    rw [h]
    exact hkeys
  | some row =>
    rw [hrow row htext] at hkeys
    exact resolveValue_lone hkeys

/-- The text can be read between brackets, as a layout that has keys. -/
def bracketedOk (text : String) : Bool := (parse? ("[" ++ text ++ "]")).any fun value => (resolveValue value).isOk

theorem exists_of_bracketedOk {text : String} (h : bracketedOk text) :
    ∃ value keys, parse? ("[" ++ text ++ "]") = some value ∧ resolveValue value = .ok keys := by
  obtain ⟨value, hvalue, hok⟩ := (Option.any_eq_true _ _).mp h
  obtain ⟨keys, hkeys⟩ := Except.exists_of_isOk hok
  exact ⟨value, keys, hvalue, hkeys⟩

/-- Two rows, and one. -/
theorem resolve_bare_rows :
    (∃ keys, resolve "[\"A\"],[\"B\"]" = .ok keys) ∧ ∃ e, resolve "[\"A\"]" = .error e := by
  constructor
  · have hwhole : bracketedOk "[\"A\"],[\"B\"]" := by decide +kernel
    have halone : parse? "[\"A\"],[\"B\"]" = none := Option.isNone_iff_eq_none.mp (by decide +kernel)
    obtain ⟨value, keys, hvalue, hkeys⟩ := exists_of_bracketedOk hwhole
    have hresolve := (resolve_bare hvalue hkeys).2
    rw [halone] at hresolve
    exact ⟨keys, hresolve⟩
  · have hwhole : bracketedOk "[\"A\"]" := by decide +kernel
    have hlone : ((parse? "[\"A\"]").bind loneRowError?).isSome := by decide +kernel
    obtain ⟨value, keys, hvalue, hkeys⟩ := exists_of_bracketedOk hwhole
    obtain ⟨e, he⟩ := Option.isSome_iff_exists.mp hlone
    have hresolve := (resolve_bare hvalue hkeys).2
    rw [he] at hresolve
    exact ⟨e, hresolve⟩

/-- The one row of a layout is refused where the layout is not. -/
theorem not_forall_bare_rows : ¬∀ (text : String) (value : Json) (keys : List Key),
    parse? ("[" ++ text ++ "]") = some value → resolveValue value = .ok keys → resolve text = .ok keys := by
  intro hall
  have hwhole : bracketedOk "[\"A\"]" := by decide +kernel
  have hrefused : (resolve "[\"A\"]").isOk = false := by decide +kernel
  obtain ⟨value, keys, hvalue, hkeys⟩ := exists_of_bracketedOk hwhole
  rw [hall _ value keys hvalue hkeys] at hrefused
  cases hrefused

end KeyboardPlate.Layout
