import KeyboardPlate.Proofs.Layout.Reading

/-!
# Layouts with further rows

Rows are read one after the other, each from the state that the rows before it leave. So what comes below
some rows has no say in their keys, nor in why they cannot be read.
-/

set_option autoImplicit false

namespace KeyboardPlate.Layout

theorem readRows_append (row : Nat) (s : State) (rows more : List Json) :
    readRows row s (rows ++ more) = do
      let (keys, t) ← readRows row s rows
      let (others, u) ← readRows (row + rows.length) t more
      return (keys ++ others, u) := by
  induction rows generalizing row s with
  | nil => exact (bind_pure _).symm
  | cons value rows ih =>
    have hrow : row + (value :: rows).length = row + 1 + rows.length := by
      rw [List.length_cons]
      omega
    rw [List.cons_append, readRows, readRows, hrow]
    simp only [ih, bind_assoc, pure_bind, List.append_assoc]

/-- The rows of a layout behind metadata, and the number of the first of them. -/
def numberedRows : List Json → Nat × List Json
  | .object members :: rest => if isMetadata members then (1, rest) else (0, .object members :: rest)
  | rows => (0, rows)

/-- The keys of a layout and the state in which its last row leaves the reader. -/
def readLayout (rows : List Json) : Except Error (List Key × State) :=
  readRows (numberedRows rows).1 {} (numberedRows rows).2

theorem resolveRows_eq (rows : List Json) : resolveRows rows = (readLayout rows).map (·.1) := by
  cases rows with
  | nil => rfl
  | cons first rest =>
    cases first with
    | object members =>
      unfold resolveRows readLayout numberedRows
      dsimp only
      split <;> rfl
    | _ => rfl

section Append
variable {rows : List Json}

/-- Metadata can only come first, so the rows behind it are found without what comes below. -/
theorem numberedRows_append (h : rows ≠ []) (more : List Json) :
    numberedRows (rows ++ more) = ((numberedRows rows).1, (numberedRows rows).2 ++ more) := by
  obtain ⟨first, rest, rfl⟩ := List.exists_cons_of_ne_nil h
  cases first with
  | object members =>
    simp only [List.cons_append, numberedRows]
    split <;> rfl
  | _ => rfl

theorem numberedRows_length (h : rows ≠ []) :
    (numberedRows rows).1 + (numberedRows rows).2.length = rows.length := by
  obtain ⟨first, rest, rfl⟩ := List.exists_cons_of_ne_nil h
  cases first with
  | object members =>
    rw [numberedRows]
    split
    · exact Nat.add_comm _ _
    · exact Nat.zero_add _
  | _ => exact Nat.zero_add _

/-- A layout is read as its upper rows are, and then its lower ones from where those leave the reader. -/
theorem readLayout_append (h : rows ≠ []) (more : List Json) :
    readLayout (rows ++ more) = do
      let (keys, t) ← readLayout rows
      let (others, u) ← readRows rows.length t more
      return (keys ++ others, u) := by
  unfold readLayout
  rw [numberedRows_append h, readRows_append, numberedRows_length h]

/-- Rows that cannot be read cannot be read above others either, for the same reason. The keys of rows
that can be read are the first keys of a layout that goes on below them. -/
theorem resolveValue_append (h : rows ≠ []) (more : List Json) :
    (∀ e, resolveValue (.array rows) = .error e → resolveValue (.array (rows ++ more)) = .error e) ∧
    ∀ keys, resolveValue (.array (rows ++ more)) = .ok keys →
      ∃ first, resolveValue (.array rows) = .ok first ∧ first <+: keys := by
  simp only [resolveValue, resolveRows_eq, readLayout_append h]
  constructor
  · intro e he
    cases hr : readLayout rows with
    | error e' =>
      rw [hr] at he
      exact he
    | ok result =>
      rw [hr] at he
      cases he
  · intro keys hk
    obtain ⟨⟨all, u⟩, hall, rfl⟩ := Except.map_eq_ok_iff.mp hk
    obtain ⟨⟨first, t⟩, hfirst, hall⟩ := Except.bind_eq_ok_iff.mp hall
    obtain ⟨⟨others, v⟩, -, hall⟩ := Except.bind_eq_ok_iff.mp hall
    cases hall
    exact ⟨first, by rw [hfirst]; rfl, List.prefix_append first others⟩

end Append

/-- Metadata, and a row that moves on between two keys and leaves a height to the next one. -/
def offsetRows (x : Json) : List Json := [
  .object [("name", .string "offset")],
  .array [.string "A", .object [("w", .string "2"), ("x", x)], .string "B", .object [("h", .string "1.5")]]]

theorem offsetRows_append :
    (resolveValue (.array (offsetRows (.bool true))) = .error (.invalidField 1 "x" (.bool true)) ∧
      resolveValue (.array (offsetRows (.bool true) ++ [.array [.string "C"]])) =
        .error (.invalidField 1 "x" (.bool true))) ∧
    ∃ keys, resolveValue (.array (offsetRows (.string "0.5") ++ [.array [.string "C"]])) = .ok keys ∧
      ∃ first, resolveValue (.array (offsetRows (.string "0.5"))) = .ok first ∧ first <+: keys := by
  constructor
  · have h : resolveValue (.array (offsetRows (.bool true))) = .error (.invalidField 1 "x" (.bool true)) := by rfl
    exact ⟨h, (resolveValue_append (by simp [offsetRows]) _).1 _ h⟩
  · obtain ⟨keys, h⟩ := Except.exists_of_isOk
      (x := resolveValue (.array (offsetRows (.string "0.5") ++ [.array [.string "C"]]))) (by decide +kernel)
    exact ⟨keys, h, (resolveValue_append (by simp [offsetRows]) _).2 keys h⟩

end KeyboardPlate.Layout
