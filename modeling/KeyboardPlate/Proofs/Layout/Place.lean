import KeyboardPlate.Proofs.Layout.Rows

/-!
# Places in a layout

What follows a place of a layout is read from the state that the rows above it and the items to its left
leave behind. Where rows and items are counted from only shows in the numbers of an error.
-/

set_option autoImplicit false

namespace KeyboardPlate.Layout

/-! ## The numbers of an error -/

/-- The error with other numbers for its row and its item. -/
def Error.renumber (f g : Nat → Nat) : Error → Error
  | notReadable => notReadable
  | rootNotArray => rootNotArray
  | rowNotArray row => rowNotArray (f row)
  | invalidElement row item found => invalidElement (f row) (g item) found
  | invalidField row field value => invalidField (f row) field value
  | outOfRange row item => outOfRange (f row) (g item)

/-- The error without the number of its item. -/
def Error.unplaced (e : Error) : Error := e.renumber id fun _ => 0

/-- The error one row further down. -/
def Error.nextRow (e : Error) : Error := e.renumber (· + 1) id

section Renumber
variable {f g : Nat → Nat} {row item : Nat} {s : State}

theorem Error.unplaced_renumber (e : Error) : (e.renumber id g).unplaced = e.unplaced := by
  cases e <;> rfl

theorem mapError_label : (label row item s).mapError (Error.renumber f g) = label (f row) (g item) s := by
  unfold label
  cases s.cursor.x.add? s.next.width with
  | none => rfl
  | some x =>
    dsimp only
    split
    · rfl
    · split
      · rfl
      · rfl

theorem Modifier.mapError_step (members : List (String × Json)) (m : Modifier) :
    (m.step row members s).mapError (Error.renumber f g) = m.step (f row) members s := by
  unfold step
  cases Json.member? m.name members with
  | none => rfl
  | some value =>
    dsimp only
    cases m.effect? value s with
    | none => rfl
    | some t => rfl

theorem mapError_modify (members : List (String × Json)) :
    (modify row members s).mapError (Error.renumber f g) = modify (f row) members s := by
  unfold modify
  rw [Except.mapError_foldlM]
  congr 1
  funext t m
  exact m.mapError_step members

theorem mapError_readItem (value : Json) :
    (readItem row item s value).mapError (Error.renumber f g) = readItem (f row) (g item) s value := by
  cases value with
  | string text => exact mapError_label
  | object members => rw [readItem, readItem, Except.mapError_map, mapError_modify]
  | _ => rfl

theorem mapError_endRow : (endRow row item s).mapError (Error.renumber f g) = endRow (f row) (g item) s := by
  unfold endRow
  cases s.cursor.y.add? .one with
  | none => rfl
  | some y => rfl

theorem mapError_readItems (values : List Json) (hg : ∀ n, g (item + n) = g item + n) :
    (readItems row item s values).mapError (Error.renumber f g) = readItems (f row) (g item) s values := by
  induction values generalizing item s with
  | nil => rfl
  | cons value rest ih =>
    have hnext : ∀ n, g (item + 1 + n) = g (item + 1) + n := by
      intro n
      rw [Nat.add_assoc, hg, hg]
      omega
    rw [readItems, readItems, Except.mapError_bind, mapError_readItem, ← hg 1]
    apply bind_congr
    rintro ⟨keys, t⟩
    dsimp only
    rw [Except.mapError_bind, ih hnext]
    rfl

theorem mapError_readRow (value : Json) :
    (readRow row s value).mapError (Error.renumber f id) = readRow (f row) s value := by
  cases value with
  | array items =>
    rw [readRow, readRow, Except.mapError_bind, mapError_readItems items fun _ => rfl]
    apply bind_congr
    rintro ⟨keys, t⟩
    dsimp only
    rw [Except.mapError_bind, mapError_endRow]
    rfl
  | _ => rfl

theorem mapError_readRows (rows : List Json) (hf : ∀ n, f (row + n) = f row + n) :
    (readRows row s rows).mapError (Error.renumber f id) = readRows (f row) s rows := by
  induction rows generalizing row s with
  | nil => rfl
  | cons value rest ih =>
    have hnext : ∀ n, f (row + 1 + n) = f (row + 1) + n := by
      intro n
      rw [Nat.add_assoc, hf, hf]
      omega
    rw [readRows, readRows, Except.mapError_bind, mapError_readRow, ← hf 1]
    apply bind_congr
    rintro ⟨keys, t⟩
    dsimp only
    rw [Except.mapError_bind, ih hnext]
    rfl

theorem unplaced_readItems (row i j : Nat) (s : State) (values : List Json) :
    (readItems row i s values).mapError Error.unplaced = (readItems row j s values).mapError Error.unplaced := by
  have hbase : ∀ k, (readItems row k s values).mapError Error.unplaced =
      (readItems row 0 s values).mapError Error.unplaced := by
    intro k
    have hshift : (readItems row 0 s values).mapError (Error.renumber id (· + k)) =
        readItems row (0 + k) s values := mapError_readItems values fun n => by omega
    rw [Nat.zero_add] at hshift
    rw [← hshift, Except.mapError_mapError]
    congr 1
    funext e
    exact e.unplaced_renumber
  rw [hbase i, hbase j]

theorem unplaced_endRow (row i j : Nat) (s : State) :
    (endRow row i s).mapError Error.unplaced = (endRow row j s).mapError Error.unplaced := by
  unfold Error.unplaced
  rw [mapError_endRow, mapError_endRow]

end Renumber

/-! ## Reading up to a place and on from it -/

/-- What is read of a layout from an item of a row on: the items on the right, the end of the row and the
rows below. -/
def readOn (row item : Nat) (s : State) (right below : List Json) : Except Error (List Key) := do
  let (keys, t) ← readItems row item s right
  let u ← endRow row (item + right.length) t
  let (rest, _) ← readRows (row + 1) u below
  return keys ++ rest

theorem readItems_append (row item : Nat) (s : State) (left right : List Json) :
    readItems row item s (left ++ right) = do
      let (keys, t) ← readItems row item s left
      let (more, u) ← readItems row (item + left.length) t right
      return (keys ++ more, u) := by
  induction left generalizing item s with
  | nil => exact (bind_pure _).symm
  | cons value left ih =>
    have hitem : item + (value :: left).length = item + 1 + left.length := by
      rw [List.length_cons]
      omega
    rw [List.cons_append, readItems, readItems, hitem]
    simp only [ih, bind_assoc, pure_bind, List.append_assoc]

theorem readOn_append (row item : Nat) (s : State) (left right below : List Json) :
    readOn row item s (left ++ right) below = do
      let (keys, t) ← readItems row item s left
      return keys ++ (← readOn row (item + left.length) t right below) := by
  have hlength : item + (left ++ right).length = item + left.length + right.length := by
    rw [List.length_append]
    omega
  unfold readOn
  rw [readItems_append, hlength]
  simp only [bind_assoc, pure_bind, List.append_assoc]

theorem unplaced_readOn (row i j : Nat) (s : State) (right below : List Json) :
    (readOn row i s right below).mapError Error.unplaced =
      (readOn row j s right below).mapError Error.unplaced := by
  unfold readOn
  rw [Except.mapError_bind, Except.mapError_bind, unplaced_readItems row i j]
  apply bind_congr
  rintro ⟨keys, t⟩
  dsimp only
  rw [Except.mapError_bind, Except.mapError_bind, unplaced_endRow row _ (j + right.length)]

theorem readOn_cons_eq_ok {row item : Nat} {s : State} {value : Json} {right below : List Json} {keys : List Key} :
    readOn row item s (value :: right) below = .ok keys ↔
      ∃ own t rest, readItem row item s value = .ok (own, t) ∧ readOn row (item + 1) t right below = .ok rest ∧
        keys = own ++ rest := by
  have hcons := readOn_append row item s [value] right below
  simp only [readItems, bind_assoc, Except.ok_bind, pure_bind, List.append_nil] at hcons
  rw [List.cons_append, List.nil_append] at hcons
  rw [hcons, Except.bind_eq_ok_iff]
  constructor
  · rintro ⟨⟨own, t⟩, hown, h⟩
    obtain ⟨rest, hrest, he⟩ := Except.bind_eq_ok_iff.mp h
    cases he
    exact ⟨own, t, rest, hown, hrest, rfl⟩
  · rintro ⟨own, t, rest, hown, hrest, rfl⟩
    exact ⟨(own, t), hown, Except.bind_eq_ok_iff.mpr ⟨rest, hrest, rfl⟩⟩

theorem readOn_eq_ok_iff (row i j : Nat) (s : State) (right below : List Json) (keys : List Key) :
    readOn row i s right below = .ok keys ↔ readOn row j s right below = .ok keys := by
  rw [← Except.mapError_eq_ok_iff (f := Error.unplaced), unplaced_readOn row i j, Except.mapError_eq_ok_iff]

/-- A place in a layout: the rows above it, and the items to its left. -/
structure Place where
  above : List Json
  left : List Json

namespace Place

/-- The layout in which these items follow the place in its row, and these rows its row. -/
def layout (p : Place) (right below : List Json) : Json :=
  .array (p.above ++ .array (p.left ++ right) :: below)

/-- The place behind one more item. -/
def push (p : Place) (value : Json) : Place := { p with left := p.left ++ [value] }

/-- The start of the next row. -/
def nextRow (p : Place) : Place := ⟨p.above ++ [.array p.left], []⟩

/-- The keys before a place, and the state in which they leave the reader. -/
def read (p : Place) : Except Error (List Key × State) := do
  let (keys, s) ← readLayout p.above
  let (more, t) ← readItems p.above.length 0 s p.left
  return (keys ++ more, t)

end Place

-- The row of items keeps the rows below it from being taken for metadata, even with nothing above it.
theorem readLayout_append_row (above items below : List Json) :
    readLayout (above ++ .array items :: below) = do
      let (keys, t) ← readLayout above
      let (others, u) ← readRows above.length t (.array items :: below)
      return (keys ++ others, u) := by
  cases above with
  | nil => exact (bind_pure _).symm
  | cons first rest => exact readLayout_append (List.cons_ne_nil first rest) _

namespace Place
variable (p : Place)

theorem resolveValue_layout (right below : List Json) :
    resolveValue (p.layout right below) = do
      let (first, s) ← p.read
      return first ++ (← readOn p.above.length p.left.length s right below) := by
  have hlength : (p.left ++ right).length = 0 + p.left.length + right.length := by
    rw [List.length_append, Nat.zero_add]
  rw [layout, resolveValue, resolveRows_eq, readLayout_append_row, Except.map_eq_bind]
  unfold read readOn
  simp only [readRows, readRow, readItems_append, hlength, Nat.zero_add, bind_assoc, pure_bind, List.append_assoc]

theorem read_push (value : Json) : (p.push value).read = do
    let (keys, s) ← p.read
    let (more, t) ← readItem p.above.length p.left.length s value
    return (keys ++ more, t) := by
  unfold read push
  simp only [readItems_append, readItems, Nat.zero_add, bind_assoc, pure_bind, Except.ok_bind, List.append_assoc,
    List.append_nil]

theorem read_nextRow : p.nextRow.read = do
    let (keys, s) ← p.read
    return (keys, ← endRow p.above.length p.left.length s) := by
  unfold read nextRow
  simp only [readLayout_append_row, readRows, readRow, readItems, bind_assoc, pure_bind, Except.ok_bind,
    List.append_nil]

end Place

theorem resolveValue_layout_eq_ok {p : Place} {right below : List Json} {keys : List Key} :
    resolveValue (p.layout right below) = .ok keys ↔
      ∃ first s rest, p.read = .ok (first, s) ∧
        readOn p.above.length p.left.length s right below = .ok rest ∧ keys = first ++ rest := by
  rw [Place.resolveValue_layout, Except.bind_eq_ok_iff]
  constructor
  · rintro ⟨⟨first, s⟩, hfirst, h⟩
    obtain ⟨rest, hrest, he⟩ := Except.bind_eq_ok_iff.mp h
    cases he
    exact ⟨first, s, rest, hfirst, hrest, rfl⟩
  · rintro ⟨first, s, rest, hfirst, hrest, rfl⟩
    exact ⟨(first, s), hfirst, Except.bind_eq_ok_iff.mpr ⟨rest, hrest, rfl⟩⟩

end KeyboardPlate.Layout
