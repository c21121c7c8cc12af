import KeyboardPlate.Proofs.Decimal.Angle
import KeyboardPlate.Proofs.Layout.Rows

/-!
# Which layouts are read

What is wrong with a layout can be listed without reading it: rows that are no arrays, items that are neither
labels nor objects, and modifiers whose value has not their form. If no number is too large and the layout not
too long, the cursor never leaves the decimal range. Then a layout is read just when nothing is wrong with it,
and otherwise refused for the first fault.
-/

set_option autoImplicit false

namespace KeyboardPlate

open Decimal

namespace Json

/-- The items of an array. -/
def items : Json → List Json
  | array items => items
  | _ => []

/-- The members of an object. -/
def members : Json → List (String × Json)
  | object members => members
  | _ => []

end Json

namespace Layout

variable {β γ : Type} {row item : Nat} {s t : State}

/-! ## What can be wrong with a layout -/

namespace Modifier

/-- Whether the modifier is a truth value. -/
def isFlag : Modifier → Bool
  | decal | shiftStabilizers | skipOrientationFix => true
  | _ => false

/-- A value of the modifier's form: a truth value or a number, or else a number or text that stands for a
decimal. -/
def Accepts (m : Modifier) (value : Json) : Prop :=
  if m.isFlag then (∃ b, value = .bool b) ∨ ∃ n, value = .number n
  else (∃ n, value = .number n ∧ (Decimal.parse? (Json.numberText n)).isSome = true) ∨
    ∃ s, value = .string s ∧ (Decimal.parse? s).isSome = true

/-- Whether a value has the modifier's form. -/
def reads (m : Modifier) (value : Json) : Bool :=
  if m.isFlag then (flagOf? value).isSome else (decimalOf? value).isSome

/-- What is wrong with the member of an object that gives the modifier. -/
def fault? (row : Nat) (members : List (String × Json)) (m : Modifier) : Option Error :=
  match Json.member? m.name members with
  | none => none
  | some value => if m.reads value then none else some (.invalidField row m.name value)

end Modifier

/-- What is wrong with an item of a row, modifiers in the order in which they take effect. -/
def itemFaults (row item : Nat) : Json → List Error
  | .string _ => []
  | .object members => Modifier.all.filterMap (Modifier.fault? row members)
  | other => [.invalidElement row item other]

/-- What is wrong with the items of a row from the one with number `item` on. -/
def itemsFaults (row item : Nat) : List Json → List Error
  | [] => []
  | value :: rest => itemFaults row item value ++ itemsFaults row (item + 1) rest

def rowFaults (row : Nat) : Json → List Error
  | .array items => itemsFaults row 0 items
  | _ => [.rowNotArray row]

/-- What is wrong with the rows from the one with number `row` on. -/
def rowsFaults (row : Nat) : List Json → List Error
  | [] => []
  | value :: rest => rowFaults row value ++ rowsFaults (row + 1) rest

/-- What is wrong with a layout, in the order of the document. -/
def faults : Json → List Error
  | .array rows => rowsFaults (numberedRows rows).1 (numberedRows rows).2
  | _ => [.rootNotArray]

/-- A label, or an object whose modifiers all have values of their form. -/
def ItemWellFormed (item : Json) : Prop :=
  (∃ s, item = .string s) ∨ ∃ members, item = .object members ∧
    ∀ m value, Json.member? (Modifier.name m) members = some value → m.Accepts value

def RowWellFormed (row : Json) : Prop := ∃ items, row = .array items ∧ ∀ item ∈ items, ItemWellFormed item

/-- An array of rows, which metadata may precede. -/
def WellFormed (value : Json) : Prop :=
  ∃ rows, value = .array rows ∧ ∀ row ∈ (numberedRows rows).2, RowWellFormed row

theorem Modifier.reads_iff (m : Modifier) (value : Json) : m.reads value = true ↔ m.Accepts value := by
  unfold reads Accepts
  cases m.isFlag with
  | true =>
    cases value with
    | bool b => simp [flagOf?]
    | number n => simp [flagOf?]
    | _ => simp [flagOf?]
  | false =>
    cases value with
    | string s => simp [decimalOf?]
    | number n => simp [decimalOf?]
    | _ => simp [decimalOf?]

theorem itemFaults_eq_nil_iff (row item : Nat) (value : Json) :
    itemFaults row item value = [] ↔ ItemWellFormed value := by
  unfold ItemWellFormed
  cases value with
  | string s => simp [itemFaults]
  | object members =>
    have hfault : ∀ m : Modifier, m.fault? row members = none ↔
        ∀ v, Json.member? m.name members = some v → m.Accepts v := by
      intro m
      unfold Modifier.fault?
      cases Json.member? m.name members with
      | none => simp
      | some v => simp [Modifier.reads_iff]
    simp only [itemFaults, List.filterMap_eq_nil_iff, hfault, reduceCtorEq, exists_false, false_or]
    constructor
    · intro h
      exact ⟨members, rfl, fun m => h m (Modifier.mem_all m)⟩
    · rintro ⟨_, hmembers, h⟩
      cases hmembers
      exact fun m _ => h m
  | _ => simp [itemFaults]

theorem itemsFaults_eq_nil_iff (row item : Nat) (values : List Json) :
    itemsFaults row item values = [] ↔ ∀ value ∈ values, ItemWellFormed value := by
  induction values generalizing item with
  | nil => simp [itemsFaults]
  | cons value rest ih =>
    rw [itemsFaults, List.append_eq_nil_iff, itemFaults_eq_nil_iff, ih, List.forall_mem_cons]

theorem rowFaults_eq_nil_iff (row : Nat) (value : Json) : rowFaults row value = [] ↔ RowWellFormed value := by
  unfold RowWellFormed
  cases value with
  | array items => simp [rowFaults, itemsFaults_eq_nil_iff]
  | _ => simp [rowFaults]

theorem rowsFaults_eq_nil_iff (row : Nat) (values : List Json) :
    rowsFaults row values = [] ↔ ∀ value ∈ values, RowWellFormed value := by
  induction values generalizing row with
  | nil => simp [rowsFaults]
  | cons value rest ih =>
    rw [rowsFaults, List.append_eq_nil_iff, rowFaults_eq_nil_iff, ih, List.forall_mem_cons]

theorem faults_eq_nil_iff (value : Json) : faults value = [] ↔ WellFormed value := by
  unfold WellFormed
  cases value with
  | array rows => simp [faults, rowsFaults_eq_nil_iff]
  | _ => simp [faults]

/-! ## Steps decided by a list of faults -/

/-- The step fails for the first of the faults, and has a result if there are none. -/
def DecidedBy (fs : List Error) (P : β → Prop) (x : Except Error β) : Prop :=
  match fs with
  | [] => ∃ b, x = .ok b ∧ P b
  | e :: _ => x = .error e

theorem DecidedBy.bind {fs gs : List Error} {P : β → Prop} {Q : γ → Prop} {x : Except Error β}
    {f : β → Except Error γ} (hx : DecidedBy fs P x) (hf : ∀ b, P b → DecidedBy gs Q (f b)) :
    DecidedBy (fs ++ gs) Q (x >>= f) := by
  cases fs with
  | nil =>
    obtain ⟨b, rfl, hb⟩ := hx
    exact hf b hb
  | cons e fs =>
    change x = .error e at hx
    rw [hx]
    rfl

theorem DecidedBy.map {fs : List Error} {P : β → Prop} {Q : γ → Prop} {x : Except Error β} {f : β → γ}
    (hx : DecidedBy fs P x) (hf : ∀ b, P b → Q (f b)) : DecidedBy fs Q (x.map f) := by
  cases fs with
  | nil =>
    obtain ⟨b, rfl, hb⟩ := hx
    exact ⟨f b, rfl, hf b hb⟩
  | cons e fs =>
    change x = .error e at hx
    rw [hx]
    rfl

theorem DecidedBy.mono {fs : List Error} {P Q : β → Prop} {x : Except Error β} (hx : DecidedBy fs P x)
    (h : ∀ b, P b → Q b) : DecidedBy fs Q x := by
  cases fs with
  | nil =>
    obtain ⟨b, rfl, hb⟩ := hx
    exact ⟨b, rfl, h b hb⟩
  | cons e fs => exact hx

theorem decidedBy_pure {P : β → Prop} {b : β} (h : P b) : DecidedBy [] P (.ok b) := ⟨b, rfl, h⟩

/-! ## A bound on the cursor -/

/-- The largest magnitude that a number of a layout is expected to have. -/
abbrev million : Nat := 1000000

/-- How far the cursor may get: more than a long layout can move it, and much less than what has no decimal. -/
abbrev reach : Nat := 100000000000000000000000000

/-- The cursor is at most `n` away from the origin. What was set for the key is of moderate size. -/
structure Bounded (n : Nat) (s : State) : Prop where
  x : s.cursor.x.Within n
  y : s.cursor.y.Within n
  rotationX : s.cursor.rotationX.Within million
  rotationY : s.cursor.rotationY.Within million
  clusterX : s.cursor.clusterX.Within million
  clusterY : s.cursor.clusterY.Within million
  width : s.next.width.Within million
  height : s.next.height.Within million
  million_le : million ≤ n

theorem bounded_start : Bounded million {} := by
  constructor <;> decide

theorem Bounded.mono {n k : Nat} (h : Bounded n s) (hk : n ≤ k) : Bounded k s :=
  { h with x := h.x.mono hk, y := h.y.mono hk, million_le := h.million_le.trans hk }

/-- No readable number among the members is too large. -/
def MembersModerate (members : List (String × Json)) : Prop :=
  ∀ m ∈ Modifier.all, m.isFlag = false → ∀ value ∈ Json.member? m.name members, ∀ d ∈ decimalOf? value, d.Within million

/-- At most a million rows of at most a million items. -/
def ModeratelyLong (value : Json) : Prop :=
  value.items.length ≤ million ∧ ∀ row ∈ value.items, row.items.length ≤ million

/-- No readable number in a row is too large. -/
def ModeratelySized (value : Json) : Prop :=
  ∀ row ∈ value.items, ∀ item ∈ row.items, MembersModerate item.members

instance (members : List (String × Json)) : Decidable (MembersModerate members) :=
  inferInstanceAs (Decidable (∀ m ∈ Modifier.all, m.isFlag = false →
    ∀ value ∈ Json.member? m.name members, ∀ d ∈ decimalOf? value, d.Within million))

instance (value : Json) : Decidable (ModeratelyLong value) :=
  inferInstanceAs (Decidable (value.items.length ≤ million ∧ ∀ row ∈ value.items, row.items.length ≤ million))

instance (value : Json) : Decidable (ModeratelySized value) :=
  inferInstanceAs (Decidable (∀ row ∈ value.items, ∀ item ∈ row.items, MembersModerate item.members))

theorem readable_or_none {r : Option β} {f : β → Option State} {P : State → Prop}
    (h : ∀ b ∈ r, ∃ t, f b = some t ∧ P t) :
    if r.isSome then ∃ t, (r >>= f) = some t ∧ P t else (r >>= f) = none := by
  cases r with
  | none => rfl
  | some b => exact h b rfl

theorem Bounded.effect? {n : Nat} (h : Bounded n s) (hn : n + million < mantissaLimit) {m : Modifier} {value : Json}
    (hvalue : m.isFlag = false → ∀ d ∈ decimalOf? value, d.Within million) :
    if m.reads value then ∃ t, m.effect? value s = some t ∧ Bounded (n + million) t
    else m.effect? value s = none := by
  have hstay : Bounded (n + million) s := h.mono (Nat.le_add_right n million)
  have hlow : million ≤ n + million := Nat.le_add_left million n
  cases m with
  | angle => exact readable_or_none fun d _ => ⟨_, rfl, { hstay with }⟩
  | rotationX =>
    refine readable_or_none fun d hd => ⟨_, rfl, ?_⟩
    have hd' := hvalue rfl d hd
    exact { hstay with x := hd'.mono hlow, y := h.clusterY.mono hlow, rotationX := hd', clusterX := hd' }
  | rotationY =>
    refine readable_or_none fun d hd => ⟨_, rfl, ?_⟩
    have hd' := hvalue rfl d hd
    exact { hstay with x := h.clusterX.mono hlow, y := hd'.mono hlow, rotationY := hd', clusterY := hd' }
  | width => exact readable_or_none fun d hd => ⟨_, rfl, { hstay with width := hvalue rfl d hd }⟩
  | height => exact readable_or_none fun d hd => ⟨_, rfl, { hstay with height := hvalue rfl d hd }⟩
  | right =>
    refine readable_or_none fun d hd => ?_
    obtain ⟨x, hx, hx'⟩ := h.x.add? (hvalue rfl d hd) hn
    rw [hx]
    exact ⟨_, rfl, { hstay with x := hx' }⟩
  | down =>
    refine readable_or_none fun d hd => ?_
    obtain ⟨y, hy, hy'⟩ := h.y.add? (hvalue rfl d hd) hn
    rw [hy]
    exact ⟨_, rfl, { hstay with y := hy' }⟩
  | _ => exact readable_or_none fun b _ => ⟨_, rfl, { hstay with }⟩

/-! ## Reading moves the cursor by little -/

theorem Bounded.step {n : Nat} (h : Bounded n s) (hn : n + million < mantissaLimit)
    {members : List (String × Json)} (hmembers : MembersModerate members) (m : Modifier) :
    DecidedBy (m.fault? row members).toList (Bounded (n + million)) (m.step row members s) := by
  unfold Modifier.fault? Modifier.step
  cases hm : Json.member? m.name members with
  | none => exact decidedBy_pure (h.mono (Nat.le_add_right n million))
  | some value =>
    have heffect := h.effect? hn fun hflag => hmembers m (Modifier.mem_all m) hflag value hm
    dsimp only
    cases hreads : m.reads value with
    | true =>
      rw [if_pos hreads] at heffect
      obtain ⟨t, ht, hbounded⟩ := heffect
      rw [ht]
      exact decidedBy_pure hbounded
    | false =>
      rw [if_neg (Bool.eq_false_iff.mp hreads)] at heffect
      rw [heffect]
      rfl

theorem Bounded.modify {n : Nat} (h : Bounded n s) {members : List (String × Json)}
    (hmembers : MembersModerate members) (ms : List Modifier) (hn : n + million * ms.length < mantissaLimit) :
    DecidedBy (ms.filterMap (Modifier.fault? row members)) (Bounded (n + million * ms.length))
      (ms.foldlM (Modifier.step row members) s) := by
  induction ms generalizing n s with
  | nil => exact decidedBy_pure h
  | cons m ms ih =>
    have hsplit : n + million * (m :: ms).length = n + million + million * ms.length := by
      rw [List.length_cons, Nat.mul_succ]
      omega
    have hfaults : (m :: ms).filterMap (Modifier.fault? row members) =
        (m.fault? row members).toList ++ ms.filterMap (Modifier.fault? row members) := by
      cases hm : m.fault? row members with
      | none => simp [hm]
      | some e => simp [hm]
    rw [hsplit] at hn ⊢
    rw [hfaults, List.foldlM_cons]
    apply (h.step (by omega) hmembers m).bind
    intro t ht
    exact ih ht hn

theorem reach_lt : 57 * (reach + million) < mantissaLimit := by decide +kernel

theorem Bounded.label {n : Nat} (h : Bounded n s) (hn : n ≤ reach) :
    DecidedBy [] (fun r => Bounded (n + million) r.2) (label row item s) := by
  have hrange : 57 * (n + million) < mantissaLimit :=
    Nat.lt_of_le_of_lt (Nat.mul_le_mul_left 57 (Nat.add_le_add_right hn million)) reach_lt
  obtain ⟨x, hx, hx'⟩ := h.x.add? h.width (Nat.lt_of_le_of_lt (Nat.le_mul_of_pos_left _ (by decide)) hrange)
  have hafter : Bounded (n + million) { cursor := { s.cursor with x := x }, next := {} } := {
    h.mono (Nat.le_add_right n million) with
    x := hx'
    width := (by decide : Decimal.one.Within million)
    height := (by decide : Decimal.one.Within million) }
  obtain ⟨⟨cx, cy⟩, hcenter, -⟩ := Placement.exists_center? (p := s.placement) (m := million) h.x h.y
    (h.width.mono (by decide)) (h.height.mono (by decide)) (h.rotationX.mono h.million_le)
    (h.rotationY.mono h.million_le) hrange
  unfold Layout.label
  rw [hx]
  dsimp only
  split
  · exact decidedBy_pure hafter
  · split
    · exact decidedBy_pure hafter
    · rename_i e he
      unfold Placement.toKey at he
      split at he
      · cases he
      · rename_i hnone
        rw [hcenter] at hnone
        cases hnone

/-- What one item adds to the bound at most: one step for each modifier. -/
abbrev stride : Nat := million * 14

theorem Bounded.readItem {n : Nat} (h : Bounded n s) {value : Json} (hvalue : MembersModerate value.members)
    (hn : n + stride ≤ reach) :
    DecidedBy (itemFaults row item value) (fun r => Bounded (n + stride) r.2) (readItem row item s value) := by
  have hlimit : n + stride < mantissaLimit := Nat.lt_of_le_of_lt hn (by decide +kernel)
  cases value with
  | string text =>
    apply (h.label (Nat.le_of_add_right_le hn)).mono
    intro r hr
    exact hr.mono (Nat.add_le_add_left (by decide) n)
  | object members =>
    apply (h.modify hvalue Modifier.all hlimit).map
    intro t ht
    exact ht
  | _ => rfl

theorem Bounded.readItems {n : Nat} (h : Bounded n s) {values : List Json}
    (hvalues : ∀ value ∈ values, MembersModerate value.members) (hn : n + stride * values.length ≤ reach) :
    DecidedBy (itemsFaults row item values) (fun r => Bounded (n + stride * values.length) r.2)
      (readItems row item s values) := by
  induction values generalizing n s item with
  | nil => exact decidedBy_pure h
  | cons value rest ih =>
    have hsplit : n + stride * (value :: rest).length = n + stride + stride * rest.length := by
      rw [List.length_cons, Nat.mul_succ]
      omega
    rw [hsplit] at hn ⊢
    obtain ⟨hvalue, hrest⟩ := List.forall_mem_cons.mp hvalues
    rw [Layout.readItems, itemsFaults]
    apply (h.readItem hvalue (Nat.le_of_add_right_le hn)).bind
    intro r hr
    rw [← List.append_nil (itemsFaults row (item + 1) rest)]
    apply (ih hr hrest hn).bind
    intro r' hr'
    exact decidedBy_pure hr'

theorem Bounded.endRow {n : Nat} (h : Bounded n s) (hn : n + 1 ≤ reach) :
    DecidedBy [] (Bounded (n + 1)) (endRow row item s) := by
  have hlimit : n + 1 < mantissaLimit := Nat.lt_of_le_of_lt hn (by decide +kernel)
  obtain ⟨y, hy, hy'⟩ := h.y.add? (by decide : Decimal.one.Within 1) hlimit
  have hstay : Bounded (n + 1) s := h.mono (Nat.le_succ n)
  unfold Layout.endRow
  rw [hy]
  exact decidedBy_pure { hstay with x := h.rotationX.mono hstay.million_le, y := hy' }

/-- What one row adds to the bound at most. -/
abbrev rowStride : Nat := stride * million + 1

theorem Bounded.readRow {n : Nat} (h : Bounded n s) {value : Json} (hlength : value.items.length ≤ million)
    (hvalues : ∀ item ∈ value.items, MembersModerate item.members) (hn : n + rowStride ≤ reach) :
    DecidedBy (rowFaults row value) (fun r => Bounded (n + rowStride) r.2) (readRow row s value) := by
  cases value with
  | array items =>
    have hstride : n + stride * items.length ≤ n + stride * million :=
      Nat.add_le_add_left (Nat.mul_le_mul_left stride hlength) n
    rw [rowFaults, ← List.append_nil (itemsFaults row 0 items)]
    apply (h.readItems hvalues (hstride.trans (Nat.le_of_succ_le hn))).bind
    intro r hr
    apply ((hr.mono hstride).endRow hn).bind
    intro t ht
    exact decidedBy_pure ht
  | _ => rfl

theorem Bounded.readRows {n : Nat} (h : Bounded n s) {values : List Json}
    (hlength : ∀ row ∈ values, row.items.length ≤ million)
    (hvalues : ∀ row ∈ values, ∀ item ∈ row.items, MembersModerate item.members)
    (hn : n + rowStride * values.length ≤ reach) :
    DecidedBy (rowsFaults row values) (fun _ => True) (readRows row s values) := by
  induction values generalizing n s row with
  | nil => exact decidedBy_pure trivial
  | cons value rest ih =>
    have hsplit : n + rowStride * (value :: rest).length = n + rowStride + rowStride * rest.length := by
      rw [List.length_cons, Nat.mul_succ]
      omega
    rw [hsplit] at hn
    obtain ⟨hfirst, hothers⟩ := List.forall_mem_cons.mp hlength
    obtain ⟨hvalue, hrest⟩ := List.forall_mem_cons.mp hvalues
    rw [Layout.readRows, rowsFaults]
    apply (h.readRow hfirst hvalue (Nat.le_of_add_right_le hn)).bind
    intro r hr
    rw [← List.append_nil (rowsFaults (row + 1) rest)]
    apply (ih hr hothers hrest hn).bind
    intro r' _
    exact decidedBy_pure trivial

/-! ## Layouts -/

theorem numberedRows_sublist (rows : List Json) : (numberedRows rows).2.Sublist rows := by
  cases rows with
  | nil => exact .refl []
  | cons first rest =>
    cases first with
    | object members =>
      rw [numberedRows]
      split
      · exact List.sublist_cons_self _ rest
      · exact .refl _
    | _ => exact .refl _

theorem decidedBy_faults {value : Json} (hlong : ModeratelyLong value) (hsized : ModeratelySized value) :
    DecidedBy (faults value) (fun _ => True) (resolveValue value) := by
  cases value with
  | array rows =>
    have hsub := numberedRows_sublist rows
    have hcount : million + rowStride * (numberedRows rows).2.length ≤ reach := by
      calc million + rowStride * (numberedRows rows).2.length
          ≤ million + rowStride * million :=
            Nat.add_le_add_left (Nat.mul_le_mul_left rowStride (hsub.length_le.trans hlong.1)) million
        _ ≤ reach := by decide +kernel
    rw [resolveValue, resolveRows_eq]
    refine (bounded_start.readRows ?_ ?_ hcount).map fun _ _ => trivial
    · intro row hrow
      exact hlong.2 row (hsub.subset hrow)
    · intro row hrow
      exact hsized row (hsub.subset hrow)
  | _ => rfl

def Error.isOutOfRange : Error → Bool
  | .outOfRange .. => true
  | _ => false

theorem isOutOfRange_of_mem_itemFaults {value : Json} {e : Error} (he : e ∈ itemFaults row item value) :
    e.isOutOfRange = false := by
  cases value with
  | string text => cases he
  | object members =>
    obtain ⟨m, -, hm⟩ := List.mem_filterMap.mp he
    unfold Modifier.fault? at hm
    split at hm
    · cases hm
    · split at hm
      · cases hm
      · cases hm
        rfl
  | _ =>
    rw [List.mem_singleton.mp he]
    rfl

theorem isOutOfRange_of_mem_itemsFaults {values : List Json} {e : Error}
    (he : e ∈ itemsFaults row item values) : e.isOutOfRange = false := by
  induction values generalizing item with
  | nil => cases he
  | cons value rest ih =>
    rcases List.mem_append.mp he with he | he
    · exact isOutOfRange_of_mem_itemFaults he
    · exact ih he

theorem isOutOfRange_of_mem_rowsFaults {values : List Json} {e : Error} (he : e ∈ rowsFaults row values) :
    e.isOutOfRange = false := by
  induction values generalizing row with
  | nil => cases he
  | cons value rest ih =>
    rcases List.mem_append.mp he with he | he
    · cases value with
      | array items => exact isOutOfRange_of_mem_itemsFaults he
      | _ =>
        rw [List.mem_singleton.mp he]
        rfl
    · exact ih he

theorem isOutOfRange_of_mem_faults {value : Json} {e : Error} (he : e ∈ faults value) : e.isOutOfRange = false := by
  cases value with
  | array rows => exact isOutOfRange_of_mem_rowsFaults he
  | _ =>
    rw [List.mem_singleton.mp he]
    rfl

/-- Without large numbers, and in moderate length, a layout has keys if and only if it is well-formed. What
is wrong with any other is the first of its faults. The cursor never leaves the range. -/
theorem resolveValue_decided (value : Json) (hlong : ModeratelyLong value) (hsized : ModeratelySized value) :
    ((∃ keys, resolveValue value = .ok keys) ↔ WellFormed value) ∧
    (∀ e, resolveValue value = .error e ↔ (faults value).head? = some e) ∧
    ∀ row item, resolveValue value ≠ .error (.outOfRange row item) := by
  have hdecided := decidedBy_faults hlong hsized
  rw [← faults_eq_nil_iff]
  cases hfaults : faults value with
  | nil =>
    rw [hfaults] at hdecided
    obtain ⟨keys, hkeys, -⟩ := hdecided
    rw [hkeys]
    simp
  | cons e rest =>
    rw [hfaults] at hdecided
    have hmem : e ∈ faults value := by simp [hfaults]
    change resolveValue value = .error e at hdecided
    rw [hdecided]
    refine ⟨by simp, by simp, fun row item h => ?_⟩
    cases h
    cases isOutOfRange_of_mem_faults hmem

/-- Two modifiers without a readable value, and a row that is none. -/
def faultyLayout : Json := .array [
  .array [.object [("x", .bool true), ("w", .string "wide")], .string "A"],
  .number (.int 7)]

theorem turnedAndFaulty_decided :
    (ModeratelyLong turnedLayout ∧ ModeratelySized turnedLayout ∧ WellFormed turnedLayout ∧
      ∃ keys, resolveValue turnedLayout = .ok keys) ∧
    ModeratelyLong faultyLayout ∧ ModeratelySized faultyLayout ∧
      resolveValue faultyLayout = .error (.invalidField 0 "w" (.string "wide")) := by
  constructor
  · have hlong : ModeratelyLong turnedLayout := by decide +kernel
    have hsized : ModeratelySized turnedLayout := by decide +kernel
    have hwell : WellFormed turnedLayout := by
      rw [← faults_eq_nil_iff, ← List.isEmpty_iff]
      decide +kernel
    exact ⟨hlong, hsized, hwell, (resolveValue_decided _ hlong hsized).1.mpr hwell⟩
  · have hlong : ModeratelyLong faultyLayout := by decide +kernel
    have hsized : ModeratelySized faultyLayout := by decide +kernel
    have hfirst : (faults faultyLayout).head? = some (.invalidField 0 "w" (.string "wide")) := by rfl
    exact ⟨hlong, hsized, ((resolveValue_decided _ hlong hsized).2.1 _).mpr hfirst⟩

end Layout

end KeyboardPlate
