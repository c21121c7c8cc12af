import KeyboardPlate.Layout.Resolve
import Mathlib.Data.List.DropRight
import Mathlib.Data.List.Infix

/-!
# A layout as a list of events

What a layout says is read off the list of its labels, modifiers and row ends in the order in which they
take effect. A value that holds at some place of a layout is the latest that was set before it, in the
whole layout or since the last label; the place of a key is a sum over what came since its coordinate was
last set. None of this mentions a cursor that moves.
-/

set_option autoImplicit false

namespace KeyboardPlate.Layout

inductive Event where
  | label
  | set (m : Modifier) (value : Json)
  | rowEnd

/-- The events of an item of a row. Modifiers come in the order in which they take effect. -/
def itemEvents : Json → List Event
  | .string _ => [.label]
  | .object members =>
    Modifier.all.filterMap fun m => (Json.member? m.name members).map (Event.set m)
  | _ => []

def rowEvents : Json → List Event
  | .array items => items.flatMap itemEvents ++ [.rowEnd]
  | _ => []

/-- The events of a layout. Metadata before the rows gives none. -/
def events : Json → List Event
  | .array rows => rows.flatMap rowEvents
  | _ => []

namespace Event

def isLabel : Event → Bool
  | label => true
  | _ => false

/-- Whether the abscissa starts anew: at the end of a row and where a rotation point is set. -/
def restartsX : Event → Bool
  | rowEnd => true
  | set .rotationX _ => true
  | set .rotationY _ => true
  | _ => false

/-- Whether the ordinate starts anew: where a rotation point is set. -/
def restartsY : Event → Bool
  | set .rotationX _ => true
  | set .rotationY _ => true
  | _ => false

/-- The decimal that an event gives to a modifier. -/
def decimal? (m : Modifier) : Event → Option Decimal
  | set n value => if n = m then decimalOf? value else none
  | _ => none

/-- The truth value that an event gives to a modifier. -/
def flag? (m : Modifier) : Event → Option Bool
  | set n value => if n = m then flagOf? value else none
  | _ => none

end Event

/-- The last of the values that are read from events. -/
def latest? {β : Type} (read : Event → Option β) (es : List Event) : Option β := (es.filterMap read).getLast?

/-- The events after the last label. -/
def sinceLabel (es : List Event) : List Event := es.rtakeWhile fun e => !e.isLabel

/-- Every event, with the events before it. -/
def inContext (es : List Event) : List (List Event × Event) := es.inits.zip es

/-! ## What holds after some events -/

def angleAfter (es : List Event) : Decimal := (latest? (Event.decimal? .angle) es).getD .zero
def rotationXAfter (es : List Event) : Decimal := (latest? (Event.decimal? .rotationX) es).getD .zero
def rotationYAfter (es : List Event) : Decimal := (latest? (Event.decimal? .rotationY) es).getD .zero

/-- What holds for the next label: what was set since the last one. -/
def overridesAfter (es : List Event) : Overrides where
  decal := (latest? (Event.flag? .decal) (sinceLabel es)).getD false
  width := (latest? (Event.decimal? .width) (sinceLabel es)).getD .one
  height := (latest? (Event.decimal? .height) (sinceLabel es)).getD .one
  width2 := latest? (Event.decimal? .width2) (sinceLabel es)
  height2 := latest? (Event.decimal? .height2) (sinceLabel es)
  stabilizerAngle := (latest? (Event.decimal? .stabilizerAngle) (sinceLabel es)).getD .zero
  switchAngle := (latest? (Event.decimal? .switchAngle) (sinceLabel es)).getD .zero
  shiftStabilizers := (latest? (Event.flag? .shiftStabilizers) (sinceLabel es)).getD false
  skipOrientationFix := (latest? (Event.flag? .skipOrientationFix) (sinceLabel es)).getD false

/-- How far an event moves to the right, a label by the width that it has. -/
def Event.right? (width : Decimal) : Event → Option Decimal
  | label => some width
  | e => e.decimal? .right

/-- How far an event moves down, a row end by one unit. -/
def Event.down? : Event → Option Decimal
  | rowEnd => some .one
  | e => e.decimal? .down

/-- The abscissa: from the rotation point, all moves to the right since it last started anew. -/
def xAfter? (es : List Event) : Option Decimal :=
  (((inContext es).rtakeWhile fun c => !c.2.restartsX).filterMap fun (before, e) =>
    e.right? (overridesAfter before).width).foldlM Decimal.add? (rotationXAfter es)

/-- The ordinate: from the rotation point, all moves down since it last started anew. -/
def yAfter? (es : List Event) : Option Decimal :=
  ((es.rtakeWhile fun e => !e.restartsY).filterMap Event.down?).foldlM Decimal.add? (rotationYAfter es)

/-- The placement of a label after some events. -/
def placementAfter? (es : List Event) : Option Placement := do
  let next := overridesAfter es
  return {
    x := ← xAfter? es
    y := ← yAfter? es
    width := next.width
    height := next.height
    width2 := next.width2
    height2 := next.height2
    angle := angleAfter es
    rotationX := rotationXAfter es
    rotationY := rotationYAfter es
    switchAngle := next.switchAngle
    stabilizerAngle := next.stabilizerAngle
    shiftStabilizers := next.shiftStabilizers
    skipOrientationFix := next.skipOrientationFix }

/-- What comes before each label that is no decal. -/
def beforeKeys (es : List Event) : List (List Event) :=
  (inContext es).filterMap fun (before, e) =>
    if e.isLabel && !(overridesAfter before).decal then some before else none

/-! ## One more event -/

theorem inContext_cons (e : Event) (es : List Event) :
    inContext (e :: es) = ([], e) :: (inContext es).map fun c => (e :: c.1, c.2) := by
  simp only [inContext, List.inits_cons, List.zip_cons_cons, List.zip_map_left]
  rfl

theorem inContext_concat (es : List Event) (e : Event) :
    inContext (es ++ [e]) = inContext es ++ [(es, e)] := by
  induction es with
  | nil => rfl
  | cons a es ih => simp [inContext_cons, ih]

/-- What holds for the next label, after one more event. -/
def Overrides.after (o : Overrides) : Event → Overrides
  | .label => {}
  | e => {
    decal := (e.flag? .decal).getD o.decal
    width := (e.decimal? .width).getD o.width
    height := (e.decimal? .height).getD o.height
    width2 := (e.decimal? .width2).or o.width2
    height2 := (e.decimal? .height2).or o.height2
    stabilizerAngle := (e.decimal? .stabilizerAngle).getD o.stabilizerAngle
    switchAngle := (e.decimal? .switchAngle).getD o.switchAngle
    shiftStabilizers := (e.flag? .shiftStabilizers).getD o.shiftStabilizers
    skipOrientationFix := (e.flag? .skipOrientationFix).getD o.skipOrientationFix }

section Concat
variable {β : Type} {es : List Event} {e : Event}

theorem latest?_concat (read : Event → Option β) :
    latest? read (es ++ [e]) = (read e).or (latest? read es) := by
  unfold latest?
  cases h : read e <;> simp [List.filterMap_append, h]

theorem latest?_concat_getD (read : Event → Option β) (default : β) :
    (latest? read (es ++ [e])).getD default = (read e).getD ((latest? read es).getD default) := by
  rw [latest?_concat]
  cases read e <;> rfl

theorem angleAfter_concat :
    angleAfter (es ++ [e]) = (e.decimal? .angle).getD (angleAfter es) := latest?_concat_getD _ _

theorem rotationXAfter_concat :
    rotationXAfter (es ++ [e]) = (e.decimal? .rotationX).getD (rotationXAfter es) :=
  latest?_concat_getD _ _

theorem rotationYAfter_concat :
    rotationYAfter (es ++ [e]) = (e.decimal? .rotationY).getD (rotationYAfter es) :=
  latest?_concat_getD _ _

/-- An event that lets the abscissa run on leaves the rotation point where it is. -/
theorem rotationXAfter_concat_of_runs (h : e.restartsX = false) :
    rotationXAfter (es ++ [e]) = rotationXAfter es := by
  rw [rotationXAfter_concat]
  cases e with
  | set m value => cases m <;> first | rfl | cases h
  | label | rowEnd => rfl

theorem rotationYAfter_concat_of_runs (h : e.restartsY = false) :
    rotationYAfter (es ++ [e]) = rotationYAfter es := by
  rw [rotationYAfter_concat]
  cases e with
  | set m value => cases m <;> first | rfl | cases h
  | label | rowEnd => rfl

theorem sinceLabel_concat_label : sinceLabel (es ++ [.label]) = [] :=
  List.rtakeWhile_concat_neg _ _ _ (by simp [Event.isLabel])

theorem sinceLabel_concat (h : e.isLabel = false) : sinceLabel (es ++ [e]) = sinceLabel es ++ [e] :=
  List.rtakeWhile_concat_pos _ _ _ (by simp [h])

theorem overridesAfter_concat : overridesAfter (es ++ [e]) = (overridesAfter es).after e := by
  cases e with
  | label => simp [overridesAfter, sinceLabel_concat_label, latest?, Overrides.after]
  | set | rowEnd =>
    unfold overridesAfter
    rw [sinceLabel_concat rfl]
    simp only [latest?_concat_getD]
    simp only [latest?_concat]
    rfl

theorem xAfter?_concat_restart (h : e.restartsX = true) :
    xAfter? (es ++ [e]) = some (rotationXAfter (es ++ [e])) := by
  unfold xAfter?
  rw [inContext_concat, List.rtakeWhile_concat_neg _ _ _ (by simp [h])]
  rfl

theorem xAfter?_concat (h : e.restartsX = false) :
    xAfter? (es ++ [e]) =
      (xAfter? es).bind fun x => ((e.right? (overridesAfter es).width).map x.add?).getD (some x) := by
  unfold xAfter?
  rw [inContext_concat, List.rtakeWhile_concat_pos _ _ _ (by simp [h]),
    rotationXAfter_concat_of_runs h, List.filterMap_append, List.foldlM_append]
  cases ha : e.right? (overridesAfter es).width <;> simp [ha]

theorem yAfter?_concat_restart (h : e.restartsY = true) :
    yAfter? (es ++ [e]) = some (rotationYAfter (es ++ [e])) := by
  unfold yAfter?
  rw [List.rtakeWhile_concat_neg _ _ _ (by simp [h])]
  rfl

theorem yAfter?_concat (h : e.restartsY = false) :
    yAfter? (es ++ [e]) = (yAfter? es).bind fun y => (e.down?.map y.add?).getD (some y) := by
  unfold yAfter?
  rw [List.rtakeWhile_concat_pos _ _ _ (by simp [h]), rotationYAfter_concat_of_runs h,
    List.filterMap_append, List.foldlM_append]
  cases hd : e.down? <;> simp [hd]

theorem beforeKeys_concat :
    beforeKeys (es ++ [e]) =
      beforeKeys es ++ if e.isLabel && !(overridesAfter es).decal then [es] else [] := by
  unfold beforeKeys
  rw [inContext_concat, List.filterMap_append]
  split <;> simp_all

end Concat

end KeyboardPlate.Layout
