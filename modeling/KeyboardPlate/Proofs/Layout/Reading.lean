import KeyboardPlate.Proofs.Except
import KeyboardPlate.Proofs.Layout.Event

/-!
# The keys of a layout, read off its events

A state agrees with some events if all it holds is what holds after them. Every step of the resolver keeps
that agreement; hence the keys of a layout stand where its events say.
-/

set_option autoImplicit false

namespace KeyboardPlate.Layout

/-! ## What a step does -/

section Steps
variable {row item : Nat} {s t : State} {keys : List Key}

theorem step_eq_ok {m : Modifier} {members : List (String × Json)} (h : m.step row members s = .ok t) :
    (Json.member? m.name members = none ∧ t = s) ∨
      ∃ value, Json.member? m.name members = some value ∧ m.effect? value s = some t := by
  unfold Modifier.step at h
  cases hvalue : Json.member? m.name members with
  | none =>
    rw [hvalue] at h
    cases h
    exact Or.inl ⟨rfl, rfl⟩
  | some value =>
    rw [hvalue] at h
    dsimp only at h
    split at h
    · rename_i u hu
      cases h
      exact Or.inr ⟨value, rfl, hu⟩
    · cases h

theorem toPlacement_of_toKey {p : Placement} {k : Key} (h : p.toKey = .ok k) : k.toPlacement = p := by
  unfold Placement.toKey at h
  split at h
  · cases h
    rfl
  · cases h

theorem label_eq_ok (h : label row item s = .ok (keys, t)) :
    keys.map (fun k => some k.toPlacement) = (if s.next.decal then [] else [some s.placement]) ∧
      ∃ x, s.cursor.x.add? s.next.width = some x ∧ t = { cursor := { s.cursor with x := x }, next := {} } := by
  unfold label at h
  split at h
  · cases h
  · rename_i x hx
    dsimp only at h
    split at h
    · rename_i hdecal
      cases h
      exact ⟨(if_pos hdecal).symm, x, hx, rfl⟩
    · rename_i hdecal
      split at h
      · rename_i key hkey
        cases h
        rw [if_neg hdecal, List.map_singleton, toPlacement_of_toKey hkey]
        exact ⟨rfl, x, hx, rfl⟩
      · cases h

theorem endRow_eq_ok (h : endRow row item s = .ok t) :
    ∃ y, s.cursor.y.add? .one = some y ∧ t = { s with cursor := { s.cursor with x := s.cursor.rotationX, y := y } } := by
  unfold endRow at h
  split at h
  · cases h
  · rename_i y hy
    cases h
    exact ⟨y, hy, rfl⟩

end Steps

/-! ## What one event does to a state -/

/-- How a state changes under an event. -/
structure Follows (e : Event) (s t : State) : Prop where
  angle : t.cursor.angle = (e.decimal? .angle).getD s.cursor.angle
  rotationX : t.cursor.rotationX = (e.decimal? .rotationX).getD s.cursor.rotationX
  rotationY : t.cursor.rotationY = (e.decimal? .rotationY).getD s.cursor.rotationY
  clusterX : t.cursor.clusterX = (e.decimal? .rotationX).getD s.cursor.clusterX
  clusterY : t.cursor.clusterY = (e.decimal? .rotationY).getD s.cursor.clusterY
  x_restart : e.restartsX = true → t.cursor.x = t.cursor.rotationX ∨ t.cursor.x = t.cursor.clusterX
  x_move : e.restartsX = false →
    ((e.right? s.next.width).map s.cursor.x.add?).getD (some s.cursor.x) = some t.cursor.x
  y_restart : e.restartsY = true → t.cursor.y = t.cursor.clusterY
  y_move : e.restartsY = false → (e.down?.map s.cursor.y.add?).getD (some s.cursor.y) = some t.cursor.y
  next : t.next = s.next.after e

section Steps
variable {s t : State}

theorem follows_of_effect? {m : Modifier} {value : Json} (h : m.effect? value s = some t) :
    Follows (.set m value) s t := by
  cases m with
  | right =>
    simp only [Modifier.effect?, Option.bind_eq_bind, Option.bind_eq_some_iff, Option.pure_def,
      Option.some.injEq] at h
    obtain ⟨d, hd, x, hx, rfl⟩ := h
    constructor <;> simp [Event.decimal?, Event.flag?, Event.restartsX, Event.restartsY, Event.right?,
      Event.down?, Overrides.after, hd, hx]
  | down =>
    simp only [Modifier.effect?, Option.bind_eq_bind, Option.bind_eq_some_iff, Option.pure_def,
      Option.some.injEq] at h
    obtain ⟨d, hd, y, hy, rfl⟩ := h
    constructor <;> simp [Event.decimal?, Event.flag?, Event.restartsX, Event.restartsY, Event.right?,
      Event.down?, Overrides.after, hd, hy]
  | _ =>
    simp only [Modifier.effect?, Option.bind_eq_bind, Option.bind_eq_some_iff, Option.pure_def,
      Option.some.injEq] at h
    obtain ⟨v, hv, rfl⟩ := h
    constructor <;> simp [Event.decimal?, Event.flag?, Event.restartsX, Event.restartsY, Event.right?,
      Event.down?, Overrides.after, hv]

theorem follows_of_label {row item : Nat} {keys : List Key} (h : label row item s = .ok (keys, t)) :
    Follows .label s t := by
  obtain ⟨-, x, hx, rfl⟩ := label_eq_ok h
  constructor <;> simp [Event.decimal?, Event.restartsX, Event.restartsY, Event.right?, Event.down?,
    Overrides.after, hx]

theorem follows_of_endRow {row item : Nat} (h : endRow row item s = .ok t) : Follows .rowEnd s t := by
  obtain ⟨y, hy, rfl⟩ := endRow_eq_ok h
  constructor <;> simp [Event.decimal?, Event.flag?, Event.restartsX, Event.restartsY, Event.down?,
    Overrides.after, hy]

end Steps

/-! ## The state after some events -/

/-- The state is what holds after some events. -/
structure Agrees (es : List Event) (s : State) : Prop where
  angle : s.cursor.angle = angleAfter es
  rotationX : s.cursor.rotationX = rotationXAfter es
  rotationY : s.cursor.rotationY = rotationYAfter es
  clusterX : s.cursor.clusterX = rotationXAfter es
  clusterY : s.cursor.clusterY = rotationYAfter es
  x : xAfter? es = some s.cursor.x
  y : yAfter? es = some s.cursor.y
  next : s.next = overridesAfter es

namespace Agrees
variable {es : List Event} {e : Event} {s t : State}

theorem start : Agrees [] {} := by
  constructor <;> rfl

theorem placement (h : Agrees es s) : placementAfter? es = some s.placement := by
  simp [placementAfter?, h.x, h.y, State.placement, h.next, h.angle, h.rotationX, h.rotationY]

theorem step (h : Agrees es s) (hf : Follows e s t) : Agrees (es ++ [e]) t := by
  have hrx : t.cursor.rotationX = rotationXAfter (es ++ [e]) := by
    rw [hf.rotationX, h.rotationX, rotationXAfter_concat]
  have hry : t.cursor.rotationY = rotationYAfter (es ++ [e]) := by
    rw [hf.rotationY, h.rotationY, rotationYAfter_concat]
  have hcx : t.cursor.clusterX = rotationXAfter (es ++ [e]) := by
    rw [hf.clusterX, h.clusterX, rotationXAfter_concat]
  have hcy : t.cursor.clusterY = rotationYAfter (es ++ [e]) := by
    rw [hf.clusterY, h.clusterY, rotationYAfter_concat]
  refine ⟨?_, hrx, hry, hcx, hcy, ?_, ?_, ?_⟩
  · rw [hf.angle, h.angle, angleAfter_concat]
  · cases hr : e.restartsX with
    | true =>
      rw [xAfter?_concat_restart hr]
      rcases hf.x_restart hr with hx | hx
      · rw [hx, hrx]
      · rw [hx, hcx]
    | false =>
      rw [xAfter?_concat hr, h.x, ← h.next]
      exact hf.x_move hr
  · cases hr : e.restartsY with
    | true => rw [yAfter?_concat_restart hr, hf.y_restart hr, hcy]
    | false =>
      rw [yAfter?_concat hr, h.y]
      exact hf.y_move hr
  · rw [hf.next, h.next, overridesAfter_concat]

end Agrees

/-! ## The keys of some events -/

/-- The state and the keys are what some events give. -/
structure Reads (es : List Event) (keys : List Key) (s : State) : Prop where
  agrees : Agrees es s
  keys_eq : keys.map (fun k => some k.toPlacement) = (beforeKeys es).map placementAfter?

namespace Reads
variable {es : List Event} {keys more : List Key} {s t : State} {row item : Nat}

theorem start : Reads [] [] {} := ⟨.start, rfl⟩

theorem step {e : Event} (h : Reads es keys s) (he : e.isLabel = false) (hf : Follows e s t) :
    Reads (es ++ [e]) keys t := by
  refine ⟨h.agrees.step hf, ?_⟩
  rw [beforeKeys_concat, he]
  simpa using h.keys_eq

theorem of_label (h : Reads es keys s) (hl : label row item s = .ok (more, t)) :
    Reads (es ++ [.label]) (keys ++ more) t := by
  refine ⟨h.agrees.step (follows_of_label hl), ?_⟩
  rw [beforeKeys_concat, List.map_append, List.map_append, h.keys_eq, (label_eq_ok hl).1, ← h.agrees.next]
  cases hd : s.next.decal <;> simp [Event.isLabel, h.agrees.placement]

theorem of_modifiers {members : List (String × Json)} (ms : List Modifier) (h : Reads es keys s)
    (hm : ms.foldlM (Modifier.step row members) s = .ok t) :
    Reads (es ++ ms.filterMap fun m => (Json.member? m.name members).map (Event.set m)) keys t := by
  induction ms generalizing es s with
  | nil =>
    cases hm
    simpa using h
  | cons m ms ih =>
    rw [List.foldlM_cons, Except.bind_eq_ok_iff] at hm
    obtain ⟨u, hu, hm⟩ := hm
    rcases step_eq_ok hu with ⟨hnone, rfl⟩ | ⟨value, hvalue, he⟩
    · -- A modifier that an object does not mention is no event.
      simpa [hnone] using ih h hm
    · simpa [hvalue] using ih (h.step rfl (follows_of_effect? he)) hm

theorem of_readItem {value : Json} (h : Reads es keys s) (hi : readItem row item s value = .ok (more, t)) :
    Reads (es ++ itemEvents value) (keys ++ more) t := by
  unfold readItem at hi
  split at hi
  · exact h.of_label hi
  · obtain ⟨u, hu, he⟩ := Except.map_eq_ok_iff.mp hi
    cases he
    simpa [itemEvents] using h.of_modifiers Modifier.all hu
  · cases hi

theorem of_readItems {values : List Json} (h : Reads es keys s)
    (hi : readItems row item s values = .ok (more, t)) :
    Reads (es ++ values.flatMap itemEvents) (keys ++ more) t := by
  induction values generalizing es keys more s item with
  | nil =>
    cases hi
    simpa using h
  | cons value rest ih =>
    rw [readItems, Except.bind_eq_ok_iff] at hi
    obtain ⟨⟨first, u⟩, hu, hi⟩ := hi
    obtain ⟨⟨others, v⟩, hv, hi⟩ := Except.bind_eq_ok_iff.mp hi
    cases hi
    simpa using ih (h.of_readItem hu) hv

theorem of_readRow {value : Json} (h : Reads es keys s) (hr : readRow row s value = .ok (more, t)) :
    Reads (es ++ rowEvents value) (keys ++ more) t := by
  unfold readRow at hr
  split at hr
  · obtain ⟨⟨first, u⟩, hu, hr⟩ := Except.bind_eq_ok_iff.mp hr
    obtain ⟨v, hv, hr⟩ := Except.bind_eq_ok_iff.mp hr
    cases hr
    simpa [rowEvents] using (h.of_readItems hu).step rfl (follows_of_endRow hv)
  · cases hr

theorem of_readRows {values : List Json} (h : Reads es keys s)
    (hr : readRows row s values = .ok (more, t)) :
    Reads (es ++ values.flatMap rowEvents) (keys ++ more) t := by
  induction values generalizing es keys more s row with
  | nil =>
    cases hr
    simpa using h
  | cons value rest ih =>
    rw [readRows, Except.bind_eq_ok_iff] at hr
    obtain ⟨⟨first, u⟩, hu, hr⟩ := hr
    obtain ⟨⟨others, v⟩, hv, hr⟩ := Except.bind_eq_ok_iff.mp hr
    cases hr
    simpa using ih (h.of_readRow hu) hv

end Reads

theorem reads_of_resolveRows {rows : List Json} {keys : List Key} (h : resolveRows rows = .ok keys) :
    ∃ s, Reads (rows.flatMap rowEvents) keys s := by
  unfold resolveRows at h
  split at h
  · split at h
    · obtain ⟨⟨more, s⟩, hr, he⟩ := Except.map_eq_ok_iff.mp h
      cases he
      exact ⟨s, by simpa [rowEvents] using Reads.start.of_readRows hr⟩
    · obtain ⟨⟨more, s⟩, hr, he⟩ := Except.map_eq_ok_iff.mp h
      cases he
      exact ⟨s, by simpa using Reads.start.of_readRows hr⟩
  · obtain ⟨⟨more, s⟩, hr, he⟩ := Except.map_eq_ok_iff.mp h
    cases he
    exact ⟨s, by simpa using Reads.start.of_readRows hr⟩

/-- The keys of a layout stand, in its order, where what comes before each label that is no decal says. -/
theorem resolveValue_placements {value : Json} {keys : List Key} (h : resolveValue value = .ok keys) :
    keys.map (fun k => some k.toPlacement) = (beforeKeys (events value)).map placementAfter? := by
  unfold resolveValue at h
  split at h
  · obtain ⟨s, hs⟩ := reads_of_resolveRows h
    exact hs.keys_eq
  · cases h

/-- A layout with a rotation point, a decal, and overrides that outlast a row. -/
def turnedLayout : Json := .array [
  .object [("name", .string "turned")],
  .array [.object [("x", .string "0.5"), ("ry", .number (.int 2)), ("rx", .number (.int 5)),
      ("r", .number (.int 15))],
    .string "A", .object [("d", .bool true), ("w", .string "2.25")], .string "logo", .string "B",
    .object [("w", .string " 1.5 "), ("_so", .number (.int 1))]],
  .array [.string "C", .object [("y", .string "-0.25")], .string "D"]]

theorem turnedLayout_placements : ∃ keys, resolveValue turnedLayout = .ok keys ∧
    keys.map (fun k => some k.toPlacement) = (beforeKeys (events turnedLayout)).map placementAfter? := by
  obtain ⟨keys, h⟩ := Except.exists_of_isOk (x := resolveValue turnedLayout) (by decide +kernel)
  exact ⟨keys, h, resolveValue_placements h⟩

end KeyboardPlate.Layout
