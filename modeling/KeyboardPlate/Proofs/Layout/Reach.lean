import KeyboardPlate.Proofs.Layout.Place

/-!
# How far the modifiers of a key reach

A modifier that says neither where a key stands nor how wide it is, nor whether there is one, holds for the
next label and for nothing else: two readers that differ only in such modifiers agree again behind that label.
A label without a key moves the reader on as any other does.
-/

set_option autoImplicit false

namespace KeyboardPlate.Layout

/-- Whether the modifier concerns the next key alone: not its place, its width, or whether it is one. -/
def Modifier.isOwn : Modifier → Bool
  | height | width2 | height2 | stabilizerAngle | switchAngle | shiftStabilizers | skipOrientationFix => true
  | _ => false

/-- The layouts up to two places are the same down to some place, and from there on, over row ends and objects
without a label among them, differ at most in the modifiers that concern the next key alone. -/
inductive Retouched : Place → Place → Prop
  | refl (p : Place) : Retouched p p
  | object {p q : Place} {members others : List (String × Json)} (h : Retouched p q)
      (hmembers : ∀ m : Modifier, m.isOwn = false → Json.member? m.name members = Json.member? m.name others) :
      Retouched (p.push (.object members)) (q.push (.object others))
  | rowEnd {p q : Place} (h : Retouched p q) : Retouched p.nextRow q.nextRow

/-- The state without what concerns the next key alone. -/
def State.course (s : State) : State := { s with next := { decal := s.next.decal, width := s.next.width } }

section Steps
variable {row item : Nat} {s s' t t' : State} {keys more : List Key}

theorem course_of_own {m : Modifier} {value : Json} (hown : m.isOwn = true) (h : m.effect? value s = some t) :
    t.course = s.course := by
  cases m with
  | height | width2 | height2 | stabilizerAngle | switchAngle | shiftStabilizers | skipOrientationFix =>
    simp only [Modifier.effect?, Option.bind_eq_bind, Option.bind_eq_some_iff, Option.pure_def,
      Option.some.injEq] at h
    obtain ⟨v, -, rfl⟩ := h
    rfl
  | _ => cases hown

theorem effect?_course {m : Modifier} (hown : m.isOwn = false) (value : Json) (s : State) :
    m.effect? value s.course = (m.effect? value s).map State.course := by
  cases m with
  | angle | rotationX | rotationY | width =>
    unfold Modifier.effect?
    cases decimalOf? value with
    | none => rfl
    | some d => rfl
  | decal =>
    unfold Modifier.effect?
    cases flagOf? value with
    | none => rfl
    | some b => rfl
  | right =>
    unfold Modifier.effect?
    cases decimalOf? value with
    | none => rfl
    | some d =>
      change ((s.cursor.x.add? d).bind _) = ((s.cursor.x.add? d).bind _).map _
      cases s.cursor.x.add? d with
      | none => rfl
      | some x => rfl
  | down =>
    unfold Modifier.effect?
    cases decimalOf? value with
    | none => rfl
    | some d =>
      change ((s.cursor.y.add? d).bind _) = ((s.cursor.y.add? d).bind _).map _
      cases s.cursor.y.add? d with
      | none => rfl
      | some y => rfl
  | _ => cases hown

theorem course_step {m : Modifier} {members others : List (String × Json)} {row' : Nat}
    (hmembers : m.isOwn = false → Json.member? m.name members = Json.member? m.name others)
    (h : s.course = t.course) (hs : m.step row members s = .ok s') (ht : m.step row' others t = .ok t') :
    s'.course = t'.course := by
  cases hown : m.isOwn with
  | true =>
    have hkeep : ∀ {row members} {u u' : State}, m.step row members u = .ok u' → u'.course = u.course := by
      intro row members u u' hu
      rcases step_eq_ok hu with ⟨-, rfl⟩ | ⟨value, -, hu⟩
      · rfl
      · exact course_of_own hown hu
    rw [hkeep hs, hkeep ht, h]
  | false =>
    -- Both objects give the modifier, with the same value, or neither does.
    rcases step_eq_ok hs with ⟨hnone, rfl⟩ | ⟨value, hvalue, hs⟩
    · rcases step_eq_ok ht with ⟨-, rfl⟩ | ⟨other, hother, -⟩
      · exact h
      · rw [← hmembers hown, hnone] at hother
        cases hother
    · rcases step_eq_ok ht with ⟨hnone, -⟩ | ⟨other, hother, ht⟩
      · rw [← hmembers hown, hvalue] at hnone
        cases hnone
      · rw [← hmembers hown, hvalue] at hother
        cases hother
        have hcourse := effect?_course hown value s
        rw [h, effect?_course hown value t, hs, ht] at hcourse
        exact (Option.some.inj hcourse).symm

theorem course_modify {members others : List (String × Json)} {row' : Nat}
    (hmembers : ∀ m : Modifier, m.isOwn = false → Json.member? m.name members = Json.member? m.name others)
    (h : s.course = t.course) (hs : modify row members s = .ok s') (ht : modify row' others t = .ok t') :
    s'.course = t'.course := by
  unfold modify at hs ht
  generalize Modifier.all = ms at hs ht
  induction ms generalizing s t with
  | nil =>
    cases hs
    cases ht
    exact h
  | cons m ms ih =>
    rw [List.foldlM_cons, Except.bind_eq_ok_iff] at hs ht
    obtain ⟨u, hu, hs⟩ := hs
    obtain ⟨v, hv, ht⟩ := ht
    exact ih (course_step (hmembers m) h hu hv) hs ht

theorem course_endRow {row' item' : Nat} (h : s.course = t.course) (hs : endRow row item s = .ok s')
    (ht : endRow row' item' t = .ok t') : s'.course = t'.course := by
  obtain ⟨cursor, next⟩ := s
  obtain ⟨cursor', next'⟩ := t
  obtain rfl : cursor = cursor' := congrArg State.cursor h
  have hnext := congrArg State.next h
  obtain ⟨y, hy, rfl⟩ := endRow_eq_ok hs
  obtain ⟨y', hy', rfl⟩ := endRow_eq_ok ht
  rw [hy] at hy'
  cases hy'
  exact congrArg (State.mk _) hnext

theorem length_of_label (h : label row item s = .ok (keys, t)) :
    keys.length = if s.next.decal then 0 else 1 := by
  have hlength := congrArg List.length (label_eq_ok h).1
  rw [List.length_map] at hlength
  rw [hlength]
  split
  · rfl
  · rfl

theorem label_course {row' item' : Nat} (h : s.course = t.course) (hs : label row item s = .ok (keys, s'))
    (ht : label row' item' t = .ok (more, t')) : s' = t' ∧ more.length = keys.length := by
  have hcursor := congrArg State.cursor h
  have hdecal := congrArg (fun u => u.next.decal) h
  have hwidth := congrArg (fun u => u.next.width) h
  dsimp only [State.course] at hcursor hdecal hwidth
  have hlength : more.length = keys.length := by rw [length_of_label ht, length_of_label hs, hdecal]
  obtain ⟨-, x, hx, rfl⟩ := label_eq_ok hs
  obtain ⟨-, y, hy, rfl⟩ := label_eq_ok ht
  rw [hcursor, hwidth, hy] at hx
  cases hx
  rw [hcursor]
  exact ⟨rfl, hlength⟩

theorem label_decal (h : label row item s = .ok (keys, t)) (item' : Nat) :
    label row item' { s with next := { s.next with decal := true } } = .ok ([], t) := by
  obtain ⟨-, x, hx, rfl⟩ := label_eq_ok h
  unfold label
  dsimp only
  rw [hx]
  rfl

end Steps

namespace Retouched
variable {p q : Place} {s t : State} {keys more : List Key}

theorem same_place (h : Retouched p q) :
    p.above.length = q.above.length ∧ p.left.length = q.left.length := by
  induction h with
  | refl p => exact ⟨rfl, rfl⟩
  | object _ _ ih =>
    refine ⟨ih.1, ?_⟩
    simp only [Place.push, List.length_append, ih.2, List.length_singleton]
  | rowEnd _ ih =>
    refine ⟨?_, rfl⟩
    simp only [Place.nextRow, List.length_append, ih.1, List.length_singleton]

theorem read (h : Retouched p q) (hp : p.read = .ok (keys, s)) (hq : q.read = .ok (more, t)) :
    keys = more ∧ s.course = t.course := by
  induction h generalizing keys more s t with
  | refl p =>
    rw [hp] at hq
    cases hq
    exact ⟨rfl, rfl⟩
  | object h hmembers ih =>
    rw [Place.read_push, Except.bind_eq_ok_iff] at hp hq
    obtain ⟨⟨keys, s⟩, hs, hp⟩ := hp
    obtain ⟨⟨more, t⟩, ht, hq⟩ := hq
    obtain ⟨rfl, hcourse⟩ := ih hs ht
    obtain ⟨⟨_, s'⟩, hs', hp⟩ := Except.bind_eq_ok_iff.mp hp
    obtain ⟨⟨_, t'⟩, ht', hq⟩ := Except.bind_eq_ok_iff.mp hq
    obtain ⟨_, hs', he⟩ := Except.map_eq_ok_iff.mp hs'
    obtain ⟨_, ht', he'⟩ := Except.map_eq_ok_iff.mp ht'
    cases hp
    cases hq
    cases he
    cases he'
    exact ⟨rfl, course_modify hmembers hcourse hs' ht'⟩
  | rowEnd h ih =>
    rw [Place.read_nextRow, Except.bind_eq_ok_iff] at hp hq
    obtain ⟨⟨keys, s⟩, hs, hp⟩ := hp
    obtain ⟨⟨more, t⟩, ht, hq⟩ := hq
    obtain ⟨rfl, hcourse⟩ := ih hs ht
    obtain ⟨s', hs', hp⟩ := Except.bind_eq_ok_iff.mp hp
    obtain ⟨t', ht', hq⟩ := Except.bind_eq_ok_iff.mp hq
    cases hp
    cases hq
    exact ⟨rfl, course_endRow hcourse hs' ht'⟩

end Retouched

/-- What is set for one key alone shows in that key alone, and a label that becomes a decal takes its own key
with it and no other. -/
theorem resolveValue_label (p : Place) (text : String) (right below : List Json) {keys : List Key}
    (h : resolveValue (p.layout (.string text :: right) below) = .ok keys) :
    ∃ first own rest s, p.read = .ok (first, s) ∧ own.length = (if s.next.decal then 0 else 1) ∧
      keys = first ++ own ++ rest ∧
      (∀ q changed, Retouched p q → resolveValue (q.layout (.string text :: right) below) = .ok changed →
        ∃ own', own'.length = own.length ∧ changed = first ++ own' ++ rest) ∧
      resolveValue (p.layout (.object [("d", .bool true)] :: .string text :: right) below) =
        .ok (first ++ rest) := by
  obtain ⟨first, s, _, hread, hon, rfl⟩ := resolveValue_layout_eq_ok.mp h
  obtain ⟨own, t, rest, hown, hrest, rfl⟩ := readOn_cons_eq_ok.mp hon
  refine ⟨first, own, rest, s, hread, length_of_label hown, (List.append_assoc _ _ _).symm, ?_, ?_⟩
  · intro q changed hq hchanged
    -- Behind the label both readers are in the same state, so the rest is read from there in both.
    obtain ⟨first', s', _, hread', hon', rfl⟩ := resolveValue_layout_eq_ok.mp hchanged
    obtain ⟨own', t', rest', hown', hrest', rfl⟩ := readOn_cons_eq_ok.mp hon'
    obtain ⟨rfl, hcourse⟩ := hq.read hread hread'
    obtain ⟨rfl, hlength⟩ := label_course hcourse hown hown'
    rw [← hq.same_place.1, ← hq.same_place.2, hrest] at hrest'
    cases hrest'
    exact ⟨own', hlength, (List.append_assoc _ _ _).symm⟩
  · rw [resolveValue_layout_eq_ok]
    refine ⟨first, s, rest, hread, ?_, rfl⟩
    rw [readOn_cons_eq_ok]
    refine ⟨[], _, rest, rfl, ?_, rfl⟩
    rw [readOn_cons_eq_ok]
    refine ⟨[], t, rest, label_decal hown _, ?_, rfl⟩
    exact (readOn_eq_ok_iff _ _ _ _ _ _ _).mp hrest

/-- Behind a first key, a height at the end of the row and a second width in the next one. -/
def tallAhead (height : Json) : Place :=
  (((⟨[], [.string "A"]⟩ : Place).push (.object [("h", height), ("_rs", .number (.int 90))])).nextRow).push
    (.object [("w2", .string "1.5")])

theorem retouched_tallAhead (height other : Json) : Retouched (tallAhead height) (tallAhead other) := by
  apply Retouched.object
  · apply Retouched.rowEnd
    apply Retouched.object
    · exact Retouched.refl _
    · intro m hm
      cases m <;> first | rfl | cases hm
  · intro m _
    rfl

theorem tallAhead_label : ∃ keys changed first own own' rest,
    resolveValue ((tallAhead (.string "2")).layout [.string "B", .string "C"] []) = .ok keys ∧
    keys = first ++ own ++ rest ∧
    resolveValue ((tallAhead (.string "1.25")).layout [.string "B", .string "C"] []) = .ok changed ∧
    own'.length = own.length ∧ changed = first ++ own' ++ rest ∧
    resolveValue ((tallAhead (.string "2")).layout [.object [("d", .bool true)], .string "B", .string "C"] []) =
      .ok (first ++ rest) := by
  obtain ⟨keys, hkeys⟩ := Except.exists_of_isOk
    (x := resolveValue ((tallAhead (.string "2")).layout [.string "B", .string "C"] [])) (by decide +kernel)
  obtain ⟨changed, hchanged⟩ := Except.exists_of_isOk
    (x := resolveValue ((tallAhead (.string "1.25")).layout [.string "B", .string "C"] [])) (by decide +kernel)
  obtain ⟨first, own, rest, s, -, -, heq, hretouched, hdecal⟩ := resolveValue_label _ _ _ _ hkeys
  obtain ⟨own', hlength, heq'⟩ := hretouched _ changed (retouched_tallAhead _ _) hchanged
  exact ⟨keys, changed, first, own, own', rest, hkeys, heq, hchanged, hlength, heq', hdecal⟩

end KeyboardPlate.Layout
