import KeyboardPlate.Model.InPlace
import KeyboardPlate.Proofs.Geometry.Fillet

/-!
# Fillets in place change nothing but two lines

A step in a store that stops where another would go on leaves the store as it has made it. A fillet writes only
after all that can stop it, so a store without a fillet is as it was. With one, the two lines have each been cut at
one end, and nothing else has changed.
-/

set_option autoImplicit false

namespace KeyboardPlate

namespace Named

variable {β : Type} {name other : String} {thing : β} {things : Named β}

theorem get?_put (name other : String) (thing : β) (things : Named β) :
    get? other (put name thing things) = if other = name then some thing else get? other things := by
  induction things with
  | nil =>
    by_cases h : name = other
    · simp [put, get?, h]
    · simp [put, get?, h, Ne.symm h]
  | cons entry rest ih =>
    obtain ⟨n, t⟩ := entry
    by_cases hput : n = name
    · subst hput
      by_cases h : n = other
      · simp [put, get?, h]
      · simp [put, get?, h, Ne.symm h]
    · by_cases h : n = other
      · subst h
        simp [put, get?, hput]
      · simp only [put, if_neg hput]
        simpa [get?, h] using ih

theorem get?_put_self : get? name (put name thing things) = some thing := by
  rw [get?_put, if_pos rfl]

theorem get?_put_of_ne (h : other ≠ name) : get? other (put name thing things) = get? other things := by
  rw [get?_put, if_neg h]

theorem mem_names_of_get? {found : β} (h : get? name things = some found) : name ∈ names things := by
  obtain ⟨entry, hentry, -⟩ := Option.map_eq_some_iff.mp h
  have hname : entry.1 = name := by simpa using List.find?_some hentry
  rw [← hname]
  exact List.mem_map_of_mem (List.mem_of_find?_eq_some hentry)

/-- A thing put in place of another does not change the names. -/
theorem names_put_of_get? {found : β} (h : get? name things = some found) :
    names (put name thing things) = names things := by
  rw [names_put, if_pos (mem_names_of_get? h)]

end Named

namespace InPlace

variable {σ ε β γ : Type} {step : InPlace σ ε β} {next : β → InPlace σ ε γ} {s s' : σ} {b : β} {e : ε}

theorem runOn_bind_of_ok (h : step.runOn s = (.ok b, s')) : (step >>= next).runOn s = (next b).runOn s' := by
  have hbind : (step >>= next).runOn s = (ExceptT.bindCont next (step.runOn s).1).run (step.runOn s).2 := rfl
  rw [hbind, h]
  rfl

theorem runOn_bind_of_error (h : step.runOn s = (.error e, s')) : (step >>= next).runOn s = (.error e, s') := by
  have hbind : (step >>= next).runOn s = (ExceptT.bindCont next (step.runOn s).1).run (step.runOn s).2 := rfl
  rw [hbind, h]
  rfl

theorem runOn_get (s : σ) : (get : InPlace σ ε σ).runOn s = (.ok s, s) := rfl

end InPlace

namespace Path

variable {α : Type} [Scalar α]

/-- A fillet that fails keeps both paths, and one that succeeds leaves what is cut of them. -/
theorem runOn_filletInPlace (a b : Path α) (radius : α) : (filletInPlace radius).runOn (a, b) =
    match a.fillet b radius with
    | .error e => (.error e, (a, b))
    | .ok (l, k, rounding) => (.ok rounding, (.line l, .line k)) := by
  unfold filletInPlace
  rw [InPlace.runOn_bind_of_ok (InPlace.runOn_get (a, b))]
  dsimp only
  cases a.fillet b radius with
  | error e => rfl
  | ok result => rfl

end Path

namespace Model

variable {α : Type}

theorem runOn_pathNamed (name : String) (m : Model α) : (pathNamed name).runOn m =
    match Named.get? name m.paths with
    | none => (.error (.missingPath name), m)
    | some path => (.ok path, m) := by
  unfold pathNamed
  rw [InPlace.runOn_bind_of_ok (InPlace.runOn_get m)]
  cases Named.get? name m.paths with
  | none => rfl
  | some path => rfl

theorem runOn_filletInPlace [Scalar α] (m : Model α) (first second : String) (radius : α) :
    (filletInPlace first second radius).runOn m =
      match m.filletPaths first second radius with
      | .error e => (.error e, m)
      | .ok (cut, arc) => (.ok arc, cut) := by
  have hfirst := runOn_pathNamed first m
  have hsecond := runOn_pathNamed second m
  unfold filletInPlace filletPaths
  cases ha : Named.get? first m.paths with
  | none =>
    rw [ha] at hfirst
    exact InPlace.runOn_bind_of_error hfirst
  | some a =>
    rw [ha] at hfirst
    rw [InPlace.runOn_bind_of_ok hfirst]
    cases hb : Named.get? second m.paths with
    | none =>
      rw [hb] at hsecond
      exact InPlace.runOn_bind_of_error hsecond
    | some b =>
      rw [hb] at hsecond
      rw [InPlace.runOn_bind_of_ok hsecond, Path.runOn_filletInPlace]
      dsimp only
      cases a.fillet b radius with
      | error e => rfl
      | ok result => rfl

end Model

/-! ## What a fillet cuts -/

namespace Line

variable {α : Type}

/-- One end of the line is where it was. -/
def KeepsEnd (l l' : Line α) : Prop := l'.start = l.start ∨ l'.stop = l.stop

theorem keepsEnd_withEnd (l : Line α) (p : Point α) (e : End) : l.KeepsEnd (l.withEnd p e) := by
  cases e with
  | start => exact Or.inr rfl
  | stop => exact Or.inl rfl

theorem keepsEnd_of_fillet [Scalar α] {a b a' b' : Line α} {radius : α} {arc : Arc α}
    (h : a.fillet b radius = .ok (a', b', arc)) : a.KeepsEnd a' ∧ b.KeepsEnd b' := by
  obtain ⟨e, f, p, q, c, -, -, rfl, rfl, -⟩ := exists_of_fillet h
  exact ⟨keepsEnd_withEnd .., keepsEnd_withEnd ..⟩

end Line

namespace Model

variable {α : Type} {first second : String} {m : Model α}

/-- All that differs between two drawings is where two named lines have one of their ends. -/
structure CutAt (first second : String) (m m' : Model α) : Prop where
  names : Named.names m'.paths = Named.names m.paths
  others : ∀ name, name ≠ first → name ≠ second → Named.get? name m'.paths = Named.get? name m.paths
  children : m'.children = m.children
  origin : m'.origin = m.origin
  layer : m'.layer = m.layer
  lines : ∀ name ∈ [first, second], ∃ l l' : Line α, Named.get? name m.paths = some (.line l) ∧
    Named.get? name m'.paths = some (.line l') ∧ l.KeepsEnd l'

theorem cutAt_addPath {a a' b b' : Line α} (ha : Named.get? first m.paths = some (.line a))
    (hb : Named.get? second m.paths = some (.line b)) (hkeepA : a.KeepsEnd a') (hkeepB : b.KeepsEnd b') :
    CutAt first second m ((m.addPath first (.line a')).addPath second (.line b')) where
  names := by
    have hb' : ∃ found, Named.get? second (Named.put first (.line a') m.paths) = some found := by
      rw [Named.get?_put]
      split
      · exact ⟨_, rfl⟩
      · exact ⟨_, hb⟩
    obtain ⟨found, hfound⟩ := hb'
    exact (Named.names_put_of_get? hfound).trans (Named.names_put_of_get? ha)
  others := by
    intro name hfirst hsecond
    exact (Named.get?_put_of_ne hsecond).trans (Named.get?_put_of_ne hfirst)
  children := rfl
  origin := rfl
  layer := rfl
  lines := by
    intro name hname
    -- of two lines under one name the second stays
    by_cases hsecond : name = second
    · subst hsecond
      exact ⟨b, b', hb, Named.get?_put_self, hkeepB⟩
    · have hfirst : name = first := by simpa [hsecond] using hname
      subst hfirst
      exact ⟨a, a', ha, (Named.get?_put_of_ne hsecond).trans Named.get?_put_self, hkeepA⟩

theorem cutAt_of_filletPaths [Scalar α] {m' : Model α} {radius : α} {arc : Arc α}
    (h : m.filletPaths first second radius = .ok (m', arc)) : CutAt first second m m' := by
  unfold filletPaths at h
  split at h
  · cases h
  · rename_i a ha
    split at h
    · cases h
    · rename_i b hb
      split at h
      · cases h
      · rename_i l k rounding hfillet
        cases h
        obtain ⟨a', b', rfl, rfl, hlines⟩ := Path.lines_of_fillet hfillet
        obtain ⟨hkeepA, hkeepB⟩ := Line.keepsEnd_of_fillet hlines
        exact cutAt_addPath ha hb hkeepA hkeepB

/-- A fillet in place that fails leaves the drawing as it was. One that succeeds returns the arc, and has cut two
lines at one end each and changed nothing else. -/
theorem filletInPlace_frame [Scalar α] (m : Model α) (first second : String) (radius : α) :
    match (filletInPlace first second radius).runOn m with
    | (.error e, m') => m.filletPaths first second radius = .error e ∧ m' = m
    | (.ok arc, m') => m.filletPaths first second radius = .ok (m', arc) ∧ CutAt first second m m' := by
  rw [runOn_filletInPlace]
  cases hfillet : m.filletPaths first second radius with
  | error e => exact ⟨rfl, rfl⟩
  | ok result =>
    obtain ⟨m', arc⟩ := result
    exact ⟨rfl, cutAt_of_filletPaths hfillet⟩

end Model

end KeyboardPlate
