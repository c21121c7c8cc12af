import KeyboardPlate.Contour.Loop
import KeyboardPlate.Proofs.Double.Order
import KeyboardPlate.Proofs.Except
import Mathlib.Data.List.Chain

/-!
# Loops use every path once and close

Where distances compare with the tolerance, the path that a chain takes next starts where the chain
stands. So the links of a loop follow each other, the last one leads back to the first, and all loops
together are a rearrangement of the paths that have a length.
-/

set_option autoImplicit false

namespace KeyboardPlate.Chain

section Scalar
variable {α : Type} [Scalar α]

/-- The points where some paths start and stop. -/
def ends (paths : List (Path α)) : List (Point α) :=
  paths.flatMap fun path => [path.endpoints.1, path.endpoints.2]

/-- Among some points every distance is below the tolerance or not below it. -/
def Comparable (points : List (Point α)) : Prop :=
  ∀ p ∈ points, ∀ q ∈ points, p.distance q < chainTolerance ↔ ¬ chainTolerance ≤ p.distance q

/-- Links that follow each other from a point to a point. -/
def Runs (tip : Point α) : List (Link α) → Point α → Prop
  | [], stop => meets tip stop
  | link :: rest, stop => meets link.endpoints.1 tip ∧ Runs link.endpoints.2 rest stop

theorem mem_ends_iff (p : Point α) (paths : List (Path α)) :
    p ∈ ends paths ↔ ∃ path ∈ paths, p = path.endpoints.1 ∨ p = path.endpoints.2 := by
  simp [ends]

theorem ends_append (paths others : List (Path α)) : ends (paths ++ others) = ends paths ++ ends others :=
  List.flatMap_append

theorem ends_perm {paths others : List (Path α)} (h : paths.Perm others) :
    (ends paths).Perm (ends others) := h.flatMap_right _

/-! ## Taking the next path -/

theorem takeTouching_perm {p : Point α} {pending rest : List (Path α)} {path : Path α}
    (h : takeTouching p pending = some (path, rest)) : pending.Perm (path :: rest) := by
  induction pending generalizing rest with
  | nil => cases h
  | cons first pending ih =>
    unfold takeTouching at h
    split at h
    · cases h
      exact .refl _
    · obtain ⟨⟨found, others⟩, hf, he⟩ := Option.map_eq_some_iff.mp h
      cases he
      exact ((ih hf).cons first).trans (.swap ..)

theorem touches_of_takeTouching {p : Point α} {pending rest : List (Path α)} {path : Path α}
    (h : takeTouching p pending = some (path, rest)) : touches p path = true := by
  induction pending generalizing rest with
  | nil => cases h
  | cons first pending ih =>
    unfold takeTouching at h
    split at h
    · cases h
      assumption
    · obtain ⟨⟨found, others⟩, hf, he⟩ := Option.map_eq_some_iff.mp h
      cases he
      exact ih hf

theorem takeTouching_eq_none {p : Point α} {pending : List (Path α)}
    (h : takeTouching p pending = none) : ∀ path ∈ pending, touches p path = false := by
  induction pending with
  | nil => simp
  | cons first pending ih =>
    unfold takeTouching at h
    split at h
    · cases h
    · rename_i hf
      intro path hm
      rcases List.mem_cons.mp hm with rfl | hm
      · simpa using hf
      · exact ih (Option.map_eq_none_iff.mp h) path hm

theorem endpoints_link (l : Link α) :
    (l.endpoints.1 = l.path.endpoints.1 ∧ l.endpoints.2 = l.path.endpoints.2) ∨
      (l.endpoints.1 = l.path.endpoints.2 ∧ l.endpoints.2 = l.path.endpoints.1) := by
  unfold Link.endpoints
  cases l.isReversed
  · exact .inl ⟨rfl, rfl⟩
  · exact .inr ⟨rfl, rfl⟩

theorem endpoints_link_mem {l : Link α} {paths : List (Path α)} (h : l.path ∈ paths) :
    l.endpoints.1 ∈ ends paths ∧ l.endpoints.2 ∈ ends paths := by
  have h₁ : l.path.endpoints.1 ∈ ends paths := (mem_ends_iff _ _).mpr ⟨_, h, .inl rfl⟩
  have h₂ : l.path.endpoints.2 ∈ ends paths := (mem_ends_iff _ _).mpr ⟨_, h, .inr rfl⟩
  rcases endpoints_link l with ⟨hs, ht⟩ | ⟨hs, ht⟩
  · rw [hs, ht]
    exact ⟨h₁, h₂⟩
  · rw [hs, ht]
    exact ⟨h₂, h₁⟩

/-- The comparison that turns a link agrees with the one that chose its path. -/
theorem linkFrom_meets {p : Point α} {path : Path α} (ht : touches p path = true)
    (hc : path.endpoints.1.distance p < chainTolerance ↔ ¬ chainTolerance ≤ path.endpoints.1.distance p) :
    meets (linkFrom p path).endpoints.1 p = true := by
  unfold linkFrom Link.endpoints
  by_cases hle : chainTolerance ≤ path.endpoints.1.distance p
  · have hno : ¬ path.endpoints.1.distance p < chainTolerance := fun hlt => hc.mp hlt hle
    simpa [hle, touches, meets, hno] using ht
  · simpa [hle, meets] using hc.mpr hle

/-! ## One loop -/

section Follow
variable {points : List (Point α)} {start tip : Point α} {pending others : List (Path α)}
  {links : List (Link α)} {fuel : Nat}

/-- A chain stops where it closes and else takes one more path. -/
theorem follow_cases (h : follow start fuel tip pending = .ok (links, others)) :
    (¬ chainTolerance ≤ tip.distance start ∧ links = [] ∧ others = pending) ∨
      ∃ n path rest more, takeTouching tip pending = some (path, rest) ∧
        follow start n (linkFrom tip path).endpoints.2 rest = .ok (more, others) ∧
        links = linkFrom tip path :: more := by
  unfold follow at h
  split at h
  · split at h
    · rename_i n path rest hm
      obtain ⟨⟨more, left⟩, hf, he⟩ := Except.bind_eq_ok_iff.mp h
      cases he
      exact .inr ⟨n, path, rest, more, hm, hf, rfl⟩
    · cases h
  · rename_i hd
    cases h
    exact .inl ⟨hd, rfl, rfl⟩

theorem follow_perm (h : follow start fuel tip pending = .ok (links, others)) :
    pending.Perm (links.map Link.path ++ others) := by
  induction links generalizing fuel tip pending with
  | nil =>
    rcases follow_cases h with ⟨_, _, rfl⟩ | ⟨_, _, _, _, _, _, he⟩
    · exact .refl _
    · cases he
  | cons link links ih =>
    rcases follow_cases h with ⟨_, he, _⟩ | ⟨n, path, rest, more, hm, hf, he⟩
    · cases he
    · cases he
      exact (takeTouching_perm hm).trans ((ih hf).cons path)

theorem ends_subset_of_perm {path : Path α} {rest : List (Path α)} (h : pending.Perm (path :: rest))
    (hp : ends pending ⊆ points) : ends [path] ⊆ points ∧ ends rest ⊆ points := by
  have hs : ends (path :: rest) ⊆ points := fun p hm => hp ((ends_perm h).mem_iff.mpr hm)
  have he : ends (path :: rest) = ends [path] ++ ends rest := ends_append [path] rest
  rw [he] at hs
  exact List.append_subset.mp hs

theorem follow_runs (hc : Comparable points) (hs : start ∈ points) (ht : tip ∈ points)
    (hp : ends pending ⊆ points) (h : follow start fuel tip pending = .ok (links, others)) :
    Runs tip links start := by
  induction links generalizing fuel tip pending with
  | nil =>
    rcases follow_cases h with ⟨hd, _, _⟩ | ⟨_, _, _, _, _, _, he⟩
    · simpa [Runs, meets] using (hc tip ht start hs).mpr hd
    · cases he
  | cons link links ih =>
    rcases follow_cases h with ⟨_, he, _⟩ | ⟨n, path, rest, more, hm, hf, he⟩
    · cases he
    · cases he
      have hperm := takeTouching_perm hm
      have hpath : path ∈ pending := hperm.mem_iff.mpr (List.mem_cons_self)
      have hl := endpoints_link_mem (l := linkFrom tip path) hpath
      have hstart : path.endpoints.1 ∈ points := hp ((mem_ends_iff _ _).mpr ⟨path, hpath, .inl rfl⟩)
      -- One comparison chose the path and another one its direction.
      refine ⟨linkFrom_meets (touches_of_takeTouching hm) (hc _ hstart tip ht), ?_⟩
      exact ih (hp hl.2) (ends_subset_of_perm hperm hp).2 hf

theorem ends_subset_of_follow (h : follow start fuel tip pending = .ok (links, others))
    (hp : ends pending ⊆ points) : ends others ⊆ points := by
  intro p hm
  refine hp ((ends_perm (follow_perm h)).mem_iff.mpr ?_)
  rw [ends_append]
  exact List.mem_append_right _ hm

theorem Runs.getLast {first : Link α} {stop : Point α} (h : Runs first.endpoints.2 links stop) :
    ∀ last ∈ (first :: links).getLast?, meets last.endpoints.2 stop := by
  induction links generalizing first with
  | nil =>
    intro last hl
    cases hl
    exact h
  | cons link links ih =>
    intro last hl
    rw [List.getLast?_cons_cons] at hl
    exact ih h.2 last hl

end Follow

/-! ## All loops -/

section Loops
variable {points : List (Point α)} {pending : List (Path α)} {loops : List (List (Link α))} {fuel : Nat}

/-- The first path begins a loop, and the paths that it leaves over form the others. -/
theorem loopsOf_cases (h : loopsOf fuel pending = .ok loops) :
    (loops = [] ∧ (fuel = 0 ∨ pending = [])) ∨
      ∃ n first rest links others more, fuel = n + 1 ∧ pending = first :: rest ∧
        follow first.endpoints.1 rest.length first.endpoints.2 rest = .ok (links, others) ∧
        loopsOf n others = .ok more ∧ loops = (⟨first, false⟩ :: links) :: more := by
  unfold loopsOf at h
  split at h
  · rename_i n first rest
    obtain ⟨⟨links, others⟩, hf, h⟩ := Except.bind_eq_ok_iff.mp h
    obtain ⟨more, hm, h⟩ := Except.bind_eq_ok_iff.mp h
    cases h
    exact .inr ⟨n, first, rest, links, others, more, rfl, rfl, hf, hm, rfl⟩
  · rename_i hno
    cases h
    refine .inl ⟨rfl, ?_⟩
    cases fuel with
    | zero => exact .inl rfl
    | succ n =>
      cases pending with
      | nil => exact .inr rfl
      | cons first rest => exact absurd rfl (hno n first rest rfl)

theorem loopsOf_perm (hf : pending.length ≤ fuel) (h : loopsOf fuel pending = .ok loops) :
    pending.Perm (loops.flatMap fun loop => loop.map Link.path) := by
  induction loops generalizing fuel pending with
  | nil =>
    rcases loopsOf_cases h with ⟨_, rfl | rfl⟩ | ⟨_, _, _, _, _, _, _, _, _, _, he⟩
    · rw [List.length_eq_zero_iff.mp (Nat.le_zero.mp hf)]
      exact .refl _
    · exact .refl _
    · cases he
  | cons loop loops ih =>
    rcases loopsOf_cases h with ⟨he, _⟩ | ⟨n, first, rest, links, others, more, rfl, rfl, hl, hm, he⟩
    · cases he
    · cases he
      have hperm := follow_perm hl
      have hlen := hperm.length_eq
      simp only [List.length_cons, List.length_append, List.length_map] at hf hlen
      have hrest := ih (by omega) hm
      exact (hperm.trans (hrest.append_left _)).cons first

theorem loopsOf_runs (hc : Comparable points) (hp : ends pending ⊆ points)
    (h : loopsOf fuel pending = .ok loops) :
    ∀ loop ∈ loops, ∃ first links, loop = first :: links ∧
      Runs first.endpoints.2 links first.endpoints.1 := by
  induction loops generalizing fuel pending with
  | nil => simp
  | cons loop loops ih =>
    rcases loopsOf_cases h with ⟨he, _⟩ | ⟨n, first, rest, links, others, more, rfl, rfl, hl, hm, he⟩
    · cases he
    · cases he
      obtain ⟨hfirst, hrest⟩ := ends_subset_of_perm (.refl _) hp
      have hmem : (⟨first, false⟩ : Link α).path ∈ [first] := List.mem_singleton_self _
      have hends := endpoints_link_mem hmem
      rw [List.forall_mem_cons]
      refine ⟨⟨⟨first, false⟩, links, rfl, ?_⟩, ih (ends_subset_of_follow hl hrest) hm⟩
      exact follow_runs hc (hfirst hends.1) (hfirst hends.2) hrest hl

end Loops

end Scalar

theorem comparable_of_not_isNaN {points : List (Point Float)}
    (h : ∀ p ∈ points, ∀ q ∈ points, (p.distance q).isNaN = false) : Comparable points :=
  fun p hp q hq => Double.lt_iff_not_le (h p hp q hq) (by decide +kernel)

end KeyboardPlate.Chain

namespace KeyboardPlate

end KeyboardPlate
