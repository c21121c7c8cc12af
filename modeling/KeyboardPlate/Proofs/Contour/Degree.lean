import KeyboardPlate.Proofs.Contour.Loop
import Mathlib.Algebra.Group.Nat.Even
import Mathlib.Data.List.Forall2
import Mathlib.Data.List.Count

/-!
# When paths form loops

The degree of a point is the number of ends of paths that meet it. Where meeting is an equivalence, paths
form loops if and only if all their degrees are even: a chain that has not closed yet leaves an odd degree
where it stands, so it never lacks a path to go on with. The order and the directions of the paths do not
change degrees.
-/

set_option autoImplicit false

namespace KeyboardPlate.Chain

section Scalar
variable {α : Type} [Scalar α]

/-- How many ends of some paths meet a point. -/
def degree (p : Point α) (paths : List (Path α)) : Nat := (ends paths).countP fun q => meets q p

/-- Among some points, distances compare with the tolerance and meeting is an equivalence. -/
structure FormClasses (points : List (Point α)) : Prop where
  comparable : Comparable points
  refl : ∀ p ∈ points, meets p p
  symm : ∀ p ∈ points, ∀ q ∈ points, meets p q → meets q p
  trans : ∀ p ∈ points, ∀ q ∈ points, ∀ r ∈ points, meets p q → meets q r → meets p r

/-- One if a point meets another one, and else zero. -/
def hit (p q : Point α) : Nat := if meets q p then 1 else 0

theorem degree_cons (p : Point α) (path : Path α) (rest : List (Path α)) :
    degree p (path :: rest) = hit p path.endpoints.1 + hit p path.endpoints.2 + degree p rest := by
  unfold degree hit
  rw [show ends (path :: rest) = path.endpoints.1 :: path.endpoints.2 :: ends rest from rfl,
    List.countP_cons, List.countP_cons]
  omega

theorem degree_append (p : Point α) (paths others : List (Path α)) :
    degree p (paths ++ others) = degree p paths + degree p others := by
  unfold degree
  rw [ends_append, List.countP_append]

theorem degree_perm (p : Point α) {paths others : List (Path α)} (h : paths.Perm others) :
    degree p paths = degree p others := (ends_perm h).countP_eq _

theorem degree_link (p : Point α) (l : Link α) (rest : List (Path α)) :
    degree p (l.path :: rest) = hit p l.endpoints.1 + hit p l.endpoints.2 + degree p rest := by
  rw [degree_cons]
  rcases endpoints_link l with ⟨hs, ht⟩ | ⟨hs, ht⟩
  · rw [hs, ht]
  · rw [hs, ht]
    omega

section Classes
variable {points : List (Point α)} (hc : FormClasses points)
include hc

theorem hit_eq_of_meets {p q r : Point α} (hp : p ∈ points) (hq : q ∈ points) (hr : r ∈ points)
    (h : meets q r) : hit p q = hit p r := by
  have hiff : meets q p = true ↔ meets r p = true :=
    ⟨fun hqp => hc.trans r hr q hq p hp (hc.symm q hq r hr h) hqp,
      fun hrp => hc.trans q hq r hr p hp h hrp⟩
  unfold hit
  simp only [hiff]

/-! ## Loops have even degrees -/

theorem even_of_runs {p tip stop : Point α} {links : List (Link α)} (hp : p ∈ points)
    (ht : tip ∈ points) (hs : stop ∈ points) (hl : ends (links.map Link.path) ⊆ points)
    (h : Runs tip links stop) : Even (degree p (links.map Link.path) + hit p tip + hit p stop) := by
  induction links generalizing tip with
  | nil =>
    rw [hit_eq_of_meets hc hp ht hs h]
    exact ⟨hit p stop, by simp [degree, ends]⟩
  | cons link links ih =>
    obtain ⟨hlink, hrest⟩ := ends_subset_of_perm (.refl _) hl
    have hmem := endpoints_link_mem (List.mem_singleton_self link.path)
    have hrun := ih (hlink hmem.2) hrest h.2
    rw [List.map_cons, degree_link, hit_eq_of_meets hc hp (hlink hmem.1) ht h.1]
    rw [Nat.even_iff] at hrun ⊢
    omega

theorem even_of_loop {p : Point α} {first : Link α} {links : List (Link α)} (hp : p ∈ points)
    (hl : ends ((first :: links).map Link.path) ⊆ points)
    (h : Runs first.endpoints.2 links first.endpoints.1) :
    Even (degree p ((first :: links).map Link.path)) := by
  obtain ⟨hfirst, hrest⟩ := ends_subset_of_perm (.refl _) hl
  have hmem := endpoints_link_mem (List.mem_singleton_self first.path)
  have hrun := even_of_runs hc hp (hfirst hmem.2) (hfirst hmem.1) hrest h
  rw [List.map_cons, degree_link]
  rw [Nat.even_iff] at hrun ⊢
  omega

theorem even_of_loops {p : Point α} (hp : p ∈ points) {loops : List (List (Link α))}
    (hl : ends (loops.flatMap fun loop => loop.map Link.path) ⊆ points)
    (h : ∀ loop ∈ loops, ∃ first links, loop = first :: links ∧
      Runs first.endpoints.2 links first.endpoints.1) :
    Even (degree p (loops.flatMap fun loop => loop.map Link.path)) := by
  induction loops with
  | nil => exact ⟨0, rfl⟩
  | cons loop loops ih =>
    rw [List.forall_mem_cons] at h
    obtain ⟨⟨first, links, rfl, hr⟩, hrest⟩ := h
    rw [List.flatMap_cons, ends_append, List.append_subset] at hl
    rw [List.flatMap_cons, degree_append]
    exact (even_of_loop hc hp hl.1 hr).add (ih hl.2 hrest)

/-! ## Chains close where degrees are even -/

/-- What a chain from one point to another one leaves over: together with its two ends, all degrees are
even. -/
def Balanced (points : List (Point α)) (start tip : Point α) (pending : List (Path α)) : Prop :=
  ∀ p ∈ points, Even (degree p pending + hit p tip + hit p start)

theorem exists_takeTouching {start tip : Point α} {pending : List (Path α)}
    (hs : start ∈ points) (ht : tip ∈ points) (hd : chainTolerance ≤ tip.distance start)
    (hb : Balanced points start tip pending) :
    ∃ path rest, takeTouching tip pending = some (path, rest) := by
  cases hm : takeTouching tip pending with
  | some taken => exact ⟨taken.1, taken.2, rfl⟩
  | none =>
    -- Then nothing but the tip itself hits the tip, which is odd.
    exfalso
    have hfar : ¬ meets tip start := by
      simpa [meets] using mt (hc.comparable tip ht start hs).mp (not_not_intro hd)
    have htip : hit tip tip = 1 := if_pos (hc.refl tip ht)
    have hstart : hit tip start = 0 := if_neg fun h => hfar (hc.symm start hs tip ht h)
    have hzero : degree tip pending = 0 := by
      refine List.countP_eq_zero.mpr fun q hq => ?_
      obtain ⟨path, hpath, he⟩ := (mem_ends_iff q pending).mp hq
      have hno := takeTouching_eq_none hm path hpath
      simp only [touches, Bool.or_eq_false_iff] at hno
      rcases he with rfl | rfl
      · simp [hno.1]
      · simp [hno.2]
    have hodd := hb tip ht
    rw [htip, hstart, hzero] at hodd
    exact absurd hodd (by decide)

theorem balanced_step {start tip : Point α} {pending rest : List (Path α)} {path : Path α}
    (ht : tip ∈ points) (hp : ends pending ⊆ points)
    (hm : takeTouching tip pending = some (path, rest)) (hb : Balanced points start tip pending) :
    Balanced points start (linkFrom tip path).endpoints.2 rest := by
  intro p hpp
  have hperm := takeTouching_perm hm
  have hmem := endpoints_link_mem (List.mem_singleton_self (linkFrom tip path).path)
  obtain ⟨hpath, _⟩ := ends_subset_of_perm hperm hp
  have hstart : path.endpoints.1 ∈ ends [path] :=
    (mem_ends_iff _ _).mpr ⟨path, List.mem_singleton_self path, .inl rfl⟩
  have henter := linkFrom_meets (touches_of_takeTouching hm) (hc.comparable _ (hpath hstart) tip ht)
  have hhit := hit_eq_of_meets hc hpp (hpath hmem.1) ht henter
  have hdeg := degree_perm p hperm
  have hlink : degree p (path :: rest) = _ := degree_link p (linkFrom tip path) rest
  have heven := hb p hpp
  rw [Nat.even_iff] at heven ⊢
  omega

theorem even_of_closed {start tip : Point α} {pending : List (Path α)} (hs : start ∈ points)
    (ht : tip ∈ points) (hd : ¬ chainTolerance ≤ tip.distance start)
    (hb : Balanced points start tip pending) : ∀ p ∈ points, Even (degree p pending) := by
  intro p hp
  have hclose : meets tip start := by
    simpa [meets] using (hc.comparable tip ht start hs).mpr hd
  have heven := hb p hp
  rw [hit_eq_of_meets hc hp ht hs hclose] at heven
  rw [Nat.even_iff] at heven ⊢
  omega

theorem exists_follow {start tip : Point α} {pending : List (Path α)} {fuel : Nat}
    (hf : pending.length ≤ fuel) (hs : start ∈ points) (ht : tip ∈ points) (hp : ends pending ⊆ points)
    (hb : Balanced points start tip pending) :
    ∃ links others, follow start fuel tip pending = .ok (links, others) ∧
      ∀ p ∈ points, Even (degree p others) := by
  induction fuel generalizing tip pending with
  | zero =>
    -- No path is left, so the chain has closed.
    by_cases hd : chainTolerance ≤ tip.distance start
    · obtain ⟨path, rest, hm⟩ := exists_takeTouching hc hs ht hd hb
      rw [List.length_eq_zero_iff.mp (Nat.le_zero.mp hf)] at hm
      cases hm
    · refine ⟨[], pending, ?_, even_of_closed hc hs ht hd hb⟩
      unfold follow
      rw [if_neg hd]
  | succ n ih =>
    by_cases hd : chainTolerance ≤ tip.distance start
    · obtain ⟨path, rest, hm⟩ := exists_takeTouching hc hs ht hd hb
      have hperm := takeTouching_perm hm
      have hlen := hperm.length_eq
      rw [List.length_cons] at hlen
      have hmem := endpoints_link_mem (List.mem_singleton_self (linkFrom tip path).path)
      obtain ⟨hpath, hrest⟩ := ends_subset_of_perm hperm hp
      obtain ⟨links, others, hl, he⟩ :=
        ih (by omega) (hpath hmem.2) hrest (balanced_step hc ht hp hm hb)
      refine ⟨linkFrom tip path :: links, others, ?_, he⟩
      unfold follow
      simp only [if_pos hd, hm]
      exact Except.bind_eq_ok_iff.mpr ⟨_, hl, rfl⟩
    · refine ⟨[], pending, ?_, even_of_closed hc hs ht hd hb⟩
      unfold follow
      rw [if_neg hd]

theorem exists_loopsOf {pending : List (Path α)} {fuel : Nat} (hf : pending.length ≤ fuel)
    (hp : ends pending ⊆ points) (he : ∀ p ∈ points, Even (degree p pending)) :
    ∃ loops, loopsOf fuel pending = .ok loops := by
  induction fuel generalizing pending with
  | zero => exact ⟨[], rfl⟩
  | succ n ih =>
    cases pending with
    | nil => exact ⟨[], rfl⟩
    | cons first rest =>
      obtain ⟨hfirst, hrest⟩ := ends_subset_of_perm (.refl _) hp
      have hmem := endpoints_link_mem (l := ⟨first, false⟩) (List.mem_singleton_self first)
      -- A path from a point to a point is a chain of one link.
      have hb : Balanced points first.endpoints.1 first.endpoints.2 rest := by
        intro p hpp
        have heven := he p hpp
        rw [degree_cons, Nat.even_iff] at heven
        rw [Nat.even_iff]
        omega
      have hfollow : ∃ links others,
          follow first.endpoints.1 rest.length first.endpoints.2 rest = .ok (links, others) ∧
            ∀ p ∈ points, Even (degree p others) :=
        exists_follow hc (Nat.le_refl _) (hfirst hmem.1) (hfirst hmem.2) hrest hb
      obtain ⟨links, others, hl, heo⟩ := hfollow
      have hperm := follow_perm hl
      have hlen := hperm.length_eq
      simp only [List.length_cons, List.length_append] at hf hlen
      obtain ⟨loops, hloops⟩ := ih (by omega) (ends_subset_of_follow hl hrest) heo
      refine ⟨(⟨first, false⟩ :: links) :: loops, ?_⟩
      exact Except.bind_eq_ok_iff.mpr ⟨_, hl, Except.bind_eq_ok_iff.mpr ⟨_, hloops, rfl⟩⟩

end Classes

theorem exists_findLoops_iff {paths : List (Path α)} (hc : FormClasses (ends (kept paths))) :
    (∃ loops, findLoops paths = .ok loops) ↔ ∀ p ∈ ends (kept paths), Even (degree p (kept paths)) := by
  constructor
  · rintro ⟨loops, h⟩ p hp
    have hperm := loopsOf_perm (Nat.le_refl _) h
    rw [degree_perm p hperm]
    refine even_of_loops hc hp (fun q hq => (ends_perm hperm).mem_iff.mpr hq) ?_
    exact loopsOf_runs hc.comparable (List.Subset.refl _) h
  · intro he
    exact exists_loopsOf hc (Nat.le_refl _) (List.Subset.refl _) he

/-! ## Order and direction -/

/-- The same path, or a line from its other end. -/
inductive Redrawn : Path α → Path α → Prop where
  | same (path : Path α) : Redrawn path path
  | turned (p q : Point α) : Redrawn (.between p q) (.between q p)

/-- The same paths in another order, lines perhaps from their other ends. -/
def Rearranged (paths others : List (Path α)) : Prop :=
  ∃ reordered, paths.Perm reordered ∧ List.Forall₂ Redrawn reordered others

theorem ends_perm_of_redrawn {paths others : List (Path α)} (h : List.Forall₂ Redrawn paths others) :
    (ends paths).Perm (ends others) := by
  induction h with
  | nil => exact .refl _
  | @cons path other _ _ hr _ ih =>
    have hpair : ([path.endpoints.1, path.endpoints.2] : List (Point α)).Perm
        [other.endpoints.1, other.endpoints.2] := by
      cases hr with
      | same => exact .refl _
      | turned p q => exact .swap ..
    exact hpair.append ih

theorem FormClasses.of_perm {points others : List (Point α)} (hp : points.Perm others)
    (hc : FormClasses points) : FormClasses others := by
  have hm : ∀ {p}, p ∈ others → p ∈ points := fun h => hp.mem_iff.mpr h
  exact {
    comparable := fun p hp q hq => hc.comparable p (hm hp) q (hm hq)
    refl := fun p hp => hc.refl p (hm hp)
    symm := fun p hp q hq => hc.symm p (hm hp) q (hm hq)
    trans := fun p hp q hq r hr => hc.trans p (hm hp) q (hm hq) r (hm hr) }

end Scalar

theorem kept_redrawn {paths others : List (Path Float)} (h : List.Forall₂ Redrawn paths others) :
    List.Forall₂ Redrawn (kept paths) (kept others) := by
  induction h with
  | nil => exact .nil
  | @cons path other _ _ hr _ ih =>
    have hlen : path.length = other.length := by
      cases hr with
      | same => rfl
      | turned p q => exact Point.distance_comm p q
    by_cases hk : chainTolerance ≤ other.length
    · simpa [kept, hlen, hk] using List.Forall₂.cons hr ih
    · simpa [kept, hlen, hk] using ih

theorem ends_kept_perm {paths others : List (Path Float)} (h : Rearranged paths others) :
    (ends (kept paths)).Perm (ends (kept others)) := by
  obtain ⟨reordered, hp, hr⟩ := h
  exact (ends_perm (hp.filter _)).trans (ends_perm_of_redrawn (kept_redrawn hr))

end KeyboardPlate.Chain

namespace KeyboardPlate

open Chain

/-- Paths form loops if and only if all their degrees are even. So it makes no difference in which order
they come and from which of its ends a line is drawn. -/
theorem findLoops_ok_iff {paths : List (Path Float)}
    (hn : ∀ p ∈ ends (kept paths), ∀ q ∈ ends (kept paths), (p.distance q).isNaN = false)
    (he : Equivalence fun p q : { p // p ∈ ends (kept paths) } => meets p.1 q.1 = true) :
    ((∃ loops, findLoops paths = .ok loops) ↔
      ∀ p ∈ ends (kept paths), Even (degree p (kept paths))) ∧
    ∀ others, Rearranged paths others →
      ((∃ loops, findLoops paths = .ok loops) ↔ ∃ loops, findLoops others = .ok loops) := by
  have hc : FormClasses (ends (kept paths)) := {
    comparable := comparable_of_not_isNaN hn
    refl := fun p hp => he.refl ⟨p, hp⟩
    symm := fun p hp q hq => he.symm (x := ⟨p, hp⟩) (y := ⟨q, hq⟩)
    trans := fun p hp q hq r hr => he.trans (x := ⟨p, hp⟩) (y := ⟨q, hq⟩) (z := ⟨r, hr⟩) }
  refine ⟨exists_findLoops_iff hc, fun others h => ?_⟩
  have hperm := ends_kept_perm h
  rw [exists_findLoops_iff hc, exists_findLoops_iff (hc.of_perm hperm)]
  have hdeg : ∀ p, degree p (kept paths) = degree p (kept others) := fun p => hperm.countP_eq _
  simp only [hdeg, hperm.mem_iff]

/-- A quarter of a disc, and two slits that start from one of its corners. -/
def discAndSlits : List (Path Float) := [
  .between ⟨1.0, 0.0⟩ ⟨4.0, 0.0⟩, .between ⟨1.0, 5.0⟩ ⟨1.0, 0.0⟩, .arc ⟨⟨0.0, 0.0⟩, 1.0, 0.0, 90.0⟩,
  .between ⟨1.0, 0.0⟩ ⟨1.0, 5.0⟩, .between ⟨0.0, 1.0⟩ ⟨0.0, 0.0⟩, .between ⟨1.0, 0.0⟩ ⟨4.0, 0.0⟩,
  .between ⟨1.0, 0.0⟩ ⟨0.0, 0.0⟩]

def discAndSlitsPoints : List (Point Float) :=
  [⟨0.0, 0.0⟩, ⟨1.0, 0.0⟩, ⟨0.0, 1.0⟩, ⟨4.0, 0.0⟩, ⟨1.0, 5.0⟩]

theorem discAndSlits_ok_iff : ((∃ loops, findLoops discAndSlits = .ok loops) ↔
      ∀ p ∈ ends (kept discAndSlits), Even (degree p (kept discAndSlits))) ∧
    ∀ others, Rearranged discAndSlits others →
      ((∃ loops, findLoops discAndSlits = .ok loops) ↔ ∃ loops, findLoops others = .ok loops) := by
  have hends : ends (kept discAndSlits) ⊆ discAndSlitsPoints := by decide +kernel
  have hn : ∀ p ∈ discAndSlitsPoints, ∀ q ∈ discAndSlitsPoints, (p.distance q).isNaN = false := by
    decide +kernel
  have hmeets : ∀ p ∈ discAndSlitsPoints, ∀ q ∈ discAndSlitsPoints, meets p q = decide (p = q) := by
    decide +kernel
  have he (p q : { p // p ∈ ends (kept discAndSlits) }) : meets p.1 q.1 = true ↔ p = q := by
    rw [hmeets p.1 (hends p.2) q.1 (hends q.2), decide_eq_true_iff, Subtype.ext_iff]
  refine findLoops_ok_iff (fun p hp q hq => hn p (hends hp) q (hends hq)) ⟨?_, ?_, ?_⟩
  · exact fun p => (he p p).mpr rfl
  · exact fun h => (he _ _).mpr ((he _ _).mp h).symm
  · exact fun h k => (he _ _).mpr (((he _ _).mp h).trans ((he _ _).mp k))

end KeyboardPlate
