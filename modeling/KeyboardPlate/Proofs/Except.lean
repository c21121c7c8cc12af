import Mathlib.Data.List.Forall2

/-!
# Steps that may fail

What the success or the failure of a compound step says about its parts.
-/

set_option autoImplicit false

namespace Except
variable {ε α β : Type}

theorem ok_bind (a : α) (f : α → Except ε β) : .ok a >>= f = f a := rfl

theorem bind_eq_ok_iff {x : Except ε α} {f : α → Except ε β} {b : β} :
    x >>= f = .ok b ↔ ∃ a, x = .ok a ∧ f a = .ok b := by
  cases x with
  | error e => simp [bind, Except.bind]
  | ok a => simp [bind, Except.bind]

theorem exists_bind_eq_ok {x : Except ε α} {f : α → Except ε β} {a : α} (hx : x = .ok a)
    (hf : ∃ b, f a = .ok b) : ∃ b, x >>= f = .ok b := by
  obtain ⟨b, hb⟩ := hf
  exact ⟨b, bind_eq_ok_iff.mpr ⟨a, hx, hb⟩⟩

/-- One of two steps has been taken to what the last one was given. -/
theorem exists_of_ite_bind {c : Prop} [Decidable c] {x y : Except ε α} {f : α → Except ε β} {P : α → Prop} {b : β}
    (hx : ∀ a, x = .ok a → P a) (hy : ∀ a, y = .ok a → P a) (h : (if c then x >>= f else y >>= f) = .ok b) :
    ∃ a, P a ∧ f a = .ok b := by
  split at h
  · obtain ⟨a, ha, h⟩ := bind_eq_ok_iff.mp h
    exact ⟨a, hx a ha, h⟩
  · obtain ⟨a, ha, h⟩ := bind_eq_ok_iff.mp h
    exact ⟨a, hy a ha, h⟩

theorem bind_eq_error_iff {x : Except ε α} {f : α → Except ε β} {e : ε} :
    x >>= f = .error e ↔ x = .error e ∨ ∃ a, x = .ok a ∧ f a = .error e := by
  cases x with
  | error e => simp [bind, Except.bind]
  | ok a => simp [bind, Except.bind]

theorem map_eq_ok_iff {x : Except ε α} {f : α → β} {b : β} :
    x.map f = .ok b ↔ ∃ a, x = .ok a ∧ f a = b := by
  cases x with
  | error e => simp [Except.map]
  | ok a => simp [Except.map]

theorem map_eq_bind (x : Except ε α) (f : α → β) : x.map f = x >>= fun a => pure (f a) := by
  cases x with
  | error e => rfl
  | ok a => rfl

theorem mapError_eq_ok_iff {ε' : Type} {x : Except ε α} {f : ε → ε'} {a : α} :
    x.mapError f = .ok a ↔ x = .ok a := by
  cases x with
  | error e => simp [Except.mapError]
  | ok a => simp [Except.mapError]

theorem mapError_eq_error_iff {ε' : Type} {x : Except ε α} {f : ε → ε'} {e' : ε'} :
    x.mapError f = .error e' ↔ ∃ e, x = .error e ∧ f e = e' := by
  cases x with
  | error e => simp [Except.mapError]
  | ok a => simp [Except.mapError]

theorem mapError_bind {ε' : Type} (x : Except ε α) (f : α → Except ε β) (g : ε → ε') :
    (x >>= f).mapError g = x.mapError g >>= fun a => (f a).mapError g := by
  cases x with
  | error e => rfl
  | ok a => rfl

theorem mapError_map {ε' : Type} (x : Except ε α) (f : α → β) (g : ε → ε') :
    (x.map f).mapError g = (x.mapError g).map f := by
  cases x with
  | error e => rfl
  | ok a => rfl

theorem mapError_mapError {ε' ε'' : Type} (x : Except ε α) (f : ε → ε') (g : ε' → ε'') :
    (x.mapError f).mapError g = x.mapError fun e => g (f e) := by
  cases x with
  | error e => rfl
  | ok a => rfl

theorem mapError_foldlM {ε' : Type} (f : β → α → Except ε β) (g : ε → ε') (xs : List α) (b : β) :
    (xs.foldlM f b).mapError g = xs.foldlM (fun b a => (f b a).mapError g) b := by
  induction xs generalizing b with
  | nil => rfl
  | cons x xs ih =>
    rw [List.foldlM_cons, List.foldlM_cons, mapError_bind]
    simp only [ih]

theorem mapM_eq_ok_iff {f : α → Except ε β} {xs : List α} {ys : List β} :
    xs.mapM f = .ok ys ↔ List.Forall₂ (fun x y => f x = .ok y) xs ys := by
  induction xs generalizing ys with
  | nil =>
    cases ys with
    | nil => simp [pure, Except.pure]
    | cons y ys => simp [pure, Except.pure]
  | cons x xs ih =>
    rw [List.mapM_cons, bind_eq_ok_iff, List.forall₂_cons_left_iff]
    constructor
    · rintro ⟨y, hy, h⟩
      obtain ⟨rest, hrest, h⟩ := bind_eq_ok_iff.mp h
      cases h
      exact ⟨y, rest, hy, ih.mp hrest, rfl⟩
    · rintro ⟨y, rest, hy, hrest, rfl⟩
      exact ⟨y, hy, bind_eq_ok_iff.mpr ⟨rest, ih.mpr hrest, rfl⟩⟩

theorem exists_mapM_eq_ok_iff {f : α → Except ε β} {xs : List α} :
    (∃ ys, xs.mapM f = .ok ys) ↔ ∀ x ∈ xs, ∃ y, f x = .ok y := by
  simp only [mapM_eq_ok_iff]
  induction xs with
  | nil => simp
  | cons x xs ih =>
    simp only [List.forall₂_cons_left_iff, List.forall_mem_cons, ← ih]
    constructor
    · rintro ⟨_, y, ys, hy, hys, rfl⟩
      exact ⟨⟨y, hy⟩, ys, hys⟩
    · rintro ⟨⟨y, hy⟩, ys, hys⟩
      exact ⟨_, y, ys, hy, hys, rfl⟩

theorem exists_of_mapM_eq_error {f : α → Except ε β} {xs : List α} {e : ε}
    (h : xs.mapM f = .error e) : ∃ x ∈ xs, f x = .error e := by
  induction xs with
  | nil => cases h
  | cons x xs ih =>
    rw [List.mapM_cons] at h
    rcases bind_eq_error_iff.mp h with hx | ⟨y, -, h⟩
    · exact ⟨x, by simp, hx⟩
    · rcases bind_eq_error_iff.mp h with hxs | ⟨ys, -, h⟩
      · obtain ⟨x', hmem, hx'⟩ := ih hxs
        exact ⟨x', List.mem_cons_of_mem _ hmem, hx'⟩
      · cases h

theorem exists_of_mem_mapM {f : α → Except ε β} {xs : List α} {ys : List β} (h : xs.mapM f = .ok ys)
    {y : β} (hy : y ∈ ys) : ∃ x ∈ xs, f x = .ok y := by
  rw [mapM_eq_ok_iff] at h
  induction h with
  | nil => cases hy
  | @cons a b _ _ hab _ ih =>
    rcases List.mem_cons.mp hy with rfl | hy
    · exact ⟨a, by simp, hab⟩
    · obtain ⟨x, hx, hxy⟩ := ih hy
      exact ⟨x, List.mem_cons_of_mem _ hx, hxy⟩

theorem exists_mem_of_mapM {f : α → Except ε β} {xs : List α} {ys : List β} (h : xs.mapM f = .ok ys)
    {x : α} (hx : x ∈ xs) : ∃ y ∈ ys, f x = .ok y := by
  rw [mapM_eq_ok_iff] at h
  induction h with
  | nil => cases hx
  | @cons a b _ _ hab _ ih =>
    rcases List.mem_cons.mp hx with rfl | hx
    · exact ⟨b, by simp, hab⟩
    · obtain ⟨y, hy, hxy⟩ := ih hx
      exact ⟨y, List.mem_cons_of_mem _ hy, hxy⟩

theorem eq_map_of_mapM {f : α → Except ε β} {g : α → β} (hf : ∀ x y, f x = .ok y → y = g x) {xs : List α}
    {ys : List β} (h : xs.mapM f = .ok ys) : ys = xs.map g := by
  rw [mapM_eq_ok_iff] at h
  induction h with
  | nil => rfl
  | cons hxy _ ih => rw [List.map_cons, ← ih, hf _ _ hxy]

/-- Taking each result into a value as it comes is taking in all results at the end. -/
theorem foldlM_bind_pure {γ : Type} (f : α → Except ε β) (g : γ → β → γ) (xs : List α) (c : γ) :
    xs.foldlM (fun c x => do return g c (← f x)) c = (xs.mapM f).map fun ys => ys.foldl g c := by
  induction xs generalizing c with
  | nil => rfl
  | cons x xs ih =>
    rw [List.foldlM_cons, List.mapM_cons]
    cases f x with
    | error e => rfl
    | ok y =>
      rw [ok_bind, ok_bind]
      refine (ih (g c y)).trans ?_
      cases xs.mapM f with
      | error e => rfl
      | ok ys => rfl

theorem exists_of_isOk {x : Except ε α} (h : x.isOk = true) : ∃ a, x = .ok a := by
  cases x with
  | error e => cases h
  | ok a => exact ⟨a, rfl⟩

/-- The step has a result of one kind, or an error of another. -/
def Meets (P : α → Prop) (E : ε → Prop) : Except ε α → Prop
  | .ok a => P a
  | .error e => E e

variable {P : α → Prop} {Q : β → Prop} {E : ε → Prop}

theorem Meets.mono {x : Except ε α} {P' : α → Prop} (hx : x.Meets P E) (h : ∀ a, P a → P' a) : x.Meets P' E := by
  cases x with
  | error e => exact hx
  | ok a => exact h a hx

theorem Meets.bind {x : Except ε α} {f : α → Except ε β} (hx : x.Meets P E) (hf : ∀ a, P a → (f a).Meets Q E) :
    (x >>= f).Meets Q E := by
  cases x with
  | error e => exact hx
  | ok a => exact hf a hx

/-- Whatever the first step does, the second decides about the result. -/
theorem meets_bind {x : Except ε α} {f : α → Except ε β} (hf : ∀ a, (f a).Meets Q fun _ => True) :
    (x >>= f).Meets Q fun _ => True := by
  cases x with
  | error e => trivial
  | ok a => exact hf a

theorem Meets.of_eq_ok {x : Except ε α} {a : α} (hx : x.Meets P E) (h : x = .ok a) : P a := by
  rw [h] at hx
  exact hx

theorem meets_foldlM {γ : Type} {P : γ → Prop} {f : γ → α → Except ε γ} {xs : List α} {c : γ} (hc : P c)
    (h : ∀ x ∈ xs, ∀ c, P c → (f c x).Meets P E) : (xs.foldlM f c).Meets P E := by
  induction xs generalizing c with
  | nil => exact hc
  | cons x xs ih =>
    rw [List.foldlM_cons]
    refine (h x (by simp) c hc).bind fun c hc => ?_
    exact ih hc fun y hy => h y (List.mem_cons_of_mem _ hy)

theorem meets_mapM {f : α → Except ε β} {xs : List α} (h : ∀ x ∈ xs, (f x).Meets Q E) :
    (xs.mapM f).Meets (fun ys => ∀ y ∈ ys, Q y) E := by
  induction xs with
  | nil => exact fun y hy => by cases hy
  | cons x xs ih =>
    rw [List.mapM_cons]
    refine (h x (by simp)).bind fun y hy => ?_
    refine (ih fun z hz => h z (List.mem_cons_of_mem _ hz)).bind fun ys hys => ?_
    exact List.forall_mem_cons.mpr ⟨hy, hys⟩

end Except
