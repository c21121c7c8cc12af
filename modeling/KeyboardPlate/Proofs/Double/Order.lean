import KeyboardPlate.Geometry.Point

/-!
# Comparisons and distances of doubles

Two doubles that are numbers compare in one of three ways. A difference and its opposite agree up to a
sign, which a square forgets; so the distance of two points is the same in both directions, bit for bit.
-/

set_option autoImplicit false

namespace KeyboardPlate.Double

open Float.Model (Format UnpackedFloat)
open Float.Model.UnpackedFloat

/-! ## Comparisons -/

theorem compare_swap (x y : UnpackedFloat) : y.compare x = (x.compare y).map Ordering.swap := by
  cases x with
  | notANumber => cases y <;> rfl
  | infinity s =>
    cases y with
    | infinity t => cases s <;> cases t <;> rfl
    | _ => cases s <;> rfl
  | zero s =>
    cases y with
    | finite t => cases t <;> rfl
    | infinity t => cases t <;> rfl
    | _ => rfl
  | finite s m e =>
    cases y with
    | finite t n f =>
      have h : ((compare e f).then (compare m n)).swap = (compare f e).then (compare n m) := by
        rw [Ordering.swap_then, Int.compare_swap, Nat.compare_swap]
      cases s with
      | positive =>
        cases t with
        | positive => exact congrArg some h.symm
        | negative => rfl
      | negative =>
        cases t with
        | positive => rfl
        | negative => exact congrArg (fun o : Ordering => some o.swap) h.symm
    | infinity t => cases s <;> cases t <;> rfl
    | zero t => cases s <;> rfl
    | notANumber => cases s <;> rfl

theorem exists_compare_eq {x y : UnpackedFloat} (hx : x.isNaN = false) (hy : y.isNaN = false) :
    ∃ o, x.compare y = some o := by
  cases x with
  | notANumber => cases hx
  | infinity s =>
    cases y with
    | notANumber => cases hy
    | infinity t => exact ⟨_, rfl⟩
    | _ => cases s <;> exact ⟨_, rfl⟩
  | zero s =>
    cases y with
    | notANumber => cases hy
    | zero t => exact ⟨_, rfl⟩
    | _ t => cases t <;> exact ⟨_, rfl⟩
  | finite s m e =>
    cases y with
    | notANumber => cases hy
    | zero t => cases s <;> exact ⟨_, rfl⟩
    | infinity t => cases s <;> cases t <;> exact ⟨_, rfl⟩
    | finite t n f => cases s <;> cases t <;> exact ⟨_, rfl⟩

/-- Numbers are compared by `<` as they are by `≤` the other way round. -/
theorem lt_iff_not_le {x y : Float} (hx : x.isNaN = false) (hy : y.isNaN = false) :
    x < y ↔ ¬ y ≤ x := by
  have hlt : x < y ↔ x.toModel.unpack.lt y.toModel.unpack = true := decide_eq_true_iff
  have hle : y ≤ x ↔ y.toModel.unpack.le x.toModel.unpack = true := decide_eq_true_iff
  obtain ⟨o, ho⟩ := exists_compare_eq (x := x.toModel.unpack) (y := y.toModel.unpack) hx hy
  rw [hlt, hle, UnpackedFloat.lt, UnpackedFloat.le, compare_swap x.toModel.unpack, ho]
  cases o <;> decide

/-! ## Differences -/

theorem abs_roundWithAccuracy (spec : Format) (s : Sign) (m : Nat) (e : Int) (a : Accuracy) :
    (roundWithAccuracy spec s m e a).abs = roundWithAccuracy spec .positive m e a := by
  unfold roundWithAccuracy
  exact apply_dite UnpackedFloat.abs ..

theorem abs_normalize_neg (spec : Format) (m e : Int) (s : Sign) :
    (UnpackedFloat.normalize spec (-m) e s).abs = (UnpackedFloat.normalize spec m e s).abs := by
  unfold UnpackedFloat.normalize
  rcases Int.lt_trichotomy m 0 with h | h | h
  · rw [Int.compare_eq_lt.mpr h, Int.compare_eq_gt.mpr (by omega)]
    simp only [UnpackedFloat.round, abs_roundWithAccuracy]
  · subst h
    rfl
  · rw [Int.compare_eq_gt.mpr h, Int.compare_eq_lt.mpr (by omega)]
    simp only [UnpackedFloat.round, abs_roundWithAccuracy, Int.neg_neg]

theorem abs_sub_comm (spec : Format) (x y : UnpackedFloat) :
    (sub spec x y).abs = (sub spec y x).abs := by
  cases x with
  | notANumber => cases y <;> rfl
  | infinity s =>
    cases y with
    | infinity t => cases s <;> cases t <;> rfl
    | _ => rfl
  | zero s =>
    cases y with
    | zero t => cases s <;> cases t <;> rfl
    | _ => rfl
  | finite s m e =>
    cases y with
    | finite t n f =>
      delta sub
      dsimp only
      rw [Int.min_comm f e, ← abs_normalize_neg]
      congr 2
      omega
    | _ => rfl

theorem abs_finite_congr {s t : Sign} {m n : Nat} {e f : Int} {hm : 0 < m} {hn : 0 < n} (hmn : m = n)
    (hef : e = f) : (finite s m e hm).abs = (finite t n f hn).abs := by
  subst hmn hef
  rfl

theorem abs_unpack_congr {spec : Format} {b c : BitVec spec.numBits}
    (hm : unpackMantissa b = unpackMantissa c) (he : unpackExponent b = unpackExponent c) :
    (unpack spec b).abs = (unpack spec c).abs := by
  have hexp : (unpackExponent b).toNat = (unpackExponent c).toNat := congrArg BitVec.toNat he
  unfold unpack
  dsimp only
  by_cases hone : unpackExponent c = -1#_
  · rw [if_pos (he.trans hone), if_pos hone]
    by_cases hzero : unpackMantissa c = 0#_
    · rw [if_pos (hm.trans hzero), if_pos hzero]
      rfl
    · rw [if_neg (by rwa [hm]), if_neg hzero]
  · rw [if_neg (by rwa [he]), if_neg hone]
    by_cases hsub : unpackExponent c = 0#_
    · rw [if_pos (he.trans hsub), if_pos hsub]
      by_cases hzero : unpackMantissa c = 0#_
      · rw [dif_pos (hm.trans hzero), dif_pos hzero]
        rfl
      · rw [dif_neg (by rwa [hm]), dif_neg hzero]
        exact abs_finite_congr (by rw [hm]) (by rw [hexp])
    · rw [if_neg (by rwa [he]), if_neg hsub]
      exact abs_finite_congr (by rw [hm]) (by rw [hexp])

theorem abs_unpack_packComponents (spec : Format) (s t : Sign) (e : BitVec spec.exponentBits)
    (m : BitVec spec.mantissaBitsWithoutImplicit) :
    (unpack spec (packComponents spec s e m)).abs = (unpack spec (packComponents spec t e m)).abs :=
  abs_unpack_congr (by simp) (by simp)

theorem abs_unpack_pack_congr (spec : Format) {x y : UnpackedFloat} (h : x.abs = y.abs) :
    (unpack spec (pack spec x)).abs = (unpack spec (pack spec y)).abs := by
  cases x with
  | notANumber =>
    cases y with
    | notANumber => rfl
    | _ => cases h
  | infinity s =>
    cases y with
    | infinity t => exact abs_unpack_packComponents ..
    | _ => cases h
  | zero s =>
    cases y with
    | zero t => exact abs_unpack_packComponents ..
    | _ => cases h
  | finite s m e =>
    cases y with
    | finite t n f =>
      obtain ⟨rfl, rfl⟩ : m = n ∧ e = f := by
        injection h with _ hm he
        exact ⟨hm, he⟩
      delta pack
      dsimp only
      split
      · exact abs_unpack_packComponents ..
      · split
        · exact abs_unpack_packComponents ..
        · exact abs_unpack_packComponents ..
    | _ => cases h

theorem mul_self_congr (spec : Format) {x y : UnpackedFloat} (h : x.abs = y.abs) :
    mul spec x x = mul spec y y := by
  cases x with
  | notANumber =>
    cases y with
    | notANumber => rfl
    | _ => cases h
  | infinity s =>
    cases y with
    | infinity t => cases s <;> cases t <;> rfl
    | _ => cases h
  | zero s =>
    cases y with
    | zero t => cases s <;> cases t <;> rfl
    | _ => cases h
  | finite s m e =>
    cases y with
    | finite t n f =>
      obtain ⟨rfl, rfl⟩ : m = n ∧ e = f := by
        injection h with _ hm he
        exact ⟨hm, he⟩
      cases s <;> cases t <;> rfl
    | _ => cases h

theorem sub_mul_self_comm (a b : Float) : (a - b) * (a - b) = (b - a) * (b - a) := by
  have h := abs_sub_comm Format.binary64 a.toModel.unpack b.toModel.unpack
  have hm := mul_self_congr Format.binary64 (abs_unpack_pack_congr Format.binary64 h)
  exact congrArg (fun u => Float.ofModel (Float.Model.pack u)) hm

end KeyboardPlate.Double

namespace KeyboardPlate.Point

theorem distance_comm (p q : Point Float) : p.distance q = q.distance p := by
  have h : (p - q).dot (p - q) = (q - p).dot (q - p) := by
    change (p.x - q.x) * (p.x - q.x) + (p.y - q.y) * (p.y - q.y) =
      (q.x - p.x) * (q.x - p.x) + (q.y - p.y) * (q.y - p.y)
    rw [Double.sub_mul_self_comm p.x, Double.sub_mul_self_comm p.y]
  unfold distance norm
  rw [h]

end KeyboardPlate.Point
