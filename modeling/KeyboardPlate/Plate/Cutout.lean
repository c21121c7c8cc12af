import KeyboardPlate.Key
import KeyboardPlate.Options.Basic
import KeyboardPlate.Plate.Error
import KeyboardPlate.Plate.Rectangle

/-!
# Cutouts beside a switch

Stabilizers and acoustic reliefs are a pair of equal holes at some distance to both sides of a switch.
A table decides about that distance by the size of the key.
-/

set_option autoImplicit false

namespace KeyboardPlate

/-- The shape of a pair of holes. -/
structure CutoutProfile where
  width : Decimal
  upper : Decimal
  lower : Decimal
  /-- Least sizes of keys, in descending order, and how far from the switch the holes then are. The
  first size that a key reaches counts; without a distance it gets no holes. -/
  spacing : List (Decimal × Option Decimal)

namespace StabilizerType

def mxSpacing : List (Decimal × Option Decimal) :=
  [(8, some 66.675), (7, some 57.15), (6.25, some 50), (6, some 47.625), (3, some 19.05), (2, some 11.938)]

def aekSpacing : List (Decimal × Option Decimal) :=
  [(6.5, some 45.3), (6.25, some 41.86), (2, some 14), (1.75, some 12)]

def at101Spacing : List (Decimal × Option Decimal) :=
  [(6.5, some 45.3), (6.25, some 41.86), (2.75, some 20.5), (2, some 14), (1.75, some 12)]

/-- The holes of a stabilizer. -/
def profile? : StabilizerType → Option CutoutProfile
  | mxBasic => some ⟨7, 6, -8, mxSpacing⟩
  | mxSmall => some ⟨6.75, 5.53, -6.77, mxSpacing⟩
  | mxSpec => some ⟨6.75, 6.77, -7.97, mxSpacing⟩
  | alpsAek => some ⟨2.67, -3.875, -9.085, aekSpacing⟩
  | alpsAt101 => some ⟨2.67, -3.875, -9.085, at101Spacing⟩
  | none => Option.none

end StabilizerType

namespace AcousticType

/-- The holes of an acoustic relief. -/
def profile? : AcousticType → Option CutoutProfile
  | none => Option.none
  | mxBasic => some ⟨2, 6, -6, [(3, Option.none), (2, some 18.25)]⟩
  | mxExtreme => some ⟨2, 7, -7, [(3, Option.none), (2, some 18.25), (1.5, some 10.75)]⟩

end AcousticType

namespace CutoutProfile

/-- How far from the switch the holes of a key of this size are. -/
def spacingFor (p : CutoutProfile) (size : Decimal) : Option Decimal :=
  (p.spacing.find? fun entry => entry.1 ≤ size).bind (·.2)

variable {α : Type} [Scalar α]

/-- One hole about the origin. -/
def hole (p : CutoutProfile) (radius : Decimal) : Except (PlateError α) (Model α) := do
  let half ← Plate.length p.width.half?
  let sharp : Model α := .rectangle (Scalar.ofDecimal (-half)) (Scalar.ofDecimal half)
    (Scalar.ofDecimal p.upper) (Scalar.ofDecimal p.lower)
  if 0 < radius then Plate.geometry (sharp.filletCorners (Scalar.ofDecimal radius)) else return sharp

/-- The holes of a key about the origin, if it gets any. -/
def cutout (p : CutoutProfile) (k : Key) (radius : Decimal) : Except (PlateError α) (Option (Model α)) :=
  match p.spacingFor k.longAxis with
  | none => .ok none
  | some spacing => do
    let hole ← p.hole radius
    let left := hole.moveTo ⟨Scalar.ofDecimal (-spacing), 0.0⟩
    let right := hole.moveTo ⟨Scalar.ofDecimal spacing, 0.0⟩
    let pair : Model α := { children := [("left", left), ("right", right)] }
    return some (if k.isVertical then pair.rotate (-90.0) .zero else pair)

end CutoutProfile

namespace Key
variable {α : Type} [Scalar α]

/-- The cutout for the stabilizer of a key. -/
def stabilizer (k : Key) (o : Options) : Except (PlateError α) (Option (Model α)) :=
  match o.stabilizerCutoutType.profile? with
  | none => .ok none
  | some p => p.cutout k o.stabilizerFilletRadius

/-- The acoustic relief of a key. -/
def acoustic (k : Key) (o : Options) : Except (PlateError α) (Option (Model α)) :=
  match o.acousticCutoutType.profile? with
  | none => .ok none
  | some p => p.cutout k o.acousticFilletRadius

end Key

end KeyboardPlate
