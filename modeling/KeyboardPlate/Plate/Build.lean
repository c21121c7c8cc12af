import KeyboardPlate.Plate.Aperture
import KeyboardPlate.Plate.Cutout
import KeyboardPlate.Plate.Pattern
import KeyboardPlate.Plate.Slot

/-!
# Plates

A plate holds a block of drawings for each key, in the order of the keys, then its own outline and the
pattern along its edge. Every drawing has a name and a layer.
-/

set_option autoImplicit false

namespace KeyboardPlate

structure Plate (α : Type) where
  models : Named (Model α)
  bounds : Bounds

namespace Plate
variable {α : Type}

/-- The whole drawing. -/
def toModel (p : Plate α) : Model α := { children := p.models }

/-- The layer of a drawing that has none of its own. -/
def withDefaultLayer (m : Model α) : Model α :=
  match m.layer with
  | some _ => m
  | none => m.withLayer .plate

/-- The drawings on a layer. -/
def modelsOn (p : Plate α) (layer : Layer) : Named (Model α) :=
  p.models.filter fun entry => entry.2.layer.getD .plate = layer

variable [Scalar α]

/-- Where the cutouts of a key stand and how they are turned. -/
structure Pose (α : Type) where
  origin : Point α
  switchAngle : α
  cutoutAngle : α

/-- The pose of a key. Drawings are upside down, and the angles of keys run clockwise. -/
def pose (o : Options) (id : Nat) (k : Key) : Except (PlateError α) (Pose α) := do
  let inRange (x : Option Decimal) : Except (PlateError α) Decimal :=
    match x with
    | some d => .ok d
    | none => .error (.keyOutOfRange id)
  let x ← inRange (k.centerX.mul? o.unitWidth)
  let y ← inRange (k.centerY.mul? o.unitHeight)
  let switchAngle ← inRange (k.angle.add? k.switchAngle)
  let cutoutAngle ← inRange (k.angle.add? k.stabilizerAngle)
  return {
    origin := ⟨Scalar.ofDecimal x, Scalar.ofDecimal (-y)⟩
    switchAngle := Scalar.ofDecimal (-switchAngle)
    cutoutAngle := Scalar.ofDecimal (-cutoutAngle) }

/-- The pattern around a drawing, if it is wanted. -/
def patternIf (wanted : Bool) (base : Model α) (lineWidth expansion : Decimal) (word suffix : String) :
    Except (PlateError α) (List (String × Model α)) := do
  if wanted then return (← Pattern.around base lineWidth expansion).entries word suffix else return []

/-- A drawing and, if it is wanted, the pattern around it. -/
def withPattern (wanted : Bool) (m : Model α) (lineWidth expansion : Decimal) (word patternWord suffix : String) :
    Except (PlateError α) (List (String × Model α)) := do
  return (word ++ suffix, m) :: (← patternIf wanted m lineWidth expansion patternWord suffix)

/-- The aperture of a key and its pattern. -/
def switchBlock (o : Options) (suffix : String) (p : Pose α) (k : Key) :
    Except (PlateError α) (List (String × Model α)) := do
  let m := ((← k.aperture o).rotate p.switchAngle .zero).moveTo p.origin
  withPattern o.switchPattern m o.switchLineWidth o.switchSolderMaskExpansion "Switch" "Switch" suffix

/-- A cutout beside a switch, in place. -/
def placeCutout (p : Pose α) (m : Model α) : Model α :=
  ((m.moveTo p.origin).rotate p.cutoutAngle p.origin).withLayer .plate

/-- The cutouts beside a switch, if there are any, and their pattern. -/
def cutoutBlock (cutout : Except (PlateError α) (Option (Model α))) (wanted : Bool)
    (lineWidth expansion : Decimal) (word suffix : String) (p : Pose α) :
    Except (PlateError α) (List (String × Model α)) := do
  match ← cutout with
  | none => return []
  | some cutout => withPattern wanted (placeCutout p cutout) lineWidth expansion word word suffix

/-- The stabilizer of a key and its pattern. -/
def stabilizerBlock (o : Options) (suffix : String) (p : Pose α) (k : Key) :
    Except (PlateError α) (List (String × Model α)) :=
  cutoutBlock (k.stabilizer o) o.stabilizerPattern o.stabilizerLineWidth o.stabilizerSolderMaskExpansion
    "Stabilizer" suffix p

/-- The acoustic relief of a key and its pattern. -/
def acousticBlock (o : Options) (suffix : String) (p : Pose α) (k : Key) :
    Except (PlateError α) (List (String × Model α)) :=
  cutoutBlock (k.acoustic o) o.acousticPattern o.acousticLineWidth o.acousticSolderMaskExpansion
    "Acoustic" suffix p

/-- The pattern at the corners of a switch housing, if it is wanted. -/
def cornerBlock (o : Options) (suffix : String) (p : Pose α) : Except (PlateError α) (List (String × Model α)) := do
  if o.slotPattern && decide (0 < o.slotPatternRadius) then
    return ((← Pattern.ofSlotCorners o).place p.switchAngle p.origin).entries "Slot" ("Corner" ++ suffix)
  else return []

/-- The slots around a key's switch, their pattern, and the pattern at the corners of its housing. -/
def slotBlock (o : Options) (suffix : String) (p : Pose α) : Except (PlateError α) (List (String × Model α)) := do
  if o.extremeSlot then
    let m := (((← o.slots).rotate p.switchAngle .zero).moveTo p.origin).withLayer .plate
    let block ← withPattern o.slotPattern m o.slotLineWidth o.slotSolderMaskExpansion "ExtremeSlot" "Slot" suffix
    return block ++ (← cornerBlock o suffix p)
  else return []

/-- All drawings of the key with a number. -/
def keyBlock (o : Options) (id : Nat) (k : Key) : Except (PlateError α) (List (String × Model α)) := do
  let p ← pose o id k
  let suffix := toString id
  let switch ← switchBlock o suffix p k
  let stabilizer ← stabilizerBlock o suffix p k
  let acoustic ← acousticBlock o suffix p k
  let slot ← slotBlock o suffix p
  return switch ++ stabilizer ++ acoustic ++ slot

/-- The bounds and the drawings of the keys from the number `id` on. -/
def keyBlocks (o : Options) (id : Nat) : List Key → Except (PlateError α) (List (Bounds × List (String × Model α)))
  | [] => .ok []
  | k :: rest =>
    match Bounds.ofKey? k o with
    | none => .error (.keyOutOfRange id)
    | some bounds => do
      let block ← keyBlock o id k
      return (bounds, block) :: (← keyBlocks o (id + 1) rest)

/-- The outline of the plate. -/
def edge (b : Bounds) (o : Options) : Except (PlateError α) (Model α) := do
  let sharp : Model α := .rectangle (Scalar.ofDecimal b.minX) (Scalar.ofDecimal b.maxX)
    (Scalar.ofDecimal (-b.maxY)) (Scalar.ofDecimal (-b.minY))
  let m ← if 0 < o.plateRadius then geometry (sharp.filletCorners (Scalar.ofDecimal o.plateRadius)) else pure sharp
  return m.withLayer .plate

/-- The drawings that belong to the plate as a whole. -/
def ownBlock (b : Bounds) (o : Options) : Except (PlateError α) (List (String × Model α)) := do
  let outline ← edge b o
  let pattern ← if o.platePattern then do pure ((← Pattern.ofPlate b o).entries "Plate" "") else pure []
  return ("BoundingBox0", outline) :: pattern

/-- The plate for some keys. -/
def build (keys : List Key) (o : Options) : Except (PlateError α) (Plate α) := do
  let blocks ← keyBlocks o 0 keys
  match Bounds.union? (blocks.map (·.1)) with
  | none => throw .emptyLayout
  | some bounds =>
    if bounds.width?.isNone || bounds.height?.isNone then throw .extentOutOfRange
    else
      let own ← ownBlock bounds o
      let entries := blocks.flatMap (·.2) ++ own
      return ⟨(Named.ofEntries entries).map fun (name, m) => (name, withDefaultLayer m), bounds⟩

end Plate

end KeyboardPlate
