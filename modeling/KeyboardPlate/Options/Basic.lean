import KeyboardPlate.Decimal.Basic

/-!
# Options of a plate

All lengths are in millimetres. Every option has a default.
-/

set_option autoImplicit false

namespace KeyboardPlate

/-- The shape of the cutouts that take a key's stabilizer. -/
inductive StabilizerType where
  | mxBasic
  | mxSmall
  | mxSpec
  | alpsAek
  | alpsAt101
  | none
deriving Repr, DecidableEq

/-- The shape of the acoustic relief cutouts beside a key. -/
inductive AcousticType where
  | none
  | mxBasic
  | mxExtreme
deriving Repr, DecidableEq

namespace StabilizerType

def all : List StabilizerType := [mxBasic, mxSmall, mxSpec, alpsAek, alpsAt101, none]

def name : StabilizerType → String
  | mxBasic => "mx-basic"
  | mxSmall => "mx-small"
  | mxSpec => "mx-spec"
  | alpsAek => "alps-aek"
  | alpsAt101 => "alps-at101"
  | none => "none"

def ofName? (name : String) : Option StabilizerType := all.find? fun kind => kind.name == name

theorem ofName?_name (kind : StabilizerType) : ofName? kind.name = some kind := by
  cases kind <;> decide

end StabilizerType

namespace AcousticType

def all : List AcousticType := [none, mxBasic, mxExtreme]

def name : AcousticType → String
  | none => "none"
  | mxBasic => "mx-basic"
  | mxExtreme => "mx-extreme"

def ofName? (name : String) : Option AcousticType := all.find? fun kind => kind.name == name

theorem ofName?_name (kind : AcousticType) : ofName? kind.name = some kind := by
  cases kind <;> decide

end AcousticType

structure Options where
  switchHeight : Decimal := 14
  switchWidth : Decimal := 14
  switchFilletRadius : Decimal := 0.5
  switchDogbone : Bool := true
  switchPattern : Bool := false
  switchLineWidth : Decimal := 0.5
  switchSolderMaskExpansion : Decimal := 0.051
  stabilizerCutoutType : StabilizerType := .mxBasic
  stabilizerFilletRadius : Decimal := 0.5
  stabilizerPattern : Bool := false
  stabilizerLineWidth : Decimal := 0.5
  stabilizerSolderMaskExpansion : Decimal := 0.051
  acousticCutoutType : AcousticType := .none
  acousticFilletRadius : Decimal := 0.5
  acousticPattern : Bool := false
  acousticLineWidth : Decimal := 0.5
  acousticSolderMaskExpansion : Decimal := 0.051
  extremeSlot : Bool := false
  slotWidth : Decimal := 1
  switchHousingWidth : Decimal := 1
  connectorWidth : Decimal := 1.2
  slotPattern : Bool := false
  slotLineWidth : Decimal := 0.5
  slotSolderMaskExpansion : Decimal := 0.051
  slotPatternRadius : Decimal := 0.25
  plateRadius : Decimal := 1
  platePattern : Bool := false
  plateLineWidth : Decimal := 1
  plateSolderMaskExpansion : Decimal := 0.051
  platePatternRadius : Decimal := 0.5
  unitWidth : Decimal := 19.05
  unitHeight : Decimal := 19.05
deriving DecidableEq

instance : Inhabited Options := ⟨{}⟩

end KeyboardPlate
