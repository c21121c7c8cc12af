/-!
# Layers of a plate drawing
-/

set_option autoImplicit false

namespace KeyboardPlate

inductive Layer where
  | plate
  | top
  | bottom
  | topSolderMask
  | bottomSolderMask
deriving Repr, DecidableEq

namespace Layer

/-- The order in which drawings list the layers. -/
def all : List Layer := [plate, top, bottom, topSolderMask, bottomSolderMask]

theorem mem_all (layer : Layer) : layer ∈ all := by cases layer <;> decide

def name : Layer → String
  | plate => "plate"
  | top => "top"
  | bottom => "bottom"
  | topSolderMask => "topSolderMask"
  | bottomSolderMask => "bottomSolderMask"

def ofName? (name : String) : Option Layer := all.find? fun layer => layer.name == name

theorem ofName?_name (layer : Layer) : ofName? layer.name = some layer := by
  cases layer <;> decide

end Layer

end KeyboardPlate
