import KeyboardPlate.Drawing.Number

/-!
# SVG drawings

The drawing is moved so that its extents start at zero, and turned upside down, since the ordinates of
SVG grow downward. Each layer that has paths is one element, in the order of the layers.
-/

set_option autoImplicit false

namespace KeyboardPlate.Drawing

/-- What an SVG drawing is for. -/
inductive SvgStyle where
  /-- White strokes, scaled to what holds the drawing. -/
  | preview
  /-- Black strokes in true size. -/
  | download
deriving Repr, DecidableEq

namespace Svg
variable {α : Type} [Scalar α]

/-- The numbers of a path that are looked at, with what they are for. The angles of an arc are not. -/
def numbers : Path α → List (String × α)
  | .line l => [("line x1", l.start.x), ("line y1", l.start.y), ("line x2", l.stop.x), ("line y2", l.stop.y)]
  | .arc a => [("arc cx", a.center.x), ("arc cy", a.center.y), ("arc r", a.radius)]

/-- A point in the frame of the drawing. -/
def place (box : Box α) (p : Point α) : Point α := ⟨p.x - box.low.x, box.high.y - p.y⟩

def pointText (text : α → String) (p : Point α) : String := text p.x ++ " " ++ text p.y

/-- The part of an arc command before its end point: radii, no rotation, the larger or the smaller arc,
and the direction that is clockwise upside down. -/
def arcCommand (text : α → String) (radius : α) (large : Bool) : String :=
  " A " ++ text radius ++ " " ++ text radius ++ " 0 " ++ (if large then "1" else "0") ++ " 0 "

/-- The commands that draw a path. A full circle is two arcs. -/
def commands (text : α → String) (box : Box α) : Path α → String
  | .line l => "M " ++ pointText text (place box l.start) ++ " L " ++ pointText text (place box l.stop)
  | .arc a =>
    let radius := Quantity.abs a.radius
    let start := pointText text (place box a.start)
    if 360.0 ≤ a.span then
      let opposite := pointText text (place box (a.center.onCircle a.radius (a.startAngle + 180.0)))
      "M " ++ start ++ arcCommand text radius false ++ opposite ++ arcCommand text radius false ++ start
    else
      "M " ++ start ++ arcCommand text radius (decide (180.0 < a.span)) ++
        pointText text (place box a.stop)

/-- The commands of a path in place, if its numbers are finite. -/
def subpath (text : α → String) (box : Box α) (w : WalkedPath α) : Except ExportError String := do
  checkFinite w.route (numbers w.path)
  return commands text box w.path

/-- Path data with more commands behind them. No commands add nothing, not even a space. -/
def pushSubpath (data commands : String) : String :=
  if commands.isEmpty then data
  else (if data.isEmpty then data else data ++ " ") ++ commands

/-- The path data of a layer. -/
def layerData (text : α → String) (box : Box α) (walk : List (WalkedPath α)) (layer : Layer) :
    Except ExportError String :=
  (walk.filter fun w => w.layer = layer).foldlM (fun data w => return pushSubpath data (← subpath text box w)) ""

/-- The element of a layer, if it has path data. -/
def element (text : α → String) (box : Box α) (walk : List (WalkedPath α)) (layer : Layer) :
    Except ExportError String := do
  let data ← layerData text box walk layer
  if data.isEmpty then return ""
  else
    return "<path id=\"" ++ layer.name ++ "\" d=\"" ++ data ++ "\" vector-effect=\"non-scaling-stroke\"/>"

/-- The text before the elements. -/
def opening (style : SvgStyle) (width height : String) : String :=
  let size := match style with
    | .preview => "<svg width=\"100%\" height=\"100%\""
    | .download => "<svg width=\"" ++ width ++ "mm\" height=\"" ++ height ++ "mm\""
  let (color, stroke) := match style with
    | .preview => ("#fff", "0.5mm")
    | .download => ("#000", "0.25mm")
  size ++ " viewBox=\"0 0 " ++ width ++ " " ++ height ++ "\" xmlns=\"http://www.w3.org/2000/svg\">" ++
    "<g id=\"svgGroup\" stroke-linecap=\"round\" fill-rule=\"evenodd\" stroke=\"" ++ color ++
    "\" stroke-width=\"" ++ stroke ++ "\" fill=\"none\" style=\"stroke:" ++ color ++ ";stroke-width:" ++
    stroke ++ ";fill:none\">"

end Svg

/-- The SVG text of a drawing whose numbers are written by `text`. -/
def svgWith {α : Type} [Scalar α] (text : α → String) (style : SvgStyle) (m : Model α) :
    Except ExportError String :=
  match m.extents with
  | none => .error .empty
  | some box => do
    let elements ← Layer.all.mapM (Svg.element text box m.walk)
    return Svg.opening style (text (box.high.x - box.low.x)) (text (box.high.y - box.low.y)) ++
      String.join elements ++ "</g></svg>"

/-- The SVG text of a drawing. -/
def svg (style : SvgStyle) (m : Model Float) : Except ExportError String := svgWith numberText style m

end KeyboardPlate.Drawing
