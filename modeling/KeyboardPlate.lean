import KeyboardPlate.Files.Tree
import KeyboardPlate.Main
import KeyboardPlate.Proofs.Layout.Event
import KeyboardPlate.Proofs.Layout.Reading
import KeyboardPlate.Proofs.Contour.Loop
import KeyboardPlate.Proofs.Contour.Degree
import KeyboardPlate.Proofs.Plate.Blocks
import KeyboardPlate.Proofs.Plate.Build
import KeyboardPlate.Proofs.Drawing.Refusal
import KeyboardPlate.Proofs.Drawing.Entity
import KeyboardPlate.Proofs.Drawing.Element
import KeyboardPlate.Proofs.Json.RoundTrip
import KeyboardPlate.Proofs.Model.RoundTrip
import KeyboardPlate.Proofs.Plate.Nesting
import KeyboardPlate.Proofs.Plate.RoundTrip
import KeyboardPlate.Proofs.Plate.Overflow
import KeyboardPlate.Proofs.Layout.Rows
import KeyboardPlate.Proofs.Plate.Bounds
import KeyboardPlate.Proofs.Plate.Drawn
import KeyboardPlate.Proofs.Model.Walk
import KeyboardPlate.Proofs.Plate.Layers
import KeyboardPlate.Proofs.Layout.Faults
import KeyboardPlate.Proofs.Layout.Bare
import KeyboardPlate.Proofs.Command.Build
import KeyboardPlate.Proofs.Plate.Moderate
import KeyboardPlate.Proofs.Layout.Place
import KeyboardPlate.Proofs.Model.Turn
import KeyboardPlate.Proofs.Layout.Presentation
import KeyboardPlate.Proofs.Layout.Reach
import KeyboardPlate.Proofs.Layout.Split
import KeyboardPlate.Proofs.Decimal.Rounding
import KeyboardPlate.Proofs.Geometry.Heading
import KeyboardPlate.Proofs.Plate.Center
import KeyboardPlate.Proofs.Geometry.Corner
import KeyboardPlate.Proofs.Geometry.Ring
import KeyboardPlate.Proofs.Plate.Rounded
import KeyboardPlate.Proofs.Plate.Aperture
import KeyboardPlate.Proofs.Plate.Sheet
import KeyboardPlate.Proofs.Geometry.Semicircle
import KeyboardPlate.Proofs.Plate.SlotCorner
import KeyboardPlate.Proofs.Plate.Slot
import KeyboardPlate.Proofs.Model.InPlace
import KeyboardPlate.Proofs.Geometry.RightAngle
import KeyboardPlate.Proofs.Contour.Outline
import KeyboardPlate.Proofs.Plate.Concentric
import KeyboardPlate.Proofs.Model.Extents
import KeyboardPlate.Proofs.Options.Members
import KeyboardPlate.Proofs.Layout.Number
import KeyboardPlate.Proofs.Plate.Skipped
