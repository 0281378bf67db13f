import TagGateway.Inventory.Window
import TagGateway.Overflow

/-!
How strongly a tag holds on to its location. Another location takes the tag over when it hears the
tag more strongly by more than a weight, which falls with the time since the current location heard
it last. For a while after that the weight stays at its ceiling.
-/

set_option autoImplicit false

namespace TagGateway

structure Mobility (R : Type) where
  /-- In dBm per millisecond, zero or negative. -/
  slope : R
  threshold : R
  /-- How long the weight stays at its ceiling, in milliseconds. -/
  holdoff : R

namespace Mobility

variable {R : Type} [Level R]

def default : Mobility R :=
  { slope := Level.ratio (-8) 1000, threshold := Level.ofInt 6, holdoff := Level.ofInt 500 }

def intercept (m : Mobility R) : R := m.threshold - m.slope * m.holdoff

def weightAfter (m : Mobility R) (elapsed : Int) : R :=
  let weight := m.slope * Level.ofInt elapsed + m.intercept
  if Level.le weight m.threshold then weight else m.threshold

def weight (m : Mobility R) (reference lastRead : Int) : Except Overflow R := do
  let elapsed ← difference reference lastRead
  .ok (m.weightAfter elapsed)

end Mobility

end TagGateway
