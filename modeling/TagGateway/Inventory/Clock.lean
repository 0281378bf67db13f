import TagGateway.Overflow
import TagGateway.Reading.Basic

/-!
When a reading takes effect. A batch carries the receiver's time, in nanoseconds, and each of its
readings may carry a time of the reader's clock, in microseconds. The latest of these is taken to
be the time of the batch, and the others are moved along with it.
-/

set_option autoImplicit false

namespace TagGateway

def originMillis (origin : Int64) : Int := origin.toInt.tdiv 1000000

def originMicros (origin : Int64) : Int := origin.toInt.tdiv 1000

/-- When a reading was made by the reader's clock. A time beyond 63 bits is none. -/
def Reading.seenMicros? (r : Reading) : Option Int :=
  (r.timestamp?.map fun t => (t.toNat : Int)).filter fitsWord

def clockOffset (origin : Int64) (batch : List Reading) : Int :=
  match (batch.filterMap Reading.seenMicros?).max? with
  | some latest => clampWord (originMicros origin - latest)
  | none => 0

def effectiveMillis (origin : Int64) (offset : Int) (r : Reading) : Int64 :=
  match r.seenMicros? with
  | some t => Int64.ofInt ((clampWord (t + offset)).tdiv 1000)
  | none => Int64.ofInt (originMillis origin)

end TagGateway
