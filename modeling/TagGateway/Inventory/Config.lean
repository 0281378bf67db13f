import Std.Data.TreeMap
import TagGateway.Inventory.Mobility

set_option autoImplicit false

namespace TagGateway

structure InventoryConfig (R : Type) where
  departedSeconds : UInt32
  departedCheckSeconds : UInt32
  ageOutHours : UInt32
  /-- Whether times of readings are set right by the time of the batch that they came in. -/
  adjustByOrigin : Bool
  /-- Names for locations, by the text of each. -/
  aliases : Std.TreeMap String String
  mobility : Mobility R

inductive ConfigFault where
  | notPositive (field : String)
  | risingSlope
  | notFinite
  | noQueue
  deriving DecidableEq, Repr

def ConfigFault.message (fault : ConfigFault) : String :=
  "invalid config: " ++ match fault with
    | notPositive field => field ++ " must be positive"
    | risingSlope => "mobility slope must be zero or negative"
    | notFinite => "mobility values must be finite"
    | noQueue => "queue capacities must be positive"

def locationText (device : String) (antenna : UInt16) : String :=
  device ++ "_" ++ toString antenna.toNat

namespace InventoryConfig

variable {R : Type} [Level R]

def default : InventoryConfig R :=
  { departedSeconds := 600, departedCheckSeconds := 30, ageOutHours := 336, adjustByOrigin := true,
    aliases := ∅, mobility := Mobility.default }

def validate (c : InventoryConfig R) : Except ConfigFault Unit :=
  if c.departedSeconds = 0 then .error (.notPositive "departed_threshold_seconds")
  else if c.departedCheckSeconds = 0 then .error (.notPositive "departed_check_interval_seconds")
  else if c.ageOutHours = 0 then .error (.notPositive "age_out_hours")
  else if !Level.isFinite c.mobility.slope || Level.lt (Level.ofInt 0) c.mobility.slope then
    .error .risingSlope
  else if !Level.isFinite c.mobility.threshold || !Level.isFinite c.mobility.holdoff then
    .error .notFinite
  else .ok ()

def departedMillis (c : InventoryConfig R) : Int := c.departedSeconds.toNat * 1000

def ageOutMillis (c : InventoryConfig R) : Int := c.ageOutHours.toNat * 3600 * 1000

def locationName (c : InventoryConfig R) (device : String) (antenna : UInt16) : String :=
  match c.aliases[locationText device antenna]? with
  | some name => if name = "" then locationText device antenna else name
  | none => locationText device antenna

omit [Level R]

variable {c : InventoryConfig R} {device : String} {antenna : UInt16}

theorem locationName_of_alias {name : String}
    (h : c.aliases[locationText device antenna]? = some name) (hname : name ≠ "") :
    c.locationName device antenna = name := by
  simp [locationName, h, hname]

theorem locationName_of_no_alias
    (h : ∀ name, c.aliases[locationText device antenna]? = some name → name = "") :
    c.locationName device antenna = locationText device antenna := by
  unfold locationName
  split
  · next name hname => rw [if_pos (h name hname)]
  · rfl

end InventoryConfig

end TagGateway
