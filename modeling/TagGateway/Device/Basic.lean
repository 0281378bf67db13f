import TagGateway.Device.Impinj

set_option autoImplicit false

namespace TagGateway

inductive Vendor where
  | generic
  | impinj
  deriving DecidableEq, Repr

def Vendor.name : Vendor → String
  | generic => "generic"
  | impinj => "impinj"

def Vendor.ofManufacturer (manufacturer : UInt32) : Vendor :=
  if manufacturer = Impinj.vendor then .impinj else .generic

def Vendor.reportsAllFields : Vendor → Bool
  | generic => false
  | impinj => true

structure Device where
  vendor : Vendor
  model : DeviceModel
  deriving DecidableEq

namespace Device

def ofVendor (vendor : Vendor) (caps : Capabilities) : Except BehaviorError Device := do
  let standard ← DeviceModel.ofCapabilities caps
  let model ← match vendor with
    | .generic => .ok standard
    | .impinj => Impinj.refine standard
  .ok { vendor, model }

def ofCapabilities (caps : Capabilities) : Except BehaviorError Device := do
  let general ← Option.need .general caps.general
  ofVendor (.ofManufacturer general.manufacturer) caps

def config (d : Device) : ReaderConfig :=
  match d.vendor with
  | .generic => d.model.config
  | .impinj => Impinj.config d.model

def compile (d : Device) (b : Behavior) (e : Environment) : Except BehaviorError RoSpec :=
  match d.vendor with
  | .generic => d.model.compile b e
  | .impinj => Impinj.compile d.model b e

end Device

end TagGateway
