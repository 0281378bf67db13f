import TagGateway.Text.Octets

set_option autoImplicit false

namespace TagGateway

structure CustomParameter where
  vendor : UInt32
  subtype : UInt32
  data : Octets := {}
  deriving DecidableEq, Repr

def CustomParameter.isOf (p : CustomParameter) (vendor subtype : UInt32) : Bool :=
  p.vendor == vendor && p.subtype == subtype

structure ShortEpc where
  epc : Octets
  deriving DecidableEq, Repr

structure LongEpc where
  epc : Octets
  bitLength : UInt16 := 0
  deriving DecidableEq, Repr

structure MemoryRead where
  /-- Zero for success. -/
  status : UInt8
  opSpec : UInt16
  words : List UInt16 := []
  deriving DecidableEq, Repr

/-- The fields that a reader may leave out of a reading when they are as in the one before. Times
are in microseconds. -/
structure ReportFields where
  roSpec : Option UInt32 := none
  specIndex : Option UInt16 := none
  inventorySpec : Option UInt16 := none
  antenna : Option UInt16 := none
  peakRssi : Option Int8 := none
  channel : Option UInt16 := none
  firstSeenUtc : Option UInt64 := none
  firstSeenUptime : Option UInt64 := none
  lastSeenUtc : Option UInt64 := none
  lastSeenUptime : Option UInt64 := none
  seenCount : Option UInt16 := none
  accessSpec : Option UInt32 := none
  deriving DecidableEq, Repr

structure Reading where
  shortEpc : Option ShortEpc := none
  longEpc : Option LongEpc := none
  fields : ReportFields := {}
  memory : List MemoryRead := []
  custom : List CustomParameter := []
  deriving DecidableEq, Repr

def wordOctets (words : List UInt16) : List UInt8 :=
  words.flatMap fun w => [UInt8.ofNat (w.toNat / 256), UInt8.ofNat (w.toNat % 256)]

def MemoryRead.hex (read : MemoryRead) : String := Octets.hex ⟨wordOctets read.words⟩

namespace Reading

/-- The tag's identity: the short EPC if the reading has one, else the long one unless it is
empty. -/
def epc? (r : Reading) : Option String :=
  match r.shortEpc with
  | some short => some short.epc.hex
  | none => (r.longEpc.filter fun long => !long.epc.toList.isEmpty).map fun long => long.epc.hex

/-- The chip's identity: the first memory read that succeeded and gave any words. -/
def tid? (r : Reading) : Option String :=
  (r.memory.find? fun read => read.status == 0 && !read.words.isEmpty).map MemoryRead.hex

def timestamp? (r : Reading) : Option UInt64 := r.fields.lastSeenUtc <|> r.fields.firstSeenUtc

end Reading

end TagGateway
