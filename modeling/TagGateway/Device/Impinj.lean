import TagGateway.Scan.Compile

/-!
What Impinj readers do beyond the standard: parameters of their own in readings, in configurations
and in operations, and a table of radio modes that needs mending before it can be compared.
-/

set_option autoImplicit false

namespace TagGateway.Impinj

def vendor : UInt32 := 25882

def searchMode : UInt32 := 23
def contentSelector : UInt32 := 50
def enableSerializedTid : UInt32 := 51
def enablePeakRssi : UInt32 := 53
def serializedTid : UInt32 := 55
def peakRssi : UInt32 := 57

/-- Modes from here on are names for a choice that the reader makes. -/
def firstAutomaticMode : UInt32 := 1000

def find? (custom : List CustomParameter) (subtype : UInt32) : Option CustomParameter :=
  custom.find? (·.isOf vendor subtype)

def word (high low : UInt8) : UInt16 := UInt16.ofNat (256 * high.toNat + low.toNat)

/-- The words of as many pairs of octets as there are; an odd last one is left out. -/
def words : List UInt8 → List UInt16
  | high :: low :: rest => word high low :: words rest
  | _ => []

/-- The peak strength of a reading, in hundredths of a dBm: a signed word at the front of its
parameter. -/
def peakRssi? (custom : List CustomParameter) : Option Int :=
  match (find? custom peakRssi).map (·.data.toList) with
  | some (high :: low :: _) => some (word high low).toInt16.toInt
  | _ => none

/-- The chip's identity, reported with the EPC: how many words it has, which must not be none, and
then at least those. -/
def serializedTid? (custom : List CustomParameter) : Option (List UInt16) :=
  match (find? custom serializedTid).map (·.data.toList) with
  | some (high :: low :: rest) =>
    let count := (word high low).toNat
    if count = 0 ∨ rest.length < 2 * count then none else some ((words rest).take count)
  | _ => none

theorem word_octets (w : UInt16) :
    word (UInt8.ofNat (w.toNat / 256)) (UInt8.ofNat (w.toNat % 256)) = w := by
  have hw : w.toNat < 65536 := w.toNat_lt
  have hh : (UInt8.ofNat (w.toNat / 256)).toNat = w.toNat / 256 := by
    simp [UInt8.toNat_ofNat']; omega
  have hl : (UInt8.ofNat (w.toNat % 256)).toNat = w.toNat % 256 := by
    simp [UInt8.toNat_ofNat']
  have hs : 256 * (w.toNat / 256) + w.toNat % 256 = w.toNat := by omega
  rw [word, hh, hl, hs, UInt16.ofNat_toNat]

theorem words_append (ws : List UInt16) (octets : List UInt8) :
    words (wordOctets ws ++ octets) = ws ++ words octets := by
  induction ws with
  | nil => rfl
  | cons w rest ih =>
    change word _ _ :: words (wordOctets rest ++ octets) = _
    rw [ih, word_octets, List.cons_append]

def searchWord : ScanType → UInt16
  | .normal => 1
  | .fast | .deep => 2

def searchParameter (scan : ScanType) : CustomParameter :=
  { vendor, subtype := searchMode, data := ⟨wordOctets [searchWord scan]⟩ }

def switch (subtype : UInt32) (on : Bool) : CustomParameter :=
  { vendor, subtype, data := ⟨wordOctets [if on then 1 else 0]⟩ }

def halves (n : UInt32) : List UInt16 :=
  [UInt16.ofNat (n.toNat / 65536), UInt16.ofNat (n.toNat % 65536)]

def customType : UInt16 := 1023
def headerLength : Nat := 12

def nested (p : CustomParameter) : List UInt8 :=
  wordOctets (customType :: UInt16.ofNat (headerLength + p.data.toList.length)
    :: (halves p.vendor ++ halves p.subtype)) ++ p.data.toList

def selector (fastId : Bool) : CustomParameter :=
  { vendor, subtype := contentSelector
    data := ⟨nested (switch enablePeakRssi true) ++ nested (switch enableSerializedTid fastId)⟩ }

/-- A mode with its rate in bits: the reader reports the frequency of symbols. -/
def bitRate (m : RfMode) : RfMode :=
  { m with backscatterRate := m.backscatterRate / m.modulation.symbolsPerBit }

def modes (reported : List RfMode) : List RfMode :=
  (reported.filter fun m => m.id < firstAutomaticMode).map bitRate

def refine (d : DeviceModel) : Except BehaviorError DeviceModel :=
  if h : modes d.modes = [] then .error (.missing .modeTable)
  else .ok
    { d with
      modes := modes d.modes
      modes_ne := h
      modes_fit := fun m hm => by
        obtain ⟨r, hr, rfl⟩ := List.mem_map.1 hm
        exact d.modes_fit r (List.mem_filter.1 hr).1 }

def report (d : DeviceModel) (fastId : Bool) : ReportSpec :=
  { d.report with custom := [selector fastId] }

def config (d : DeviceModel) : ReaderConfig := { d.config with report := some (report d false) }

/-- The command of a scan. How to search takes the place of states in the standard's command. -/
def command (b : Behavior) (e : Environment) (rf : RfControl) : InventoryCommand :=
  { DeviceModel.oneTargetCommand b e rf with custom := [searchParameter b.scan] }

def compile (d : DeviceModel) (b : Behavior) (e : Environment) : Except BehaviorError RoSpec := do
  let start ← d.startTrigger b
  let transmitter ← d.transmitter b
  let rf ← d.rfControl e
  let fastId := b.impinj.any (·.fastId)
  .ok
    { d.roSpec b start [DeviceModel.aiSpec 1 DeviceModel.endless transmitter (command b e rf)] with
      report := some (report d fastId) }

/-- A chip's identity reported with the EPC counts as a read of its memory, unless there was
one. -/
def adoptTid (r : Reading) : Reading :=
  if r.memory.isEmpty then
    match serializedTid? r.custom with
    | some words => { r with memory := [{ status := 0, opSpec := 0, words }] }
    | none => r
  else r

end TagGateway.Impinj
