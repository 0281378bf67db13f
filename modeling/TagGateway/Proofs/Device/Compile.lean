import TagGateway.Device.Basic
import TagGateway.Proofs.Results
import TagGateway.Proofs.Scan.Choice

set_option autoImplicit false

namespace TagGateway

/-- The place of the frequency that a behavior uses in a table of fixed channels. -/
def Behavior.place? (b : Behavior) (channels : List UInt32) : Option Nat :=
  if b.frequencies.isEmpty then some 0 else firstOffered b.frequencies channels

theorem channelNumber_eq_error {index : Nat} {cause : BehaviorError}
    (h : channelNumber index = .error cause) :
    cause = .channelNumber .add ∧ index % 0x10000 = 0xFFFF := by
  unfold channelNumber at h
  dsimp only at h
  split at h
  · next hlast => exact ⟨(Except.error.inj h).symm, hlast⟩
  · cases h

namespace DeviceModel

theorem bestMode_mem (d : DeviceModel) (e : Environment) : d.bestMode e ∈ d.modes := by
  unfold DeviceModel.bestMode
  dsimp only
  cases h : TagGateway.bestMode RfMode.beats d.modes
      (targetMask e.nearbyReaders.toNat d.plan.size) with
  | none => exact List.head_mem d.modes_ne
  | some m => exact mem_of_bestMode h

theorem rfControl_eq_ok (d : DeviceModel) (e : Environment) :
    ∃ rf, d.rfControl e = .ok rf ∧ rf.mode.toNat = (d.bestMode e).id.toNat := by
  have hfit := d.modes_fit _ (d.bestMode_mem e)
  refine ⟨_, if_pos hfit, ?_⟩
  simp only [UInt16.toNat_ofNat']
  exact Nat.mod_eq_of_lt hfit

theorem transmitter_eq (d : DeviceModel) (b : Behavior) :
    d.transmitter b =
      if b.maxPower.toInt < (d.powerAtMost b.maxPower).value.toInt then
        .error (.powerTooLow b.maxPower (d.powerAtMost b.maxPower).value)
      else match d.plan with
        | .hopping table =>
          .ok { hopTable := UInt16.ofNat table.id.toNat, channel := 1,
                power := (d.powerAtMost b.maxPower).index }
        | .fixed channels =>
          match b.place? channels with
          | none => .error (.noFrequency b.frequencies)
          | some index => (channelNumber index).map fun channel =>
            { hopTable := 0, channel, power := (d.powerAtMost b.maxPower).index } := by
  unfold transmitter
  dsimp only
  split
  · rfl
  · cases d.plan with
    | hopping table => rfl
    | fixed channels =>
      dsimp only
      unfold Behavior.place?
      split
      · cases h : channelNumber 0 <;> simp [h]
      · cases firstOffered b.frequencies channels with
        | none => rfl
        | some index => cases h : channelNumber index <;> simp [h]

theorem transmitter_eq_ok {d : DeviceModel} {b : Behavior} {t : Transmitter}
    (h : d.transmitter b = .ok t) :
    (d.powerAtMost b.maxPower).value.toInt ≤ b.maxPower.toInt
      ∧ t.power = (d.powerAtMost b.maxPower).index
      ∧ match d.plan with
        | .hopping table => t.hopTable.toNat = table.id.toNat ∧ t.channel = 1
        | .fixed channels => t.hopTable = 0 ∧ ∃ index, b.place? channels = some index
          ∧ channelNumber index = .ok t.channel := by
  rw [transmitter_eq] at h
  split at h
  · cases h
  · next hpower =>
    refine ⟨Int.not_lt.1 hpower, ?_⟩
    cases hplan : d.plan with
    | hopping table =>
      rw [hplan] at h
      obtain rfl := Except.ok.inj h
      have : table.id.toNat < 256 := table.id.toNat_lt
      refine ⟨rfl, ?_, rfl⟩
      simp only [UInt16.toNat_ofNat']
      omega
    | fixed channels =>
      simp only [hplan] at h
      cases hplace : b.place? channels with
      | none => simp [hplace] at h
      | some index =>
        cases hchannel : channelNumber index with
        | error cause => simp [hplace, hchannel] at h
        | ok channel =>
          simp only [hplace, hchannel, ok_map] at h
          obtain rfl := Except.ok.inj h
          exact ⟨rfl, rfl, index, hplace, hchannel⟩

end DeviceModel

namespace Device

def operation (d : Device) (b : Behavior) (e : Environment) (start : StartTrigger)
    (transmitter : Transmitter) (rf : RfControl) : RoSpec :=
  match d.vendor with
  | .generic => d.model.roSpec b start (d.model.aiSpecs b e transmitter rf)
  | .impinj =>
    { d.model.roSpec b start
        [DeviceModel.aiSpec 1 DeviceModel.endless transmitter (Impinj.command b e rf)] with
      report := some (Impinj.report d.model (b.impinj.any (·.fastId))) }

theorem compile_eq (d : Device) (b : Behavior) (e : Environment) :
    d.compile b e = (do
      let start ← d.model.startTrigger b
      let transmitter ← d.model.transmitter b
      let rf ← d.model.rfControl e
      .ok (d.operation b e start transmitter rf)) := by
  obtain ⟨vendor, model⟩ := d
  cases vendor <;> rfl

theorem compile_eq_ok_iff {d : Device} {b : Behavior} {e : Environment} {spec : RoSpec} :
    d.compile b e = .ok spec ↔
      ∃ start transmitter rf, d.model.startTrigger b = .ok start
        ∧ d.model.transmitter b = .ok transmitter ∧ d.model.rfControl e = .ok rf
        ∧ d.operation b e start transmitter rf = spec := by
  rw [compile_eq]
  simp only [bind_eq_ok, Except.ok.injEq, exists_and_left]

/-- The environment has no say in whether a behavior compiles, nor in why it does not. -/
theorem compile_error_congr {d : Device} {b : Behavior} {e e' : Environment}
    {cause : BehaviorError} (h : d.compile b e = .error cause) : d.compile b e' = .error cause := by
  rw [compile_eq] at h ⊢
  cases hs : d.model.startTrigger b with
  | error first => simpa [hs] using h
  | ok start =>
    cases ht : d.model.transmitter b with
    | error second => simpa [hs, ht] using h
    | ok transmitter =>
      obtain ⟨rf, hrf, -⟩ := d.model.rfControl_eq_ok e
      simp [hs, ht, hrf] at h

theorem compile_ok_congr {d : Device} {b : Behavior} {e : Environment} {spec : RoSpec}
    (h : d.compile b e = .ok spec) (e' : Environment) : ∃ spec', d.compile b e' = .ok spec' := by
  obtain ⟨start, transmitter, rf, hs, ht, -⟩ := compile_eq_ok_iff.1 h
  obtain ⟨rf', hrf', -⟩ := d.model.rfControl_eq_ok e'
  exact ⟨_, compile_eq_ok_iff.2 ⟨start, transmitter, rf', hs, ht, hrf', rfl⟩⟩

theorem id_of_compile {d : Device} {b : Behavior} {e : Environment} {spec : RoSpec}
    (h : d.compile b e = .ok spec) : spec.id = managedRoSpec := by
  obtain ⟨start, transmitter, rf, -, -, -, rfl⟩ := compile_eq_ok_iff.1 h
  unfold operation
  split <;> rfl

theorem start_operation (d : Device) (b : Behavior) (e : Environment) (start : StartTrigger)
    (transmitter : Transmitter) (rf : RfControl) :
    (d.operation b e start transmitter rf).boundary.start = start := by
  unfold operation
  split <;> rfl

theorem startTrigger_eq_null_iff {d : DeviceModel} {b : Behavior} {start : StartTrigger}
    (h : d.startTrigger b = .ok start) : start = .null ↔ b.gpi = none := by
  unfold DeviceModel.startTrigger at h
  cases hg : b.gpi with
  | none =>
    simp only [hg, Except.ok.injEq] at h
    simp [← h]
  | some gpi =>
    simp only [hg] at h
    split at h
    · cases h
    · split at h
      · cases h
      · simp [← Except.ok.inj h]

theorem start_of_compile {d : Device} {b : Behavior} {e : Environment} {spec : RoSpec}
    (h : d.compile b e = .ok spec) : spec.boundary.start = .null ↔ b.gpi = none := by
  obtain ⟨start, transmitter, rf, hs, -, -, rfl⟩ := compile_eq_ok_iff.1 h
  rw [start_operation]
  exact startTrigger_eq_null_iff hs

def plain (manufacturer : UInt32) : Capabilities :=
  { general := some { manufacturer, gpio := some { inputs := 2 } }
    protocol := some { stateAwareSingulation := true, maxSpecsPerRoSpec := 2 }
    regulatory := some
      { uhf := some
          { powerLevels := [⟨1, 1000⟩, ⟨2, 3000⟩]
            frequencies := some { fixedTable := some ⟨[902750]⟩ }
            modes := [{ id := 4 }] } }
    air := some { maxSelectFilters := 1 } }

def tuned (powerLevels : List PowerLevel) (modes : List RfMode) : Capabilities :=
  { plain 0 with
    regulatory := some
      { uhf := some
          { powerLevels, frequencies := some { fixedTable := some ⟨[902750]⟩ }, modes } } }

end Device

end TagGateway
