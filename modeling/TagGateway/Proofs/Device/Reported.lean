import TagGateway.Proofs.Device.Compile
import TagGateway.Proofs.Scan.Choice

/-!
What the model of a reader keeps of the reader's own report. Main statement: its power levels and
modes are reported ones, and its limits are the reported limits.
-/

set_option autoImplicit false

namespace TagGateway

namespace Capabilities

variable (caps : Capabilities)

def uhf : Option UhfCapabilities := caps.regulatory.bind (·.uhf)

def powerLevels : List PowerLevel := caps.uhf.elim [] (·.powerLevels)

def modes : List RfMode := caps.uhf.elim [] (·.modes)

def frequencies : Option FrequencyTables := caps.uhf.bind (·.frequencies)

def hops : Bool := caps.frequencies.any (·.hopping)

def channels : List UInt32 := (caps.frequencies.bind (·.fixedTable)).elim [] (·.frequencies)

def inputs : UInt16 := (caps.general.bind (·.gpio)).elim 0 (·.inputs)

def maxSpecs : UInt32 := caps.protocol.elim 0 (·.maxSpecsPerRoSpec)

def stateAware : Bool := caps.protocol.any (·.stateAwareSingulation)

def maxFilters : UInt16 := caps.air.elim 0 (·.maxSelectFilters)

def ofImpinj : Bool := caps.general.any (·.manufacturer = Impinj.vendor)

end Capabilities

namespace FrequencyTables

theorem plan_hopping {tables : FrequencyTables} {table : HopTable}
    (h : tables.plan = .ok (.hopping table)) :
    tables.hopping = true ∧ tables.hopTables.head? = some table := by
  unfold plan at h
  split at h
  · next hhopping =>
    split at h
    · next first rest htables =>
      split at h
      · cases h
      · cases h
        exact ⟨hhopping, by simp [htables]⟩
    · cases h
  · split at h
    · split at h
      · cases h
      · cases h
    · cases h

theorem plan_fixed {tables : FrequencyTables} {channels : List UInt32}
    (h : tables.plan = .ok (.fixed channels)) :
    tables.hopping = false ∧ tables.fixedTable = some ⟨channels⟩ ∧ channels ≠ [] := by
  unfold plan at h
  split at h
  · split at h
    · split at h
      · cases h
      · cases h
    · cases h
  · next hhopping =>
    split at h
    · next table htable =>
      split at h
      · cases h
      · next hsome =>
        cases h
        exact ⟨by simpa using hhopping, htable, by simpa using hsome⟩
    · cases h

end FrequencyTables

namespace DeviceModel

theorem powerAtMost_mem (d : DeviceModel) (ceiling : Int16) :
    d.powerAtMost ceiling ∈ d.powerLevels :=
  PowerLevel.atMost_mem d.powerLevels_ne

/-- A model keeps to what its reader reports. -/
structure Keeps (d : DeviceModel) (caps : Capabilities) : Prop where
  powerLevels : ∀ level ∈ d.powerLevels, level ∈ caps.powerLevels
  modes : ∀ m ∈ d.modes, ∃ reported ∈ caps.modes, reported.id = m.id
  frequencies : caps.frequencies = some d.frequencies
  maxSpecs : d.maxSpecs = caps.maxSpecs
  stateAware : d.stateAware = caps.stateAware
  maxFilters : d.maxFilters = caps.maxFilters

/-- A model has all that its reader reports of power and of inputs. -/
structure Mirrors (d : DeviceModel) (caps : Capabilities) : Prop extends d.Keeps caps where
  table : d.powerLevels = PowerLevel.table caps.powerLevels
  inputs : d.inputs = caps.inputs

theorem Mirrors.perm_powerLevels {d : DeviceModel} {caps : Capabilities} (h : d.Mirrors caps) :
    d.powerLevels.Perm caps.powerLevels := h.table ▸ PowerLevel.perm_table caps.powerLevels

theorem Mirrors.ascending {d : DeviceModel} {caps : Capabilities} (h : d.Mirrors caps) :
    d.powerLevels.Pairwise fun a b => a.value.toInt ≤ b.value.toInt :=
  h.table ▸ PowerLevel.pairwise_table caps.powerLevels

theorem need_eq_ok {α : Type} {part : CapabilityPart} {o : Option α} {a : α} :
    Option.need part o = .ok a ↔ o = some a := by
  cases o with
  | none => simp
  | some b => simp

theorem mirrors_of_ofCapabilities {caps : Capabilities} {d : DeviceModel}
    (h : ofCapabilities caps = .ok d) : d.Mirrors caps := by
  unfold ofCapabilities at h
  simp only [bind_eq_ok, need_eq_ok] at h
  obtain ⟨general, hgeneral, protocol, hprotocol, regulatory, hregulatory, air, hair, uhf, huhf,
    h⟩ := h
  have huhf' : caps.uhf = some uhf := by simp [Capabilities.uhf, hregulatory, huhf]
  have hpower : caps.powerLevels = uhf.powerLevels := by simp [Capabilities.powerLevels, huhf']
  split at h
  · cases h
  · split at h
    · cases h
    · obtain ⟨frequencies, hfrequencies, h⟩ := bind_eq_ok.1 h
      split at h
      · cases h
      · obtain rfl := Except.ok.inj h
        refine { powerLevels := fun level hlevel => ?_, modes := fun m hm => ?_,
                 frequencies := ?_, maxSpecs := ?_, stateAware := ?_, maxFilters := ?_,
                 table := ?_, inputs := ?_ }
        · exact hpower ▸ (PowerLevel.perm_table uhf.powerLevels).mem_iff.1 hlevel
        · exact ⟨m, by simpa [Capabilities.modes, huhf'] using (List.mem_filter.1 hm).1, rfl⟩
        · simpa [Capabilities.frequencies, huhf'] using need_eq_ok.1 hfrequencies
        · simp [Capabilities.maxSpecs, hprotocol]
        · simp [Capabilities.stateAware, hprotocol]
        · simp [Capabilities.maxFilters, hair]
        · rw [hpower]
        · cases hgpio : general.gpio <;> simp [Capabilities.inputs, hgeneral, hgpio]

end DeviceModel

namespace Impinj

/-- Mending the modes changes nothing but their rates, and leaves those out that a reader chooses
itself. -/
theorem refine_spec {d d' : DeviceModel} (h : refine d = .ok d') :
    (∀ caps, d.Mirrors caps → d'.Mirrors caps) ∧ ∀ m ∈ d'.modes, m.id < firstAutomaticMode := by
  unfold refine at h
  split at h
  · cases h
  · obtain rfl := Except.ok.inj h
    refine ⟨fun caps hk => { hk with modes := fun m hm => ?_ }, fun m hm => ?_⟩
    · obtain ⟨r, hr, rfl⟩ := List.mem_map.1 hm
      exact hk.modes r (List.mem_filter.1 hr).1
    · obtain ⟨r, hr, rfl⟩ := List.mem_map.1 hm
      simpa [bitRate] using (List.mem_filter.1 hr).2

end Impinj

namespace Device

theorem mirrors_of_ofVendor {vendor : Vendor} {caps : Capabilities} {d : Device}
    (h : ofVendor vendor caps = .ok d) :
    d.model.Mirrors caps
      ∧ (vendor = .impinj → ∀ m ∈ d.model.modes, m.id < Impinj.firstAutomaticMode) := by
  obtain ⟨standard, hstandard, h⟩ := bind_eq_ok.1 h
  have hmirrors := DeviceModel.mirrors_of_ofCapabilities hstandard
  cases vendor with
  | generic =>
    obtain rfl := Except.ok.inj h
    exact ⟨hmirrors, nofun⟩
  | impinj =>
    obtain ⟨model, hmodel, h⟩ := bind_eq_ok.1 h
    obtain rfl := Except.ok.inj h
    obtain ⟨hrefined, hmodes⟩ := Impinj.refine_spec hmodel
    exact ⟨hrefined caps hmirrors, fun _ => hmodes⟩

theorem mirrors_of_ofCapabilities {caps : Capabilities} {d : Device}
    (h : ofCapabilities caps = .ok d) : d.model.Mirrors caps := by
  obtain ⟨general, -, h⟩ := bind_eq_ok.1 h
  exact (mirrors_of_ofVendor h).1

theorem keeps_of_ofCapabilities {caps : Capabilities} {d : Device}
    (h : ofCapabilities caps = .ok d) :
    d.model.Keeps caps
      ∧ (caps.ofImpinj = true → ∀ m ∈ d.model.modes, m.id < Impinj.firstAutomaticMode) := by
  obtain ⟨general, hgeneral, h⟩ := bind_eq_ok.1 h
  obtain ⟨hmirrors, hmodes⟩ := mirrors_of_ofVendor h
  refine ⟨hmirrors.toKeeps, fun himpinj => hmodes ?_⟩
  rw [DeviceModel.need_eq_ok] at hgeneral
  have : general.manufacturer = Impinj.vendor := by
    simpa [Capabilities.ofImpinj, hgeneral] using himpinj
  rw [Vendor.ofManufacturer, if_pos this]

end Device

end TagGateway
