import TagGateway.Proofs.Device.Reported

set_option autoImplicit false

namespace TagGateway

/-- The session whose flag a filter acts on. -/
def FilterTarget.session? : FilterTarget → Option UInt8
  | session0 => some 0
  | session1 => some 1
  | session2 => some 2
  | session3 => some 3
  | selected => none

structure Transmitter.Within (t : Transmitter) (caps : Capabilities) (b : Behavior) : Prop where
  power : ∃ level ∈ caps.powerLevels,
    t.power = level.index ∧ level.value.toInt ≤ b.maxPower.toInt
  frequency : ∃ tables, caps.frequencies = some tables ∧
    if tables.hopping then
      t.channel = 1 ∧ ∃ table, tables.hopTables.head? = some table
        ∧ t.hopTable.toNat = table.id.toNat
    else t.hopTable = 0

/-- A reported mode, and one that says what it is where the reader is of the vendor that has
others. -/
def RfControl.Within (rf : RfControl) (caps : Capabilities) : Prop :=
  ∃ m ∈ caps.modes, rf.mode.toNat = m.id.toNat
    ∧ (caps.ofImpinj = true → m.id < Impinj.firstAutomaticMode)

structure Singulation.Within (s : Singulation) (caps : Capabilities) (b : Behavior)
    (e : Environment) : Prop where
  session : s.session = b.scan.session
  stateAware : s.stateAware.isSome = true → caps.stateAware = true
  population : s.population ≠ 0
  given : e.tagPopulation ≠ 0 → s.population = e.tagPopulation

structure InventoryCommand.Within (c : InventoryCommand) (caps : Capabilities) (b : Behavior)
    (e : Environment) : Prop where
  mode : ∃ rf, c.rfControl = some rf ∧ rf.Within caps
  singulation : ∃ s, c.singulation = some s ∧ s.Within caps b e
  stateAware : c.stateAware = true → caps.stateAware = true
  filters : c.filters.length ≤ caps.maxFilters.toNat
  rearm : ∀ f ∈ c.filters, ∃ a, f.stateAware = some a
    ∧ a.target.session? = some b.scan.session

structure AiSpec.Within (ai : AiSpec) (number : Nat) (caps : Capabilities) (b : Behavior)
    (e : Environment) : Prop where
  numbered : ai.inventories.map (·.id.toNat) = [number]
  antennas : ∀ i ∈ ai.inventories, i.antennas ≠ []
  transmitters : ∀ i ∈ ai.inventories, ∀ a ∈ i.antennas,
    ∃ t, a.transmitter = some t ∧ t.Within caps b
  commands : ∀ i ∈ ai.inventories, ∀ a ∈ i.antennas,
    a.commands ≠ [] ∧ ∀ c ∈ a.commands, c.Within caps b e

structure RoSpec.Within (spec : RoSpec) (caps : Capabilities) (b : Behavior) (e : Environment) :
    Prop where
  nonempty : spec.aiSpecs ≠ []
  bounded : caps.maxSpecs ≠ 0 → spec.aiSpecs.length ≤ caps.maxSpecs.toNat
  specs : ∀ (k : Nat) (ai : AiSpec), spec.aiSpecs[k]? = some ai → ai.Within (k + 1) caps b e

namespace DeviceModel

variable {d : DeviceModel} {caps : Capabilities} {b : Behavior} {e : Environment}

theorem transmitter_within (hk : d.Keeps caps) {t : Transmitter} (h : d.transmitter b = .ok t) :
    t.Within caps b := by
  obtain ⟨hpower, hindex, hplan⟩ := transmitter_eq_ok h
  refine ⟨⟨_, hk.powerLevels _ (d.powerAtMost_mem b.maxPower), hindex, hpower⟩,
    d.frequencies, hk.frequencies, ?_⟩
  have hplan' := d.plan_eq
  cases hp : d.plan with
  | hopping table =>
    rw [hp] at hplan hplan'
    obtain ⟨hhopping, hfirst⟩ := FrequencyTables.plan_hopping hplan'
    rw [if_pos hhopping]
    exact ⟨hplan.2, table, hfirst, hplan.1⟩
  | fixed channels =>
    rw [hp] at hplan hplan'
    rw [(FrequencyTables.plan_fixed hplan').1]
    exact hplan.1

/-- The modes of a reader of the vendor that has modes of its own choice are others. -/
def NamesModes (d : DeviceModel) (caps : Capabilities) : Prop :=
  caps.ofImpinj = true → ∀ m ∈ d.modes, m.id < Impinj.firstAutomaticMode

theorem rfControl_within (hk : d.Keeps caps) (hmodes : d.NamesModes caps) {rf : RfControl}
    (h : d.rfControl e = .ok rf) : rf.Within caps := by
  obtain ⟨rf', hrf', hmode⟩ := d.rfControl_eq_ok e
  obtain rfl := Except.ok.inj (h.symm.trans hrf')
  have hmem := d.bestMode_mem e
  obtain ⟨reported, hreported, hid⟩ := hk.modes _ hmem
  exact ⟨reported, hreported, hid ▸ hmode, fun himpinj => hid ▸ hmodes himpinj _ hmem⟩

theorem singulation_within {stateAware : Option StateAwareSingulation}
    (h : stateAware.isSome = true → caps.stateAware = true) :
    (singulation b.scan.session e stateAware).Within caps b e := by
  refine ⟨rfl, h, ?_, fun hgiven => ?_⟩
  · simp only [singulation]
    split
    · next hpos => exact UInt16.pos_iff_ne_zero.1 hpos
    · decide
  · simp only [singulation]
    rw [if_pos (UInt16.pos_iff_ne_zero.2 hgiven)]

theorem session?_sessionFlag (scan : ScanType) :
    (sessionFlag scan.session).session? = some scan.session := by
  cases scan <;> rfl

variable {rf : RfControl}

theorem oneTargetCommand_within (hrf : rf.Within caps) :
    (oneTargetCommand b e rf).Within caps b e where
  mode := ⟨rf, rfl, hrf⟩
  singulation := ⟨_, rfl, singulation_within nofun⟩
  stateAware := nofun
  filters := Nat.zero_le _
  rearm := nofun

theorem stateAware_of_supportsDualTarget (hk : d.Keeps caps) (h : d.supportsDualTarget = true) :
    caps.stateAware = true := by
  rw [← hk.stateAware]
  unfold supportsDualTarget at h
  exact (Bool.and_eq_true _ _ ▸ h).1

theorem two_le_of_supportsDualTarget (hk : d.Keeps caps) (h : d.supportsDualTarget = true)
    (hlimit : caps.maxSpecs ≠ 0) : 2 ≤ caps.maxSpecs.toNat := by
  rw [← hk.maxSpecs] at hlimit ⊢
  unfold supportsDualTarget at h
  simp only [Bool.and_eq_true, Bool.or_eq_true, beq_iff_eq, decide_eq_true_eq] at h
  rcases h.2 with hzero | htwo
  · exact absurd hzero hlimit
  · exact UInt32.le_iff_toNat_le.1 htwo

theorem dualTargetCommand_within (hk : d.Keeps caps) (hrf : rf.Within caps)
    (h : d.supportsDualTarget = true) (state : SessionState) :
    (dualTargetCommand b e rf state).Within caps b e := by
  have hstateAware := stateAware_of_supportsDualTarget hk h
  exact
    { mode := ⟨rf, rfl, hrf⟩
      singulation := ⟨_, rfl, singulation_within fun _ => hstateAware⟩
      stateAware := fun _ => hstateAware
      filters := Nat.zero_le _
      rearm := nofun }

theorem rearmCommand_within (hk : d.Keeps caps) (hrf : rf.Within caps) :
    (d.rearmCommand b e rf).Within caps b e := by
  refine ⟨⟨rf, rfl, hrf⟩,
    ⟨_, rfl, singulation_within fun h => ?_⟩, fun h => hk.stateAware ▸ h, ?_, fun f hf => ?_⟩
  · rw [← hk.stateAware]
    by_contra hnot
    simp [hnot] at h
  · rw [← hk.maxFilters]
    simp only [rearmCommand]
    split
    · exact Nat.zero_le _
    · next hsome =>
      have : d.maxFilters.toNat ≠ 0 := fun h => hsome (UInt16.toNat_inj.1 h)
      simp only [List.length_singleton]
      omega
  · simp only [rearmCommand] at hf
    split at hf
    · cases hf
    · obtain rfl := List.mem_singleton.1 hf
      exact ⟨_, rfl, session?_sessionFlag b.scan⟩

theorem aiSpecs_of_ne_deep (h : b.scan ≠ .deep) (t : Transmitter) :
    d.aiSpecs b e t rf = [aiSpec 1 endless t (oneTargetCommand b e rf)] := by
  cases hscan : b.scan with
  | fast => simp [aiSpecs, hscan]
  | normal => simp [aiSpecs, hscan]
  | deep => exact absurd hscan h

theorem aiSpec_within (id : UInt16) (stop : AiStop) {t : Transmitter} {c : InventoryCommand}
    (ht : t.Within caps b) (hc : c.Within caps b e) :
    (aiSpec id stop t c).Within id.toNat caps b e := by
  refine ⟨rfl, fun i hi => ?_, fun i hi a ha => ?_, fun i hi a ha => ?_⟩
  all_goals obtain rfl := List.mem_singleton.1 hi
  · exact List.cons_ne_nil _ _
  · obtain rfl := List.mem_singleton.1 ha
    exact ⟨t, rfl, ht⟩
  · obtain rfl := List.mem_singleton.1 ha
    exact ⟨List.cons_ne_nil _ _, fun c' hc' => List.mem_singleton.1 hc' ▸ hc⟩

end DeviceModel

namespace RoSpec

variable {spec : RoSpec} {caps : Capabilities} {b : Behavior} {e : Environment}

theorem within_of_one {ai : AiSpec} (h : spec.aiSpecs = [ai]) (hai : ai.Within 1 caps b e) :
    spec.Within caps b e where
  nonempty := by simp [h]
  bounded hlimit := by
    have : caps.maxSpecs.toNat ≠ 0 := fun h => hlimit (UInt32.toNat_inj.1 h)
    rw [h, List.length_singleton]
    omega
  specs k ai' hk := by
    rw [h] at hk
    cases k with
    | zero => exact Option.some.inj hk ▸ hai
    | succ k => simp at hk

theorem within_of_two {first second : AiSpec} (h : spec.aiSpecs = [first, second])
    (hlimit : caps.maxSpecs ≠ 0 → 2 ≤ caps.maxSpecs.toNat) (hfirst : first.Within 1 caps b e)
    (hsecond : second.Within 2 caps b e) : spec.Within caps b e where
  nonempty := by simp [h]
  bounded := by simpa [h] using hlimit
  specs k ai hk := by
    rw [h] at hk
    match k with
    | 0 => exact Option.some.inj hk ▸ hfirst
    | 1 => exact Option.some.inj hk ▸ hsecond
    | k + 2 => simp at hk

end RoSpec

namespace Device

variable {d : Device} {caps : Capabilities} {b : Behavior} {e : Environment}

theorem roSpec_within (hk : d.model.Keeps caps) (start : StartTrigger) {t : Transmitter}
    (ht : t.Within caps b) {rf : RfControl} (hrf : rf.Within caps) :
    (d.model.roSpec b start (d.model.aiSpecs b e t rf)).Within caps b e := by
  by_cases hdeep : b.scan = .deep
  · by_cases hdual : d.model.supportsDualTarget = true
    · have hspecs : d.model.aiSpecs b e t rf
          = [DeviceModel.aiSpec 1 ⟨.duration, dualTargetMs⟩ t
              (DeviceModel.dualTargetCommand b e rf .a),
            DeviceModel.aiSpec 2 ⟨.duration, dualTargetMs⟩ t
              (DeviceModel.dualTargetCommand b e rf .b)] := by
        simp [DeviceModel.aiSpecs, hdeep, hdual]
      -- Only here is there more than one antenna operation, and a limit to mind.
      have hcommand := DeviceModel.dualTargetCommand_within (b := b) (e := e) hk hrf hdual
      exact RoSpec.within_of_two hspecs (DeviceModel.two_le_of_supportsDualTarget hk hdual)
        (DeviceModel.aiSpec_within 1 _ ht (hcommand .a))
        (DeviceModel.aiSpec_within 2 _ ht (hcommand .b))
    · have hspecs : d.model.aiSpecs b e t rf
          = [DeviceModel.aiSpec 1 DeviceModel.endless t (d.model.rearmCommand b e rf)] := by
        simp [DeviceModel.aiSpecs, hdeep, hdual]
      exact RoSpec.within_of_one hspecs
        (DeviceModel.aiSpec_within 1 _ ht (DeviceModel.rearmCommand_within hk hrf))
  · exact RoSpec.within_of_one (DeviceModel.aiSpecs_of_ne_deep hdeep t)
      (DeviceModel.aiSpec_within 1 _ ht (DeviceModel.oneTargetCommand_within hrf))

theorem operation_within (hk : d.model.Keeps caps) (start : StartTrigger) {t : Transmitter}
    (ht : t.Within caps b) {rf : RfControl} (hrf : rf.Within caps) :
    (d.operation b e start t rf).Within caps b e := by
  unfold operation
  cases d.vendor with
  | generic => exact roSpec_within hk start ht hrf
  | impinj =>
    have hone := DeviceModel.oneTargetCommand_within (b := b) (e := e) hrf
    have hcommand : (Impinj.command b e rf).Within caps b e := { hone with }
    exact RoSpec.within_of_one rfl (DeviceModel.aiSpec_within 1 DeviceModel.endless ht hcommand)

/-- The operation that a behavior becomes on a reader that was accepted stays within what the
reader reports, and keeps to the session of its scan. -/
theorem within_of_compile (d : Device) (caps : Capabilities) (b : Behavior) (e : Environment)
    (spec : RoSpec) (accepted : ofCapabilities caps = .ok d) (compiled : d.compile b e = .ok spec) :
    spec.Within caps b e := by
  obtain ⟨hkeeps, hmodes⟩ := keeps_of_ofCapabilities accepted
  obtain ⟨start, t, rf, -, ht, hrf, rfl⟩ := compile_eq_ok_iff.1 compiled
  exact operation_within hkeeps start (DeviceModel.transmitter_within hkeeps ht)
    (DeviceModel.rfControl_within hkeeps hmodes hrf)

def commands (spec : RoSpec) : List InventoryCommand :=
  spec.aiSpecs.flatMap fun ai =>
    ai.inventories.flatMap fun i => i.antennas.flatMap fun a => a.commands

def sessions (spec : RoSpec) : List UInt8 :=
  (commands spec).filterMap fun c => c.singulation.map (·.session)

def flags (spec : RoSpec) : List FilterTarget :=
  (commands spec).flatMap fun c => c.filters.filterMap fun f => f.stateAware.map (·.target)

def narrow : Capabilities :=
  { plain 0 with protocol := some { stateAwareSingulation := true, maxSpecsPerRoSpec := 1 } }

/-- A scan of the tags of either state in turn, on a reader with room for just two operations, and
one that sets the flag of its session first, on a reader with room for one. -/
theorem within_of_compile_deep :
    (∃ d spec, ofCapabilities (plain 0) = .ok d ∧ d.compile { scan := .deep } {} = .ok spec
      ∧ sessions spec = [2, 2] ∧ flags spec = []
      ∧ spec.Within (plain 0) { scan := .deep } {})
    ∧ ∃ d spec, ofCapabilities narrow = .ok d ∧ d.compile { scan := .deep } {} = .ok spec
      ∧ sessions spec = [2] ∧ flags spec = [.session2]
      ∧ spec.Within narrow { scan := .deep } {} := by
  have hwithin (caps : Capabilities) (numbers : List UInt8) (targets : List FilterTarget)
      (h : ((ofCapabilities caps).bind fun d => (d.compile { scan := .deep } {}).map fun spec =>
        (sessions spec, flags spec)) = .ok (numbers, targets)) :
      ∃ d spec, ofCapabilities caps = .ok d ∧ d.compile { scan := .deep } {} = .ok spec
        ∧ sessions spec = numbers ∧ flags spec = targets
        ∧ spec.Within caps { scan := .deep } {} := by
    obtain ⟨d, hd, hcompiled⟩ := bind_eq_ok.1 h
    cases hspec : d.compile { scan := .deep } {} with
    | error cause => simp [hspec] at hcompiled
    | ok spec =>
      simp only [hspec, ok_map, Except.ok.injEq, Prod.mk.injEq] at hcompiled
      exact ⟨d, spec, hd, hspec, hcompiled.1, hcompiled.2,
        within_of_compile d caps { scan := .deep } {} spec hd hspec⟩
  exact ⟨hwithin (plain 0) [2, 2] [] (by decide +kernel),
    hwithin narrow [2] [.session2] (by decide +kernel)⟩

end Device

end TagGateway
