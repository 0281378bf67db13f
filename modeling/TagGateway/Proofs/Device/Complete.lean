import TagGateway.Proofs.Device.Reported

set_option autoImplicit false

namespace TagGateway

namespace PowerLevel

/-- A table has the reported levels in ascending order of power, and those of one power in the order
in which they were reported. -/
structure StablySorts (table reported : List PowerLevel) : Prop where
  ascending : table.Pairwise fun a b => a.value.toInt ≤ b.value.toInt
  ties : ∀ power : Int16,
    table.filter (·.value = power) = reported.filter (·.value = power)

variable {table table' reported : List PowerLevel}

theorem filter_mergeSort (levels : List PowerLevel) (power : Int16) :
    (levels.mergeSort weaker).filter (·.value = power) = levels.filter (·.value = power) := by
  have hsame : (levels.filter (·.value = power)).Pairwise fun a b => weaker a b := by
    refine List.pairwise_of_forall_mem_list fun a ha b hb => ?_
    have hvalue : a.value = b.value := by simp_all
    simp [weaker, hvalue]
  have hsub := (List.sublist_mergeSort weaker_trans weaker_total hsame
    List.filter_sublist).filter (·.value = power)
  rw [List.filter_filter] at hsub
  simp only [Bool.and_self] at hsub
  exact (hsub.eq_of_length ((List.mergeSort_perm levels weaker).filter _).length_eq.symm).symm

theorem stablySorts_table (levels : List PowerLevel) :
    StablySorts (PowerLevel.table levels) levels where
  ascending := pairwise_table levels
  ties power := by rw [table_eq_mergeSort, filter_mergeSort]

theorem mem_of_ties (ties : ∀ power : Int16,
    table.filter (·.value = power) = table'.filter (·.value = power)) {level : PowerLevel}
    (h : level ∈ table) : level ∈ table' := by
  have hlevel : level ∈ table.filter (·.value = level.value) := by simpa using h
  rw [ties] at hlevel
  exact (List.mem_filter.1 hlevel).1

theorem eq_of_ties (h : table.Pairwise fun a b => a.value.toInt ≤ b.value.toInt)
    (h' : table'.Pairwise fun a b => a.value.toInt ≤ b.value.toInt)
    (ties : ∀ power : Int16, table.filter (·.value = power) = table'.filter (·.value = power)) :
    table = table' := by
  induction table generalizing table' with
  | nil =>
    cases table' with
    | nil => rfl
    | cons b rest' => cases mem_of_ties (fun power => (ties power).symm) List.mem_cons_self
  | cons a rest ih =>
    cases table' with
    | nil => cases mem_of_ties ties List.mem_cons_self
    | cons b rest' =>
      obtain ⟨hleast, hrest⟩ := List.pairwise_cons.1 h
      obtain ⟨hleast', hrest'⟩ := List.pairwise_cons.1 h'
      -- Both heads are weakest in both tables, so they are of one power, and first of that power.
      have hle : a.value.toInt ≤ b.value.toInt := by
        have hb := mem_of_ties (fun power => (ties power).symm) List.mem_cons_self
        rcases List.mem_cons.1 hb with rfl | hb
        · exact Int.le_refl _
        · exact hleast b hb
      have hge : b.value.toInt ≤ a.value.toInt := by
        rcases List.mem_cons.1 (mem_of_ties ties List.mem_cons_self) with rfl | ha
        · exact Int.le_refl _
        · exact hleast' a ha
      have hvalue : a.value = b.value := Int16.toInt_inj.1 (Int.le_antisymm hle hge)
      have hhead := ties a.value
      simp only [List.filter_cons, hvalue, decide_true, if_true, List.cons.injEq] at hhead
      obtain ⟨rfl, -⟩ := hhead
      refine congrArg _ (ih hrest hrest' fun power => ?_)
      have hpower := ties power
      by_cases hp : a.value = power
      · simpa [hp] using hpower
      · simpa [hp] using hpower

theorem stablySorts_iff : StablySorts table reported ↔ table = PowerLevel.table reported := by
  have hsorted := stablySorts_table reported
  constructor
  · intro h
    exact eq_of_ties h.ascending hsorted.ascending fun power =>
      (h.ties power).trans (hsorted.ties power).symm
  · rintro rfl
    exact hsorted

end PowerLevel

namespace FrequencyTables

def NoHops (tables : FrequencyTables) : Prop :=
  tables.hopping = true ∧ ∀ first, tables.hopTables.head? = some first → first.frequencies = []

def NoChannels (tables : FrequencyTables) : Prop :=
  tables.hopping = false ∧ ∀ table, tables.fixedTable = some table → table.frequencies = []

theorem plan_cases (tables : FrequencyTables) :
    ((∃ plan, tables.plan = .ok plan) ∧ ¬tables.NoHops ∧ ¬tables.NoChannels)
      ∨ (tables.plan = .error (.missing .hopTable) ∧ tables.NoHops)
      ∨ (tables.plan = .error (.missing .fixedTable) ∧ tables.NoChannels) := by
  cases hhopping : tables.hopping with
  | true =>
    cases htables : tables.hopTables with
    | nil => simp [plan, NoHops, hhopping, htables]
    | cons first rest =>
      by_cases hempty : first.frequencies = [] <;>
        simp [plan, NoHops, NoChannels, hhopping, htables, hempty]
  | false =>
    cases htable : tables.fixedTable with
    | none => simp [plan, NoChannels, hhopping, htable]
    | some table =>
      by_cases hempty : table.frequencies = [] <;>
        simp [plan, NoHops, NoChannels, hhopping, htable, hempty]

end FrequencyTables

namespace Capabilities

/-- The modes with smaller numbers than this can be named in an operation: a number has 16 bits
there, and one vendor's modes from a thousand on are names for a choice that the reader makes. -/
def modeLimit (caps : Capabilities) : Nat := if caps.ofImpinj then 1000 else 0x10000

/-- What is missing from a report, where the modes below a limit can be named: a part of it, or all
that could be chosen from a table. -/
def LacksUnder (limit : Nat) (caps : Capabilities) : CapabilityPart → Prop
  | .general => caps.general = none
  | .protocol => caps.protocol = none
  | .regulatory => caps.regulatory = none
  | .air => caps.air = none
  | .uhf => caps.uhf = none
  | .powerTable => caps.powerLevels = []
  | .modeTable => ∀ m ∈ caps.modes, limit ≤ m.id.toNat
  | .frequencies => caps.frequencies = none
  | .hopTable => ∃ tables, caps.frequencies = some tables ∧ tables.NoHops
  | .fixedTable => ∃ tables, caps.frequencies = some tables ∧ tables.NoChannels

def Lacks (caps : Capabilities) (part : CapabilityPart) : Prop :=
  LacksUnder caps.modeLimit caps part

def mend (caps : Capabilities) (m : RfMode) : RfMode :=
  if caps.ofImpinj then
    { m with backscatterRate := m.backscatterRate / m.modulation.symbolsPerBit }
  else m

variable {caps : Capabilities} {limit limit' : Nat} {part : CapabilityPart}

theorem LacksUnder.congr (h : LacksUnder limit caps part) (hpart : part ≠ .modeTable) :
    LacksUnder limit' caps part := by
  cases part with
  | modeTable => exact absurd rfl hpart
  | _ => exact h

theorem LacksUnder.mono (h : LacksUnder limit caps part) (hle : limit' ≤ limit) :
    LacksUnder limit' caps part := by
  by_cases hpart : part = .modeTable
  · subst hpart
    exact fun m hm => Nat.le_trans hle (h m hm)
  · exact h.congr hpart

theorem filter_modes_eq_nil_iff (caps : Capabilities) (limit : Nat) :
    caps.modes.filter (fun m => m.id.toNat < limit) = [] ↔ LacksUnder limit caps .modeTable := by
  simp [LacksUnder]

end Capabilities

theorem DeviceModel.ofCapabilities_cases (caps : Capabilities) :
    (∃ d, ofCapabilities caps = .ok d ∧ (∀ part, ¬Capabilities.LacksUnder 0x10000 caps part)
        ∧ d.modes = caps.modes.filter fun m => m.id.toNat < 0x10000)
      ∨ ∃ part, ofCapabilities caps = .error (.missing part)
        ∧ Capabilities.LacksUnder 0x10000 caps part := by
  unfold ofCapabilities
  cases hgeneral : caps.general with
  | none => exact .inr ⟨.general, rfl, hgeneral⟩
  | some general =>
  cases hprotocol : caps.protocol with
  | none => exact .inr ⟨.protocol, rfl, hprotocol⟩
  | some protocol =>
  cases hregulatory : caps.regulatory with
  | none => exact .inr ⟨.regulatory, rfl, hregulatory⟩
  | some regulatory =>
  cases hair : caps.air with
  | none => exact .inr ⟨.air, rfl, hair⟩
  | some air =>
  simp only [Option.need, ok_bind]
  have hband : caps.uhf = regulatory.uhf := by simp [Capabilities.uhf, hregulatory]
  cases huhf : regulatory.uhf with
  | none => exact .inr ⟨.uhf, rfl, hband.trans huhf⟩
  | some uhf =>
  rw [huhf] at hband
  have hpowers : caps.powerLevels = uhf.powerLevels := by simp [Capabilities.powerLevels, hband]
  have hmodes : caps.modes = uhf.modes := by simp [Capabilities.modes, hband]
  have htables : caps.frequencies = uhf.frequencies := by simp [Capabilities.frequencies, hband]
  simp only [ok_bind]
  split
  · next hnone => exact .inr ⟨.powerTable, rfl, hpowers.trans hnone⟩
  next hpower =>
  split
  · next hnone =>
    exact .inr ⟨.modeTable, rfl, (caps.filter_modes_eq_nil_iff _).1 (hmodes ▸ hnone)⟩
  next hnamed =>
  cases hfrequencies : uhf.frequencies with
  | none => exact .inr ⟨.frequencies, rfl, htables.trans hfrequencies⟩
  | some tables =>
  rw [hfrequencies] at htables
  simp only [ok_bind]
  obtain ⟨⟨plan, hplan⟩, hhops, hchannels⟩ | ⟨hplan, hnone⟩ | ⟨hplan, hnone⟩ := tables.plan_cases
  · split
    · next herror => cases hplan.symm.trans herror
    · refine .inl ⟨_, rfl, fun part hlacks => ?_, by rw [hmodes]⟩
      cases part with
      | general => cases hgeneral.symm.trans hlacks
      | protocol => cases hprotocol.symm.trans hlacks
      | regulatory => cases hregulatory.symm.trans hlacks
      | air => cases hair.symm.trans hlacks
      | uhf => cases hband.symm.trans hlacks
      | powerTable => exact hpower (hpowers.symm.trans hlacks)
      | modeTable => exact hnamed (hmodes ▸ (caps.filter_modes_eq_nil_iff _).2 hlacks)
      | frequencies => cases htables.symm.trans hlacks
      | hopTable =>
        obtain ⟨tables', htables', hnone⟩ := hlacks
        obtain rfl := Option.some.inj (htables.symm.trans htables')
        exact hhops hnone
      | fixedTable =>
        obtain ⟨tables', htables', hnone⟩ := hlacks
        obtain rfl := Option.some.inj (htables.symm.trans htables')
        exact hchannels hnone
  · refine .inr ⟨.hopTable, ?_, tables, htables, hnone⟩
    split
    · next herror => rw [Except.error.inj (herror.symm.trans hplan)]
    · next hok => cases hok.symm.trans hplan
  · refine .inr ⟨.fixedTable, ?_, tables, htables, hnone⟩
    split
    · next herror => rw [Except.error.inj (herror.symm.trans hplan)]
    · next hok => cases hok.symm.trans hplan

theorem Impinj.modes_filter (reported : List RfMode) :
    modes (reported.filter fun m => m.id.toNat < 0x10000)
      = (reported.filter fun m => m.id.toNat < 1000).map bitRate := by
  rw [modes, List.filter_filter]
  refine congrArg _ (List.filter_congr fun m _ => ?_)
  have hlimit : m.id < firstAutomaticMode ↔ m.id.toNat < 1000 := UInt32.lt_iff_toNat_lt
  rw [← Bool.decide_and, decide_eq_decide, hlimit]
  omega

theorem Impinj.refine_cases {d : DeviceModel} {reported : List RfMode}
    (h : d.modes = reported.filter fun m => m.id.toNat < 0x10000) :
    (∃ d', refine d = .ok d'
        ∧ d'.modes = (reported.filter fun m => m.id.toNat < 1000).map bitRate)
      ∨ refine d = .error (.missing .modeTable)
        ∧ reported.filter (fun m => m.id.toNat < 1000) = [] := by
  have hmodes : modes d.modes = (reported.filter fun m => m.id.toNat < 1000).map bitRate := by
    rw [h, modes_filter]
  unfold refine
  split
  · next hnone =>
    exact .inr ⟨rfl, List.map_eq_nil_iff.1 (hmodes.symm.trans hnone)⟩
  · exact .inl ⟨_, rfl, hmodes⟩

namespace Device

theorem ofCapabilities_of_error {caps : Capabilities} {cause : BehaviorError}
    (h : DeviceModel.ofCapabilities caps = .error cause) : ofCapabilities caps = .error cause := by
  cases hgeneral : caps.general with
  | none =>
    have hmissing : DeviceModel.ofCapabilities caps = .error (.missing .general) := by
      simp [DeviceModel.ofCapabilities, hgeneral]
    obtain rfl := Except.error.inj (h.symm.trans hmissing)
    simp [ofCapabilities, hgeneral]
  | some general => simp [ofCapabilities, ofVendor, hgeneral, h]

theorem ofCapabilities_of_ok {caps : Capabilities} {standard : DeviceModel}
    (h : DeviceModel.ofCapabilities caps = .ok standard) :
    ofCapabilities caps
      = if caps.ofImpinj then
          (Impinj.refine standard).map fun model => { vendor := .impinj, model }
        else .ok { vendor := .generic, model := standard } := by
  cases hgeneral : caps.general with
  | none => simp [DeviceModel.ofCapabilities, hgeneral] at h
  | some general =>
    have hvendor : ofCapabilities caps = ofVendor (.ofManufacturer general.manufacturer) caps := by
      simp [ofCapabilities, hgeneral]
    rw [hvendor]
    by_cases himpinj : general.manufacturer = Impinj.vendor
    · rw [Vendor.ofManufacturer, if_pos himpinj, if_pos (by simp [Capabilities.ofImpinj, *])]
      simp only [ofVendor, h, ok_bind]
      cases Impinj.refine standard <;> rfl
    · rw [Vendor.ofManufacturer, if_neg himpinj, if_neg (by simp [Capabilities.ofImpinj, *])]
      simp [ofVendor, h]

theorem ofCapabilities_cases (caps : Capabilities) :
    (∃ d, ofCapabilities caps = .ok d ∧ (∀ part, ¬caps.Lacks part)
        ∧ d.model.modes = (caps.modes.filter fun m => m.id.toNat < caps.modeLimit).map caps.mend)
      ∨ ∃ part, ofCapabilities caps = .error (.missing part) ∧ caps.Lacks part := by
  obtain ⟨standard, hstandard, hcomplete, hmodes⟩ | ⟨part, herror, hlacks⟩ :=
    DeviceModel.ofCapabilities_cases caps
  · rw [ofCapabilities_of_ok hstandard]
    cases himpinj : caps.ofImpinj with
    | false =>
      have hlimit : caps.modeLimit = 0x10000 := by simp [Capabilities.modeLimit, himpinj]
      have hmend : caps.mend = id := by
        funext m
        simp [Capabilities.mend, himpinj]
      simp only [Capabilities.Lacks, hlimit, hmend, List.map_id]
      exact .inl ⟨_, rfl, hcomplete, hmodes⟩
    | true =>
      have hlimit : caps.modeLimit = 1000 := by simp [Capabilities.modeLimit, himpinj]
      have hmend : caps.mend = Impinj.bitRate := by
        funext m
        simp [Capabilities.mend, Impinj.bitRate, himpinj]
      simp only [Capabilities.Lacks, hlimit, hmend]
      obtain ⟨model, hrefine, hnamed⟩ | ⟨hrefine, hnone⟩ := Impinj.refine_cases hmodes
      · refine .inl ⟨{ vendor := .impinj, model }, by simp [hrefine], ?_, hnamed⟩
        intro part hlacks
        by_cases hpart : part = .modeTable
        · subst hpart
          have hnone := (caps.filter_modes_eq_nil_iff 1000).2 hlacks
          exact model.modes_ne (by rw [hnamed, hnone, List.map_nil])
        · exact hcomplete part (hlacks.congr hpart)
      · exact .inr ⟨.modeTable, by simp [hrefine],
          (caps.filter_modes_eq_nil_iff _).1 hnone⟩
  · have hle : caps.modeLimit ≤ 0x10000 := by
      unfold Capabilities.modeLimit
      split <;> decide
    exact .inr ⟨part, ofCapabilities_of_error herror, hlacks.mono hle⟩

theorem exists_ofCapabilities_iff (caps : Capabilities) :
    (∃ d, ofCapabilities caps = .ok d) ↔ ∀ part, ¬caps.Lacks part := by
  obtain ⟨d, hd, hcomplete, -⟩ | ⟨part, herror, hlacks⟩ := ofCapabilities_cases caps
  · exact ⟨fun _ => hcomplete, fun _ => ⟨d, hd⟩⟩
  · constructor
    · rintro ⟨d, hd⟩
      cases hd.symm.trans herror
    · intro hcomplete
      exact absurd hlacks (hcomplete part)

/-- A reader has a model exactly if nothing is missing from its report; else the error is about a
part that is missing. The model has the reported levels of power in stable order, for which those
that come in order need not be sorted, and the reported modes that can be named, in their order. -/
theorem model_of_capabilities (caps : Capabilities) :
    ((∃ d, ofCapabilities caps = .ok d) ↔ ∀ part, ¬caps.Lacks part)
      ∧ ((∃ part, caps.Lacks part) →
          ∃ part, ofCapabilities caps = .error (.missing part) ∧ caps.Lacks part)
      ∧ (∀ levels, PowerLevel.table levels = levels.mergeSort PowerLevel.weaker)
      ∧ ∀ d, ofCapabilities caps = .ok d →
          (∀ table, PowerLevel.StablySorts table caps.powerLevels ↔ table = d.model.powerLevels)
            ∧ d.model.modes
              = (caps.modes.filter fun m => m.id.toNat < caps.modeLimit).map caps.mend := by
  refine ⟨exists_ofCapabilities_iff caps, fun hlacks => ?_, PowerLevel.table_eq_mergeSort,
    fun d hd => ⟨fun table => ?_, ?_⟩⟩
  · obtain ⟨-, -, hcomplete, -⟩ | herror := ofCapabilities_cases caps
    · obtain ⟨part, hlacks⟩ := hlacks
      exact absurd hlacks (hcomplete part)
    · exact herror
  · rw [(mirrors_of_ofCapabilities hd).table]
    exact PowerLevel.stablySorts_iff
  · obtain ⟨d', hd', -, hmodes⟩ | ⟨part, herror, -⟩ := ofCapabilities_cases caps
    · obtain rfl := Except.ok.inj (hd.symm.trans hd')
      exact hmodes
    · cases hd.symm.trans herror

def jumbled : Capabilities :=
  { plain Impinj.vendor with
    regulatory := some
      { uhf := some
          { powerLevels := [⟨1, 3000⟩, ⟨2, 1000⟩, ⟨3, 3000⟩, ⟨4, 1000⟩]
            frequencies := some { fixedTable := some ⟨[902750]⟩ }
            modes := [{ id := 1000 },
              { id := 4, modulation := .miller4, backscatterRate := 256000 }] } } }

/-- A report of nothing has no model; that of the jumbled reader has one, with its levels in order
and the mode that can be named. -/
theorem model_of_capabilities_jumbled :
    (∃ part, ofCapabilities {} = .error (.missing part))
      ∧ ∃ d, ofCapabilities jumbled = .ok d
        ∧ d.model.powerLevels = [⟨2, 1000⟩, ⟨4, 1000⟩, ⟨1, 3000⟩, ⟨3, 3000⟩]
        ∧ d.model.modes = [{ id := 4, modulation := .miller4, backscatterRate := 64000 }] := by
  obtain ⟨-, hmissing, -⟩ := model_of_capabilities {}
  obtain ⟨part, herror, -⟩ := hmissing ⟨.general, rfl⟩
  obtain ⟨hok, -, -, hmodel⟩ := model_of_capabilities jumbled
  obtain ⟨d, hd⟩ := hok.2 fun part => by
    cases part with
    | modeTable => simp [Capabilities.Lacks, Capabilities.LacksUnder]; decide
    | hopTable =>
      rintro ⟨tables, htables, hhops, -⟩
      cases htables
      cases hhops
    | fixedTable =>
      rintro ⟨tables, htables, -, hnone⟩
      cases htables
      cases hnone _ rfl
    | _ => exact nofun
  refine ⟨⟨part, herror⟩, d, hd, (((hmodel d hd).1 _).1 ⟨by decide, fun power => ?_⟩).symm, ?_⟩
  · by_cases hweak : power = 1000
    · subst hweak; rfl
    · by_cases hstrong : power = 3000
      · subst hstrong; rfl
      · simp [jumbled, Capabilities.powerLevels, Capabilities.uhf, Ne.symm hweak, Ne.symm hstrong]
  · rw [(hmodel d hd).2]
    rfl

end Device

end TagGateway
