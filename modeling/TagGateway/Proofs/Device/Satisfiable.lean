import TagGateway.Proofs.Device.Power

set_option autoImplicit false

namespace TagGateway

/-- What a reader reports is enough for a behavior. -/
structure Behavior.Satisfiable (b : Behavior) (caps : Capabilities) : Prop where
  trigger : ∀ gpi, b.gpi = some gpi → 1 ≤ gpi.port ∧ gpi.port ≤ caps.inputs
  power : ∃ level ∈ caps.powerLevels, level.value.toInt ≤ b.maxPower.toInt
  frequency : caps.hops = true ∨ b.frequencies = [] ∨ ∃ f ∈ b.frequencies, f ∈ caps.channels

instance (b : Behavior) (caps : Capabilities) : Decidable (b.Satisfiable caps) :=
  decidable_of_iff
    ((∀ gpi ∈ b.gpi, 1 ≤ gpi.port ∧ gpi.port ≤ caps.inputs)
      ∧ (∃ level ∈ caps.powerLevels, level.value.toInt ≤ b.maxPower.toInt)
      ∧ (caps.hops = true ∨ b.frequencies = [] ∨ ∃ f ∈ b.frequencies, f ∈ caps.channels))
    ⟨fun ⟨htrigger, hpower, hfrequency⟩ => ⟨htrigger, hpower, hfrequency⟩,
      fun h => ⟨h.trigger, h.power, h.frequency⟩⟩

namespace BehaviorError

/-- An error is about what a behavior asks for, and says truly what the reader does not have. -/
def Explains (cause : BehaviorError) (b : Behavior) (caps : Capabilities) : Prop :=
  match cause with
  | noInputs => (∃ gpi, b.gpi = some gpi) ∧ caps.inputs = 0
  | noSuchInput port inputs =>
    (∃ gpi, b.gpi = some gpi ∧ gpi.port = port) ∧ inputs = caps.inputs
      ∧ (port = 0 ∨ inputs < port)
  | powerTooLow requested least =>
    requested = b.maxPower ∧ requested.toInt < least.toInt
      ∧ (∃ level ∈ caps.powerLevels, level.value = least)
      ∧ ∀ level ∈ caps.powerLevels, least.toInt ≤ level.value.toInt
  | noFrequency requested =>
    requested = b.frequencies ∧ requested ≠ [] ∧ caps.hops = false
      ∧ ∀ f ∈ requested, f ∉ caps.channels
  | missing _ | channelNumber _ | modeNumber _ => False

variable {cause : BehaviorError} {b : Behavior} {caps : Capabilities}

theorem Explains.not_satisfiable (h : cause.Explains b caps) : ¬b.Satisfiable caps := by
  intro hs
  cases cause with
  | noInputs =>
    obtain ⟨⟨gpi, hgpi⟩, hnone⟩ := h
    have := hs.trigger gpi hgpi
    rw [hnone] at this
    grind
  | noSuchInput port inputs =>
    obtain ⟨⟨gpi, hgpi, rfl⟩, rfl, hrange⟩ := h
    have := hs.trigger gpi hgpi
    grind
  | powerTooLow requested least =>
    obtain ⟨rfl, hlow, -, hleast⟩ := h
    obtain ⟨level, hlevel, hle⟩ := hs.power
    have := hleast level hlevel
    omega
  | noFrequency requested =>
    obtain ⟨rfl, hsome, hfixed, hnone⟩ := h
    obtain hhops | hempty | ⟨f, hf, hoffered⟩ := hs.frequency
    · simp [hfixed] at hhops
    · exact hsome hempty
    · exact hnone f hf hoffered
  | missing part => exact h
  | channelNumber cause => exact h
  | modeNumber id => exact h

theorem Explains.message_eq (h : cause.Explains b caps) :
    cause.message = "behavior unsatisfiable: " ++ cause.detail := by
  cases cause with
  | missing part => exact h.elim
  | channelNumber cause => exact h.elim
  | modeNumber id => exact h.elim
  | _ => rfl

end BehaviorError

def IsFirstOffered (wanted table : List UInt32) (index : Nat) : Prop :=
  ∃ before f after, wanted = before ++ f :: after ∧ (∀ g ∈ before, g ∉ table)
    ∧ table[index]? = some f ∧ ∀ earlier < index, table[earlier]? ≠ some f

theorem findIdx?_beq_eq_some_iff {table : List UInt32} {f : UInt32} {index : Nat} :
    table.findIdx? (· == f) = some index ↔
      table[index]? = some f ∧ ∀ earlier < index, table[earlier]? ≠ some f := by
  rw [List.findIdx?_eq_some_iff_getElem]
  constructor
  · rintro ⟨hlt, hat, hbefore⟩
    refine ⟨?_, fun earlier hearlier hsame => ?_⟩
    · rw [List.getElem?_eq_getElem hlt, eq_of_beq hat]
    · obtain ⟨h, hsame⟩ := List.getElem?_eq_some_iff.1 hsame
      exact hbefore earlier hearlier (beq_iff_eq.2 hsame)
  · rintro ⟨hat, hbefore⟩
    obtain ⟨hlt, hat⟩ := List.getElem?_eq_some_iff.1 hat
    refine ⟨hlt, beq_iff_eq.2 hat, fun earlier hearlier hsame => ?_⟩
    exact hbefore earlier hearlier
      (List.getElem?_eq_some_iff.2 ⟨by omega, beq_iff_eq.1 hsame⟩)

theorem firstOffered_eq_some_iff {wanted table : List UInt32} {index : Nat} :
    firstOffered wanted table = some index ↔ IsFirstOffered wanted table index := by
  unfold firstOffered IsFirstOffered
  simp only [List.findSome?_eq_some_iff, findIdx?_beq_eq_some_iff, List.findIdx?_eq_none_iff]
  constructor
  · rintro ⟨before, f, after, rfl, ⟨hat, hearlier⟩, hnone⟩
    exact ⟨before, f, after, rfl, fun g hg hmem => by simpa using hnone g hg g hmem, hat, hearlier⟩
  · rintro ⟨before, f, after, rfl, hnone, hat, hearlier⟩
    refine ⟨before, f, after, rfl, ⟨hat, hearlier⟩, fun g hg other hother => ?_⟩
    exact beq_eq_false_iff_ne.2 fun hsame => hnone g hg (hsame ▸ hother)

theorem firstOffered_spec (wanted table : List UInt32) :
    match firstOffered wanted table with
    | some index => index < table.length ∧ ∃ f ∈ wanted, f ∈ table
    | none => ∀ f ∈ wanted, f ∉ table := by
  cases h : firstOffered wanted table with
  | some index =>
    obtain ⟨before, f, after, rfl, -, hat, -⟩ := firstOffered_eq_some_iff.1 h
    obtain ⟨hlt, hat⟩ := List.getElem?_eq_some_iff.1 hat
    exact ⟨hlt, f, by simp, hat ▸ List.getElem_mem hlt⟩
  | none =>
    intro f hf hmem
    have := List.findIdx?_eq_none_iff.1 (List.findSome?_eq_none_iff.1 h f hf) f hmem
    simp at this

theorem channelNumber_eq_ok {index : Nat} (h : index < 65535) :
    channelNumber index = .ok (UInt16.ofNat (index + 1)) := by
  unfold channelNumber
  simp only [Nat.mod_eq_of_lt (show index < 0x10000 by omega)]
  rw [if_neg (by omega)]

namespace DeviceModel

variable {d : DeviceModel} {caps : Capabilities} {b : Behavior}

theorem Mirrors.startTrigger_cases (hm : d.Mirrors caps) (b : Behavior) :
    ((∃ start, d.startTrigger b = .ok start)
        ∧ ∀ gpi, b.gpi = some gpi → 1 ≤ gpi.port ∧ gpi.port ≤ caps.inputs)
      ∨ ∃ cause, d.startTrigger b = .error cause ∧ cause.Explains b caps := by
  unfold startTrigger
  rw [hm.inputs]
  cases hgpi : b.gpi with
  | none => exact .inl ⟨⟨.null, rfl⟩, nofun⟩
  | some gpi =>
    dsimp only
    split
    · next hnone => exact .inr ⟨.noInputs, rfl, ⟨gpi, hgpi⟩, hnone⟩
    · split
      · next hrange =>
        exact .inr ⟨.noSuchInput gpi.port caps.inputs, rfl, ⟨gpi, hgpi, rfl⟩, rfl, hrange⟩
      · next hrange =>
        refine .inl ⟨⟨_, rfl⟩, fun gpi' h => ?_⟩
        obtain rfl := Option.some.inj h
        grind

theorem Mirrors.place?_cases (hm : d.Mirrors caps) {channels : List UInt32}
    (hplan : d.plan = .fixed channels) (b : Behavior) :
    (∃ index, b.place? channels = some index ∧ index < caps.channels.length
        ∧ (b.frequencies = [] ∨ ∃ f ∈ b.frequencies, f ∈ caps.channels))
      ∨ b.place? channels = none
        ∧ (BehaviorError.noFrequency b.frequencies).Explains b caps := by
  obtain ⟨hfixed, htable, hsome⟩ := FrequencyTables.plan_fixed (hplan ▸ d.plan_eq)
  have hchannels : caps.channels = channels := by
    simp [Capabilities.channels, hm.frequencies, htable]
  have hhops : caps.hops = false := by simp [Capabilities.hops, hm.frequencies, hfixed]
  rw [← hchannels]
  unfold Behavior.place?
  split
  · next hempty =>
    refine .inl ⟨0, rfl, List.length_pos_iff.2 (hchannels ▸ hsome), .inl ?_⟩
    simpa using hempty
  · next hwanted =>
    have hspec := firstOffered_spec b.frequencies caps.channels
    cases h : firstOffered b.frequencies caps.channels with
    | some index =>
      rw [h] at hspec
      exact .inl ⟨index, rfl, hspec.1, .inr hspec.2⟩
    | none =>
      rw [h] at hspec
      exact .inr ⟨rfl, rfl, by simpa using hwanted, hhops, hspec⟩

theorem Mirrors.transmitter_cases (hm : d.Mirrors caps) (numbered : caps.channels.length ≤ 65535)
    (b : Behavior) :
    ((∃ t, d.transmitter b = .ok t)
        ∧ (∃ level ∈ caps.powerLevels, level.value.toInt ≤ b.maxPower.toInt)
        ∧ (caps.hops = true ∨ b.frequencies = [] ∨ ∃ f ∈ b.frequencies, f ∈ caps.channels))
      ∨ ∃ cause, d.transmitter b = .error cause ∧ cause.Explains b caps := by
  have hbest := hm.isBest_powerAtMost b.maxPower
  rw [transmitter_eq]
  split
  · next hlow =>
    exact .inr ⟨_, rfl, rfl, hlow, ⟨_, hbest.mem, rfl⟩, hbest.weakest (hbest.above_iff.1 hlow)⟩
  · next hpower =>
    have hlevel := Int.not_lt.1 hpower
    cases hplan : d.plan with
    | hopping table =>
      have hhopping := (FrequencyTables.plan_hopping (hplan ▸ d.plan_eq)).1
      have hhops : caps.hops = true := by simp [Capabilities.hops, hm.frequencies, hhopping]
      exact .inl ⟨⟨_, rfl⟩, ⟨_, hbest.mem, hlevel⟩, .inl hhops⟩
    | fixed channels =>
      dsimp only
      obtain ⟨index, hplace, hlt, hwanted⟩ | ⟨hplace, hnone⟩ := hm.place?_cases hplan b
      · rw [hplace]
        dsimp only
        rw [channelNumber_eq_ok (by omega)]
        exact .inl ⟨⟨_, rfl⟩, ⟨_, hbest.mem, hlevel⟩, .inr hwanted⟩
      · rw [hplace]
        exact .inr ⟨_, rfl, hnone⟩

end DeviceModel

namespace Device

theorem compile_cases {d : Device} {caps : Capabilities} (hm : d.model.Mirrors caps)
    (numbered : caps.channels.length ≤ 65535) (b : Behavior) (e : Environment) :
    ((∃ spec, d.compile b e = .ok spec) ∧ b.Satisfiable caps)
      ∨ ∃ cause, d.compile b e = .error cause ∧ cause.Explains b caps := by
  rw [compile_eq]
  obtain ⟨⟨start, hs⟩, htrigger⟩ | ⟨cause, hs, hexplains⟩ := hm.startTrigger_cases b
  · rw [hs]
    obtain ⟨⟨t, ht⟩, hpower, hfrequency⟩ | ⟨cause, ht, hexplains⟩ :=
      hm.transmitter_cases numbered b
    · obtain ⟨rf, hrf, -⟩ := d.model.rfControl_eq_ok e
      exact .inl ⟨⟨d.operation b e start t rf, by rw [ht, hrf]; rfl⟩, htrigger, hpower, hfrequency⟩
    · exact .inr ⟨cause, by rw [ht]; rfl, hexplains⟩
  · exact .inr ⟨cause, by rw [hs]; rfl, hexplains⟩

/-- A behavior compiles for a reader exactly if what the reader reports is enough for it, whatever
the environment. Else the error says truly what the reader does not have, as something that the
behavior asks for: it is never about a part of the report that is missing, nor about a number that
does not fit. The search for a level of power stays within the table either way, and the mode has a
number that an operation can hold. -/
theorem compiles_iff_satisfiable (d : Device) (caps : Capabilities) (b : Behavior)
    (e : Environment) (accepted : ofCapabilities caps = .ok d)
    (numbered : caps.channels.length ≤ 65535) :
    ((∃ spec, d.compile b e = .ok spec) ↔ b.Satisfiable caps)
      ∧ (∃ i, PowerLevel.place? b.maxPower d.model.powerLevels = some i
        ∧ d.model.powerLevels[i]? = some (d.model.powerAtMost b.maxPower))
      ∧ (∃ rf, d.model.rfControl e = .ok rf ∧ rf.mode.toNat = (d.model.bestMode e).id.toNat)
      ∧ (¬b.Satisfiable caps → ∃ cause, d.compile b e = .error cause
        ∧ cause.Explains b caps
        ∧ cause.message = "behavior unsatisfiable: " ++ cause.detail) := by
  have hm := mirrors_of_ofCapabilities accepted
  have hcases := compile_cases hm numbered b e
  refine ⟨⟨fun ⟨spec, hspec⟩ => ?_, fun hs => ?_⟩,
    PowerLevel.getElem?_place? hm.ascending d.model.powerLevels_ne, d.model.rfControl_eq_ok e,
    fun hs => ?_⟩
  · obtain ⟨-, hs⟩ | ⟨cause, hcause, -⟩ := hcases
    · exact hs
    · cases hspec.symm.trans hcause
  · obtain ⟨hspec, -⟩ | ⟨cause, -, hexplains⟩ := hcases
    · exact hspec
    · exact absurd hs hexplains.not_satisfiable
  · obtain ⟨-, hsatisfiable⟩ | ⟨cause, hcause, hexplains⟩ := hcases
    · exact absurd hsatisfiable hs
    · exact ⟨cause, hcause, hexplains, hexplains.message_eq⟩

/-- The last input, and the second frequency wanted; there is no input after it. -/
theorem compiles_iff_satisfiable_plain :
    ∃ d, ofCapabilities (plain 0) = .ok d
      ∧ (∃ spec, d.compile
        { gpi := some { port := 2, level := true }, frequencies := [1, 902750] } {} = .ok spec)
      ∧ ∃ cause, d.compile { gpi := some { port := 3, level := true } } {} = .error cause
        ∧ cause.Explains { gpi := some { port := 3, level := true } } (plain 0) := by
  have hok : ((ofCapabilities (plain 0)).map fun _ => ()) = .ok () := by decide +kernel
  cases hd : ofCapabilities (plain 0) with
  | error cause => simp [hd] at hok
  | ok d =>
    have hchannels : (plain 0).channels.length ≤ 65535 := by decide
    have hlast := compiles_iff_satisfiable d (plain 0)
      { gpi := some { port := 2, level := true }, frequencies := [1, 902750] } {} hd hchannels
    have hnext := compiles_iff_satisfiable d (plain 0)
      { gpi := some { port := 3, level := true } } {} hd hchannels
    obtain ⟨cause, hcause, hexplains, -⟩ := hnext.2.2.2 (by decide)
    exact ⟨d, rfl, hlast.1.2 (by decide), cause, hcause, hexplains⟩

end Device

end TagGateway
