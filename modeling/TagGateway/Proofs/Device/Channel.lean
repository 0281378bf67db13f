import TagGateway.Proofs.Device.Satisfiable

set_option autoImplicit false

namespace TagGateway

/-- The place of the frequency that a behavior is to be carried out on: the first one of the table
will do where none is wanted. -/
def Behavior.TunesTo (b : Behavior) (table : List UInt32) (index : Nat) : Prop :=
  b.frequencies = [] ∧ index = 0 ∨ IsFirstOffered b.frequencies table index

namespace Behavior

variable {b : Behavior} {table : List UInt32} {index : Nat}

theorem place?_eq_some_iff : b.place? table = some index ↔ b.TunesTo table index := by
  unfold place? TunesTo
  cases h : b.frequencies with
  | nil =>
    have hnone : ¬IsFirstOffered [] table index := by
      rintro ⟨before, f, after, hempty, -⟩
      simp at hempty
    simp [hnone, eq_comm]
  | cons f rest => simp [firstOffered_eq_some_iff]

theorem TunesTo.unique {other : Nat} (h : b.TunesTo table index) (h' : b.TunesTo table other) :
    index = other :=
  Option.some.inj ((place?_eq_some_iff.2 h).symm.trans (place?_eq_some_iff.2 h'))

theorem TunesTo.ne_of_lt (h : b.TunesTo table index) {earlier : Nat} (hlt : earlier < index) :
    table[earlier]? ≠ table[index]? := by
  obtain ⟨-, rfl⟩ | ⟨before, f, after, -, -, hat, hearlier⟩ := h
  · omega
  · rw [hat]
    exact hearlier earlier hlt

end Behavior

theorem channelNumber_cases {index : Nat} (h : 65535 ≤ index) :
    channelNumber index = .error (.channelNumber .add)
      ∨ ∃ number, channelNumber index = .ok number
        ∧ 1 ≤ number.toNat ∧ number.toNat ≤ index := by
  unfold channelNumber
  dsimp only
  split
  · exact .inl rfl
  · next hlow =>
    have hlt : index % 0x10000 < 0x10000 := Nat.mod_lt _ (by decide)
    refine .inr ⟨_, rfl, ?_⟩
    simp only [UInt16.toNat_ofNat']
    omega

namespace DeviceModel

variable {d : DeviceModel} {caps : Capabilities} {b : Behavior}

/-- Without hopping and with power enough, all that is left to say is the channel's number. -/
theorem Mirrors.transmitter_of_fixed (hm : d.Mirrors caps) (fixed : caps.hops = false)
    (power : ∃ level ∈ caps.powerLevels, level.value.toInt ≤ b.maxPower.toInt)
    (frequency : b.frequencies = [] ∨ ∃ f ∈ b.frequencies, f ∈ caps.channels) :
    ∃ index, index < caps.channels.length ∧ b.TunesTo caps.channels index
      ∧ d.transmitter b = (channelNumber index).map fun channel =>
        { hopTable := 0, channel, power := (d.powerAtMost b.maxPower).index } := by
  have hlevel := (hm.isBest_powerAtMost b.maxPower).strongest power
  rw [transmitter_eq, if_neg (by omega)]
  cases hplan : d.plan with
  | hopping table =>
    have hhopping := (FrequencyTables.plan_hopping (hplan ▸ d.plan_eq)).1
    simp [Capabilities.hops, hm.frequencies, hhopping] at fixed
  | fixed channels =>
    obtain ⟨-, htable, -⟩ := FrequencyTables.plan_fixed (hplan ▸ d.plan_eq)
    have hchannels : caps.channels = channels := by
      simp [Capabilities.channels, hm.frequencies, htable]
    obtain ⟨index, hplace, hlt, -⟩ | ⟨-, hexplains⟩ := hm.place?_cases hplan b
    · rw [hchannels] at hlt ⊢
      exact ⟨index, hlt, Behavior.place?_eq_some_iff.1 hplace, by simp only [hplace]⟩
    · obtain ⟨-, hsome, -, hnone⟩ := hexplains
      obtain hempty | ⟨f, hf, hoffered⟩ := frequency
      · exact absurd hempty hsome
      · exact absurd hoffered (hnone f hf)

/-- A reader that stays on one frequency takes the first wanted one that its table has, at its first
place, or the first of the table where none is wanted. Up to the 65535th place the channel has that
place's number, counted from one. From the next on it never has: either the number overflows, or it
is that of a place before, where another frequency stands. -/
theorem channel_of_frequency (accepted : ofCapabilities caps = .ok d) (fixed : caps.hops = false)
    (power : ∃ level ∈ caps.powerLevels, level.value.toInt ≤ b.maxPower.toInt)
    (frequency : b.frequencies = [] ∨ ∃ f ∈ b.frequencies, f ∈ caps.channels) :
    ∃ index, index < caps.channels.length ∧ b.TunesTo caps.channels index
      ∧ (index < 65535 → ∃ t, d.transmitter b = .ok t ∧ t.hopTable = 0
        ∧ t.channel.toNat = index + 1)
      ∧ (65535 ≤ index → d.transmitter b = .error (.channelNumber .add)
        ∨ ∃ t, d.transmitter b = .ok t ∧ t.hopTable = 0 ∧ 1 ≤ t.channel.toNat
          ∧ t.channel.toNat ≤ index
          ∧ caps.channels[t.channel.toNat - 1]? ≠ caps.channels[index]?) := by
  obtain ⟨index, hlt, htunes, htransmitter⟩ :=
    (mirrors_of_ofCapabilities accepted).transmitter_of_fixed fixed power frequency
  refine ⟨index, hlt, htunes, fun hnarrow => ?_, fun hwide => ?_⟩
  · rw [htransmitter, channelNumber_eq_ok hnarrow]
    refine ⟨_, rfl, rfl, ?_⟩
    simp only [UInt16.toNat_ofNat']
    omega
  · rw [htransmitter]
    obtain hnumber | ⟨number, hnumber, hpos, hle⟩ := channelNumber_cases hwide
    · exact .inl (by rw [hnumber]; rfl)
    · have hbefore : number.toNat - 1 < index := by omega
      exact .inr ⟨_, by rw [hnumber]; rfl, rfl, hpos, hle, htunes.ne_of_lt hbefore⟩

def onChannels (channels : List UInt32) : Capabilities :=
  { Device.plain 0 with
    regulatory := some
      { uhf := some
          { powerLevels := [⟨1, 1000⟩]
            frequencies := some { fixedTable := some ⟨channels⟩ }
            modes := [{ id := 4 }] } } }

/-- The second frequency wanted is the third of the reader's channels. -/
theorem channel_of_frequency_third :
    ∃ d, ofCapabilities (onChannels [865700, 866300, 866900]) = .ok d
      ∧ ∃ index t, Behavior.TunesTo { frequencies := [999000, 866900] }
          [865700, 866300, 866900] index
        ∧ d.transmitter { frequencies := [999000, 866900] } = .ok t
        ∧ t.hopTable = 0 ∧ t.channel.toNat = index + 1 ∧ t.channel = 3 := by
  have hok : ((ofCapabilities (onChannels [865700, 866300, 866900])).bind fun d =>
      (d.transmitter { frequencies := [999000, 866900] }).map (·.channel)) = .ok 3 := by
    decide +kernel
  cases hd : ofCapabilities (onChannels [865700, 866300, 866900]) with
  | error cause => simp [hd, Except.bind] at hok
  | ok d =>
    obtain ⟨index, hlt, htunes, hnarrow, -⟩ :=
      channel_of_frequency (b := { frequencies := [999000, 866900] }) hd rfl
        ⟨⟨1, 1000⟩, List.mem_singleton_self _, by decide⟩ (.inr ⟨866900, by decide, by decide⟩)
    have hindex : index < 3 := hlt
    obtain ⟨t, ht, hhop, hchannel⟩ := hnarrow (by omega)
    simp only [hd, Except.bind, ht, ok_map, Except.ok.injEq] at hok
    exact ⟨d, rfl, index, t, htunes, ht, hhop, hchannel, hok⟩

def lastAlone (n : Nat) : List UInt32 := .replicate n 0 ++ [1]

theorem tunesTo_lastAlone (n : Nat) :
    Behavior.TunesTo { frequencies := [1] } (lastAlone n) n := by
  refine .inr ⟨[], 1, [], rfl, nofun, by simp [lastAlone], fun earlier hearlier => ?_⟩
  simp [lastAlone, List.getElem?_append_left, hearlier]

/-- Sixteen bits are not enough for any table: of 65537 channels the last is wanted, and the reader
is sent to the first, where another frequency stands. -/
theorem channel_of_frequency_beyond :
    let caps := onChannels (lastAlone 65536)
    let b : Behavior := { frequencies := [1] }
    ∃ d t, ofCapabilities caps = .ok d ∧ caps.hops = false
      ∧ (∃ level ∈ caps.powerLevels, level.value.toInt ≤ b.maxPower.toInt)
      ∧ (∃ f ∈ b.frequencies, f ∈ caps.channels)
      ∧ d.transmitter b = .ok t ∧ t.channel = 1 ∧ caps.channels[0]? = some 0
      ∧ ¬∃ index, t.channel.toNat = index + 1 ∧ b.TunesTo caps.channels index := by
  intro caps b
  have hok : ((ofCapabilities caps).map fun _ => ()) = .ok () := by decide +kernel
  have hlast : b.TunesTo caps.channels 65536 := tunesTo_lastAlone 65536
  have hpower : ∃ level ∈ caps.powerLevels, level.value.toInt ≤ b.maxPower.toInt :=
    ⟨⟨1, 1000⟩, List.mem_singleton_self _, by decide⟩
  have hwanted : ∃ f ∈ b.frequencies, f ∈ caps.channels :=
    ⟨1, List.mem_singleton_self _, List.mem_append_right _ (List.mem_singleton_self _)⟩
  cases hd : ofCapabilities caps with
  | error cause => simp [hd] at hok
  | ok d =>
    obtain ⟨index, -, htunes, htransmitter⟩ :=
      (mirrors_of_ofCapabilities hd).transmitter_of_fixed rfl hpower (.inr hwanted)
    obtain rfl := hlast.unique htunes
    refine ⟨d, _, rfl, rfl, hpower, hwanted, htransmitter, rfl, rfl, ?_⟩
    rintro ⟨index, hnumber, htunes⟩
    obtain rfl := hlast.unique htunes
    cases hnumber

end DeviceModel

end TagGateway
