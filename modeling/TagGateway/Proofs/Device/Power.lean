import TagGateway.Proofs.Device.Reported
import TagGateway.Proofs.Scan.Ceiling

set_option autoImplicit false

namespace TagGateway.DeviceModel

variable {d : DeviceModel} {caps : Capabilities}

theorem Mirrors.isBest_powerAtMost (hm : d.Mirrors caps) (ceiling : Int16) :
    (d.powerAtMost ceiling).IsBest ceiling caps.powerLevels :=
  (PowerLevel.isBest_atMost hm.ascending d.powerLevels_ne).of_perm hm.perm_powerLevels

theorem transmitter_powerTooLow_iff {b : Behavior} {requested least : Int16} :
    d.transmitter b = .error (.powerTooLow requested least) ↔
      b.maxPower.toInt < (d.powerAtMost b.maxPower).value.toInt
        ∧ requested = b.maxPower ∧ least = (d.powerAtMost b.maxPower).value := by
  rw [transmitter_eq]
  split
  · next hlow => simp [hlow, eq_comm]
  · next hpower =>
    simp only [hpower, false_and, iff_false]
    cases d.plan with
    | hopping table => simp
    | fixed channels =>
      dsimp only
      split
      · simp
      · next index hplace =>
        cases hchannel : channelNumber index with
        | ok channel => simp
        | error cause =>
          obtain ⟨rfl, -⟩ := channelNumber_eq_error hchannel
          simp

/-- Whatever the order of the reported levels, the search for a ceiling stays within the table and
comes to the strongest level at or below the ceiling, or to the weakest of all where every level is
above. A behavior is refused for its power exactly if every level is above its own ceiling; else the
level in use is not above it, and no reported one is between. -/
theorem power_of_reported {caps : Capabilities} {d : DeviceModel}
    (accepted : ofCapabilities caps = .ok d) :
    (∀ ceiling : Int16,
      (∃ i, PowerLevel.place? ceiling d.powerLevels = some i
        ∧ d.powerLevels[i]? = some (d.powerAtMost ceiling))
      ∧ (d.powerAtMost ceiling).IsBest ceiling caps.powerLevels)
    ∧ ∀ b : Behavior,
      ((∃ requested least, d.transmitter b = .error (.powerTooLow requested least))
        ↔ ∀ level ∈ caps.powerLevels, b.maxPower.toInt < level.value.toInt)
      ∧ ((∃ level ∈ caps.powerLevels, level.value.toInt ≤ b.maxPower.toInt) →
        ∃ chosen ∈ caps.powerLevels, chosen.value.toInt ≤ b.maxPower.toInt
          ∧ (∀ level ∈ caps.powerLevels,
            ¬(chosen.value.toInt < level.value.toInt ∧ level.value.toInt ≤ b.maxPower.toInt))
          ∧ ∀ t, d.transmitter b = .ok t → t.power = chosen.index) := by
  have hm := mirrors_of_ofCapabilities accepted
  refine ⟨fun ceiling => ⟨?_, hm.isBest_powerAtMost ceiling⟩, fun b => ?_⟩
  · exact PowerLevel.getElem?_place? hm.ascending d.powerLevels_ne
  · have hbest := hm.isBest_powerAtMost b.maxPower
    refine ⟨?_, fun hallowed => ⟨d.powerAtMost b.maxPower, hbest.mem, ?_⟩⟩
    · simp only [transmitter_powerTooLow_iff, exists_and_left, exists_eq, and_true]
      exact hbest.above_iff
    · obtain ⟨hle, hstrongest⟩ := hbest.strongest hallowed
      refine ⟨hle, fun level hlevel ⟨hlt, hwithin⟩ => ?_, fun t ht => (transmitter_eq_ok ht).2.1⟩
      have := hstrongest level hlevel hwithin
      omega

def jumbled : List PowerLevel := [⟨1, 3000⟩, ⟨2, 1000⟩, ⟨3, 2000⟩, ⟨4, 2000⟩]

/-- At the level that is there twice the first entry is in use, above it the last. Nothing is as
weak as 5 dBm. -/
theorem power_of_reported_jumbled :
    ∃ d, ofCapabilities (Device.tuned jumbled [{ id := 4 }]) = .ok d
      ∧ d.powerAtMost 2000 = ⟨3, 2000⟩ ∧ d.powerAtMost 2500 = ⟨4, 2000⟩
      ∧ (d.powerAtMost 2500).IsBest 2500 jumbled
      ∧ ∃ requested least, d.transmitter { maxPower := 500 }
        = .error (.powerTooLow requested least) := by
  have hok : ((ofCapabilities (Device.tuned jumbled [{ id := 4 }])).map fun _ => ()) = .ok () := by
    decide +kernel
  have hsorted : PowerLevel.table jumbled = [⟨2, 1000⟩, ⟨3, 2000⟩, ⟨4, 2000⟩, ⟨1, 3000⟩] := by
    simp [jumbled, PowerLevel.table, PowerLevel.ascending, PowerLevel.weaker, List.mergeSort]
  cases hd : ofCapabilities (Device.tuned jumbled [{ id := 4 }]) with
  | error cause => simp [hd] at hok
  | ok d =>
    have htable := (mirrors_of_ofCapabilities hd).table.trans hsorted
    obtain ⟨hceilings, hbehaviors⟩ := power_of_reported hd
    refine ⟨d, rfl, ?_, ?_, (hceilings 2500).2,
      (hbehaviors { maxPower := 500 }).1.2 (by decide)⟩
    · simp only [powerAtMost, htable]; rfl
    · simp only [powerAtMost, htable]; rfl

end TagGateway.DeviceModel
