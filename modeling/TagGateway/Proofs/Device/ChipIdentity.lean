import TagGateway.Proofs.Device.CarryForward
import TagGateway.Proofs.Device.Parameters

set_option autoImplicit false

namespace TagGateway

theorem length_wordOctets (ws : List UInt16) : (wordOctets ws).length = 2 * ws.length := by
  induction ws with
  | nil => rfl
  | cons w rest ih =>
    rw [wordOctets_cons, List.length_append, ih, List.length_cons]
    simp [wordOctets]
    omega

/-- A parameter with the identity of a chip: how many words that has, which is one at least, then
the octets of these, and whatever follows. -/
def CustomParameter.Names (p : CustomParameter) (octets : List UInt8) : Prop :=
  ∃ (count : UInt16) (surplus : List UInt8), 0 < count.toNat
    ∧ octets.length = 2 * count.toNat
    ∧ p.data.toList = wordOctets [count] ++ octets ++ surplus

namespace Impinj

/-- The first of some parameters that is to have the chip's identity has these octets for it. -/
def FirstNames (custom : List CustomParameter) (octets : List UInt8) : Prop :=
  ∃ p, IsFirst custom serializedTid p ∧ p.Names octets

theorem wordOctets_take_words {octets : List UInt8} {n : Nat} (h : 2 * n ≤ octets.length) :
    wordOctets ((words octets).take n) = octets.take (2 * n) := by
  induction n generalizing octets with
  | zero => simp [wordOctets]
  | succ n ih =>
    cases octets with
    | nil => simp at h
    | cons high octets =>
      cases octets with
      | nil => simp at h; omega
      | cons low rest =>
        have hrest : 2 * n ≤ rest.length := by simp at h; omega
        have hdouble : 2 * (n + 1) = 2 * n + 1 + 1 := by omega
        rw [words, List.take_succ_cons, wordOctets_cons, wordOctets_word, ih hrest, hdouble,
          List.take_succ_cons, List.take_succ_cons]
        rfl

theorem exists_words {octets : List UInt8} {n : Nat} (h : octets.length = 2 * n) :
    ∃ ws, wordOctets ws = octets := by
  refine ⟨(words octets).take n, ?_⟩
  rw [wordOctets_take_words (by omega), List.take_of_length_le (by omega)]

variable {custom : List CustomParameter} {octets : List UInt8} {ws : List UInt16}

theorem serializedTid?_of_find? {p : CustomParameter}
    (h : find? custom serializedTid = some p) :
    serializedTid? custom = some ws ↔ p.Names (wordOctets ws) := by
  unfold serializedTid?
  rw [h, Option.map_some]
  constructor
  · intro hws
    split at hws
    · next high low rest hdata =>
      have hdata : p.data.toList = high :: low :: rest := Option.some.inj hdata
      dsimp only at hws
      split at hws
      · cases hws
      · next hroom =>
        obtain ⟨hpositive, hlength⟩ := not_or.1 hroom
        have hlength : 2 * (word high low).toNat ≤ rest.length := by omega
        obtain rfl := Option.some.inj hws
        rw [wordOctets_take_words hlength]
        refine ⟨word high low, rest.drop (2 * (word high low).toNat), by omega, ?_, ?_⟩
        · rw [List.length_take, Nat.min_eq_left hlength]
        · rw [hdata, wordOctets_word, List.append_assoc, List.take_append_drop]
          rfl
    · cases hws
  · rintro ⟨count, surplus, hpositive, hlength, hdata⟩
    have hcount : ws.length = count.toNat := by
      rw [length_wordOctets] at hlength
      omega
    have hread : p.data.toList = UInt8.ofNat (count.toNat / 256) :: UInt8.ofNat (count.toNat % 256)
        :: (wordOctets ws ++ surplus) := by
      rw [hdata, List.append_assoc]
      rfl
    have hroom : ¬(count.toNat = 0 ∨ (wordOctets ws ++ surplus).length < 2 * count.toNat) := by
      rw [List.length_append]
      omega
    simp only [hread, word_octets, if_neg hroom]
    rw [words_append, List.take_append_of_le_length (by omega), List.take_of_length_le (by omega)]

theorem serializedTid?_eq_some_iff :
    serializedTid? custom = some ws ↔ FirstNames custom (wordOctets ws) := by
  simp only [FirstNames, ← find?_eq_some_iff]
  cases hfind : find? custom serializedTid with
  | none => simp [serializedTid?, hfind]
  | some p =>
    rw [serializedTid?_of_find? hfind]
    simp

theorem FirstNames.words (h : FirstNames custom octets) :
    ∃ ws, serializedTid? custom = some ws ∧ wordOctets ws = octets := by
  obtain ⟨p, hfirst, count, surplus, hpositive, hlength, hdata⟩ := id h
  obtain ⟨ws, rfl⟩ := exists_words hlength
  exact ⟨ws, serializedTid?_eq_some_iff.2 h, rfl⟩

theorem isSome_serializedTid?_iff :
    (serializedTid? custom).isSome ↔ ∃ octets, FirstNames custom octets := by
  rw [Option.isSome_iff_exists]
  constructor
  · rintro ⟨ws, hws⟩
    exact ⟨wordOctets ws, serializedTid?_eq_some_iff.1 hws⟩
  · rintro ⟨octets, hnames⟩
    obtain ⟨ws, hws, -⟩ := hnames.words
    exact ⟨ws, hws⟩

theorem FirstNames.length_pos (h : FirstNames custom octets) : 0 < octets.length := by
  obtain ⟨-, -, count, surplus, hpositive, hlength, -⟩ := h
  omega

theorem tid?_adoptTid {r : Reading} (h : r.memory = []) (tid : String) :
    (adoptTid r).tid? = some tid
      ↔ ∃ octets, FirstNames r.custom octets ∧ tid = Octets.hex ⟨octets⟩ := by
  unfold adoptTid
  rw [if_pos (List.isEmpty_iff.2 h)]
  cases hread : serializedTid? r.custom with
  | none =>
    have hnone : ¬∃ octets, FirstNames r.custom octets := by
      rw [← isSome_serializedTid?_iff, hread]
      exact nofun
    constructor
    · intro htid
      simp [Reading.tid?, h] at htid
    · rintro ⟨octets, hnames, -⟩
      exact (hnone ⟨octets, hnames⟩).elim
  | some ws =>
    have hnames := serializedTid?_eq_some_iff.1 hread
    have hsome : ws ≠ [] := fun hnil => by
      simpa [hnil, wordOctets] using hnames.length_pos
    have htid : Reading.tid? { r with memory := [{ status := 0, opSpec := 0, words := ws }] }
        = some (Octets.hex ⟨wordOctets ws⟩) := by
      simp [Reading.tid?, hsome, MemoryRead.hex]
    rw [htid, Option.some_inj, eq_comm]
    constructor
    · intro hhex
      exact ⟨wordOctets ws, hnames, hhex⟩
    · rintro ⟨octets, hother, rfl⟩
      obtain ⟨ws', hws', rfl⟩ := hother.words
      rw [Option.some.inj (hread.symm.trans hws')]

theorem memory_adoptTid {r : Reading} (h : r.memory ≠ []) : adoptTid r = r := by
  unfold adoptTid
  rw [if_neg (by simpa using h)]

theorem adoptTid_memory_congr {r r' : Reading} (hmemory : r'.memory = r.memory)
    (htid : serializedTid? r'.custom = serializedTid? r.custom) :
    (adoptTid r').memory = (adoptTid r).memory := by
  unfold adoptTid
  rw [hmemory, htid]
  split
  · split
    · rfl
    · exact hmemory
  · exact hmemory

end Impinj

namespace Device

open Impinj

theorem memory_complete (model : DeviceModel) (carry : Bool) (seen : LastSeen) (r : Reading) :
    (complete ⟨.impinj, model⟩ carry seen r).2.memory = (adoptTid r).memory := by
  cases carry with
  | false => rfl
  | true =>
    let carried := seen.carryFields model r
    let peaked := LastSeen.carryCustom Impinj.vendor peakRssi carried.1 carried.2
    have hreading := LastSeen.reading_carryCustom Impinj.vendor peakRssi carried.1 carried.2
    have hmemory : peaked.2.memory = r.memory :=
      (congrArg Reading.memory hreading).trans rfl
    exact adoptTid_memory_congr hmemory (serializedTid?_carryCustom carried.1 carried.2)

structure NamesChip (r result : Reading) : Prop where
  kept : r.memory ≠ [] → result.memory = r.memory
  named : r.memory = [] → ∀ tid, result.tid? = some tid
    ↔ ∃ octets, FirstNames r.custom octets ∧ tid = Octets.hex ⟨octets⟩

theorem namesChip_complete (model : DeviceModel) (carry : Bool) (seen : LastSeen) (r : Reading) :
    NamesChip r (complete ⟨.impinj, model⟩ carry seen r).2 := by
  have hmemory := memory_complete model carry seen r
  constructor
  · intro hread
    rw [hmemory, memory_adoptTid hread]
  · intro hnone tid
    rw [← tid?_adoptTid hnone tid, Reading.tid?, hmemory]
    rfl

theorem namesChip_completeAll (model : DeviceModel) (carry : Bool) (seen : LastSeen)
    (batch : List Reading) :
    List.Forall₂ NamesChip batch (completeAll ⟨.impinj, model⟩ carry seen batch).2 := by
  induction batch generalizing seen with
  | nil => exact .nil
  | cons r rest ih => exact .cons (namesChip_complete model carry seen r) (ih _)

/-- The chip's identity is read off the first parameter that is to have it, exactly if that has a
count of words that is not zero and then at least as many: these are the words, in their order. So
of a vendor's readings, whether or not anything is carried forward, each that came without memory
reads has the octets of the identity for its chip, or none if there is no such parameter or not
enough in it; each that came with memory reads keeps them. -/
theorem chip_of_parameter (d : Device) (hd : d.vendor = .impinj) (carry : Bool) (seen : LastSeen)
    (batch : List Reading) :
    (∀ (custom : List CustomParameter) (ws : List UInt16),
      serializedTid? custom = some ws ↔ FirstNames custom (wordOctets ws))
    ∧ (∀ custom : List CustomParameter,
      (serializedTid? custom).isSome ↔ ∃ octets, FirstNames custom octets)
    ∧ List.Forall₂ NamesChip batch (d.completeAll carry seen batch).2 := by
  obtain ⟨vendor, model⟩ := d
  obtain rfl : vendor = .impinj := hd
  exact ⟨fun custom ws => serializedTid?_eq_some_iff, fun custom => isSome_serializedTid?_iff,
    namesChip_completeAll model carry seen batch⟩

/-- A parameter with an octet to spare, a read that failed, and a parameter that is cut short. -/
theorem chip_of_parameter_spare :
    let tid (data : List UInt8) : CustomParameter :=
      { vendor := Impinj.vendor, subtype := serializedTid, data := ⟨data⟩ }
    let failed : MemoryRead := { status := 1, opSpec := 3, words := [7] }
    let named : Reading := { custom := [tid [0, 1, 0xE2, 0x80, 0x11], tid [0, 1, 0, 0]] }
    let read : Reading := { custom := [tid [0, 1, 0xE2, 0x80]], memory := [failed] }
    let short : Reading := { custom := [tid [0, 2, 0xE2, 0x80, 0x11]] }
    ∃ d results, ofCapabilities (plain Impinj.vendor) = .ok d ∧ d.vendor = .impinj
      ∧ (d.completeAll true {} [named, read, short]).2 = results
      ∧ results.map (·.tid?) = [some "e280", none, none]
      ∧ List.Forall₂ NamesChip [named, read, short] results
      ∧ FirstNames named.custom [0xE2, 0x80] ∧ ¬∃ octets, FirstNames short.custom octets := by
  intro tid failed named read short
  have hresults : ((ofCapabilities (plain Impinj.vendor)).map fun d =>
      (d.vendor, (d.completeAll true {} [named, read, short]).2.map (·.tid?)))
      = .ok (.impinj, [some "e280", none, none]) := by decide +kernel
  cases hd : ofCapabilities (plain Impinj.vendor) with
  | error cause => simp [hd] at hresults
  | ok d =>
    rw [hd] at hresults
    obtain ⟨hvendor, htids⟩ := Prod.mk.inj (Except.ok.inj hresults)
    obtain ⟨hwords, hread, hnames⟩ :=
      chip_of_parameter d hvendor true {} [named, read, short]
    exact ⟨d, _, rfl, hvendor, rfl, htids, hnames, (hwords named.custom [0xE280]).1 (by decide),
      fun hshort => absurd ((hread short.custom).2 hshort) (by decide)⟩

end Device

end TagGateway
