import TagGateway.Device.Impinj

set_option autoImplicit false

namespace TagGateway

theorem wordOctets_cons (w : UInt16) (ws : List UInt16) :
    wordOctets (w :: ws) = wordOctets [w] ++ wordOctets ws := by
  simp [wordOctets]

namespace Impinj

/-- The first of some parameters that is the vendor's and of a kind. -/
def IsFirst (custom : List CustomParameter) (subtype : UInt32) (p : CustomParameter) : Prop :=
  ∃ earlier later, custom = earlier ++ p :: later
    ∧ (∀ q ∈ earlier, ¬(q.vendor = vendor ∧ q.subtype = subtype))
    ∧ p.vendor = vendor ∧ p.subtype = subtype

variable {custom : List CustomParameter} {subtype : UInt32} {p : CustomParameter} {n : Int}

theorem find?_eq_some_iff : find? custom subtype = some p ↔ IsFirst custom subtype p := by
  have hof (q : CustomParameter) :
      q.isOf vendor subtype = true ↔ q.vendor = vendor ∧ q.subtype = subtype := by
    simp [CustomParameter.isOf]
  simp only [find?, List.find?_eq_some_iff_append, Bool.not_eq_true', ← Bool.not_eq_true, hof]
  constructor
  · rintro ⟨hp, earlier, later, hsplit, hearlier⟩
    exact ⟨earlier, later, hsplit, hearlier, hp⟩
  · rintro ⟨earlier, later, hsplit, hearlier, hp⟩
    exact ⟨hp, earlier, later, hsplit, hearlier⟩

theorem wordOctets_word (high low : UInt8) : wordOctets [word high low] = [high, low] := by
  have hh : high.toNat < 256 := high.toNat_lt
  have hl : low.toNat < 256 := low.toNat_lt
  have hword : (word high low).toNat = 256 * high.toNat + low.toNat := by
    rw [word, UInt16.toNat_ofNat', Nat.mod_eq_of_lt (by omega)]
  have hdiv : (256 * high.toNat + low.toNat) / 256 = high.toNat := by omega
  have hmod : (256 * high.toNat + low.toNat) % 256 = low.toNat := by omega
  simp [wordOctets, hword, hdiv, hmod]

/-- The first parameter that is to have the peak strength starts with this number, as a signed word
of two octets. -/
def FirstPeak (custom : List CustomParameter) (n : Int) : Prop :=
  ∃ p, IsFirst custom peakRssi p ∧ ∃ (strength : Int16) (surplus : List UInt8),
    n = strength.toInt ∧ p.data.toList = wordOctets [strength.toUInt16] ++ surplus

theorem peakRssi?_of_find? (h : find? custom peakRssi = some p) :
    peakRssi? custom = some n ↔ ∃ (strength : Int16) (surplus : List UInt8),
      n = strength.toInt ∧ p.data.toList = wordOctets [strength.toUInt16] ++ surplus := by
  unfold peakRssi?
  rw [h, Option.map_some]
  constructor
  · intro hn
    split at hn
    · next high low rest hdata =>
      have hdata : p.data.toList = high :: low :: rest := Option.some.inj hdata
      refine ⟨(word high low).toInt16, rest, (Option.some.inj hn).symm, ?_⟩
      rw [UInt16.toUInt16_toInt16, wordOctets_word, hdata]
      rfl
    · cases hn
  · rintro ⟨strength, surplus, rfl, hdata⟩
    have hread : p.data.toList = UInt8.ofNat (strength.toUInt16.toNat / 256)
        :: UInt8.ofNat (strength.toUInt16.toNat % 256) :: surplus := hdata
    simp only [hread, word_octets, Int16.toInt16_toUInt16]

theorem peakRssi?_eq_some_iff : peakRssi? custom = some n ↔ FirstPeak custom n := by
  simp only [FirstPeak, ← find?_eq_some_iff]
  cases hfind : find? custom peakRssi with
  | none => simp [peakRssi?, hfind]
  | some p =>
    rw [peakRssi?_of_find? hfind]
    simp

end Impinj

end TagGateway
