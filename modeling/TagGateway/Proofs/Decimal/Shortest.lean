import Mathlib.Algebra.Order.Field.Power
import Mathlib.Data.Rat.Cast.Order
import Mathlib.Tactic.Linarith
import Mathlib.Tactic.Positivity
import TagGateway.Decimal.Shortest
import TagGateway.Proofs.Decimal.Double

set_option autoImplicit false

namespace TagGateway.Decimal

theorem zpow_mul_toNat {b : ℚ} (hb : b ≠ 0) (n : ℤ) : b ^ n * b ^ (-n).toNat = b ^ n.toNat := by
  obtain h | h := Int.le_total 0 n
  · rw [show (-n).toNat = 0 by omega, pow_zero, mul_one, ← zpow_natCast, Int.toNat_of_nonneg h]
  · rw [show n.toNat = 0 by omega, pow_zero, ← zpow_natCast, Int.toNat_of_nonneg (by omega),
      ← zpow_add₀ hb, add_neg_cancel, zpow_zero]

theorem power_fst (two ten : ℤ) :
    ((power two ten).1 : ℚ) = 2 ^ two * 10 ^ ten * (power two ten).2 := by
  have htwo := zpow_mul_toNat (show (2 : ℚ) ≠ 0 by decide) two
  have hten := zpow_mul_toNat (show (10 : ℚ) ≠ 0 by decide) ten
  simp only [power, Nat.pow_eq, Nat.cast_mul, Nat.cast_pow, Nat.cast_ofNat]
  rw [← htwo, ← hten]
  ring

theorem power_snd_pos (two ten : ℤ) : 0 < (power two ten).2 := by
  simp only [power, Nat.pow_eq]
  positivity

section Scale

variable {two ten : ℤ} {x c : ℕ}

theorem cast_mul_fst : ((c * (power two ten).1 : ℕ) : ℚ)
    = c * (2 ^ two * 10 ^ ten) * (power two ten).2 := by
  rw [Nat.cast_mul, power_fst]
  ring

theorem mul_snd_le_iff :
    x * (power two ten).2 ≤ c * (power two ten).1 ↔ (x : ℚ) ≤ c * (2 ^ two * 10 ^ ten) := by
  have hpos : (0 : ℚ) < (power two ten).2 := by exact_mod_cast power_snd_pos two ten
  rw [← Nat.cast_le (α := ℚ), cast_mul_fst, Nat.cast_mul, mul_le_mul_iff_left₀ hpos]

theorem mul_fst_le_iff :
    c * (power two ten).1 ≤ x * (power two ten).2 ↔ (c : ℚ) * (2 ^ two * 10 ^ ten) ≤ x := by
  have hpos : (0 : ℚ) < (power two ten).2 := by exact_mod_cast power_snd_pos two ten
  rw [← Nat.cast_le (α := ℚ), cast_mul_fst, Nat.cast_mul, mul_le_mul_iff_left₀ hpos]

end Scale

theorem lt_pow_length (n : ℕ) : n < 10 ^ (Nat.toDigits 10 n).length :=
  (Nat.length_toDigits_le_iff (by decide) Nat.length_toDigits_pos).1 (Nat.le_refl _)

theorem pow_length_le {n : ℕ} (h : 0 < n) : 10 ^ ((Nat.toDigits 10 n).length - 1) ≤ n := by
  obtain hone | hmore : (Nat.toDigits 10 n).length ≤ 1 ∨ 1 < (Nat.toDigits 10 n).length := by omega
  · rw [show (Nat.toDigits 10 n).length - 1 = 0 by omega]
    exact h
  · by_contra hlt
    have := (Nat.length_toDigits_le_iff (b := 10) (by decide) (by omega)).2 (Nat.not_le.1 hlt)
    omega

theorem lt_zpow_leading {n d : ℕ} (hn : 0 < n) (hd : 0 < d) :
    (n : ℚ) < 10 ^ (leading n d + 1) * d := by
  unfold leading
  split
  · have hlt := (Nat.div_lt_iff_lt_mul hd).1 (lt_pow_length (n / d))
    rw [Int.sub_add_cancel, zpow_natCast]
    exact_mod_cast hlt
  · next hnd =>
    have hone : 0 < (d - 1) / n := Nat.div_pos (by omega) hn
    have hle := (Nat.le_div_iff_mul_le hn).1 (pow_length_le hone)
    have hpos := Nat.length_toDigits_pos (b := 10) (n := (d - 1) / n)
    generalize (Nat.toDigits 10 ((d - 1) / n)).length = l at hle hpos ⊢
    have hlt : 10 ^ (l - 1) * (n : ℚ) < d := by exact_mod_cast (show 10 ^ (l - 1) * n < d by omega)
    have hexp : (-(l : ℤ) + 1) = -((l - 1 : ℕ) : ℤ) := by omega
    rw [hexp, zpow_neg, zpow_natCast, inv_mul_eq_div, lt_div_iff₀ (by positivity)]
    linarith

namespace Binary

def value (b : Binary) : ℚ := b.significand * 2 ^ b.exponent

variable {b : Binary} {k : ℤ} {c : ℕ}

theorem bounds_of_covers (h : b.covers k c) :
    (b.low : ℚ) ≤ c * (2 ^ (2 - b.exponent) * 10 ^ k)
      ∧ (c : ℚ) * (2 ^ (2 - b.exponent) * 10 ^ k) ≤ b.high
      ∧ (b.closed = false → (c : ℚ) * (2 ^ (2 - b.exponent) * 10 ^ k) < b.high) := by
  unfold covers at h
  cases hclosed : b.closed with
  | true =>
    simp only [hclosed, if_true, Bool.and_eq_true, decide_eq_true_eq] at h
    exact ⟨mul_snd_le_iff.1 h.1, mul_fst_le_iff.1 h.2, nofun⟩
  | false =>
    simp only [hclosed, Bool.false_eq_true, if_false, Bool.and_eq_true, decide_eq_true_eq] at h
    have hlt := not_le.1 (mt mul_snd_le_iff.2 (Nat.not_le.2 h.2))
    exact ⟨mul_snd_le_iff.1 h.1.le, hlt.le, fun _ => hlt⟩

theorem onGrid?_eq_some (h : b.onGrid? k = some c) :
    b.covers k c
      ∧ c ≤ b.significand * (power b.exponent (-k)).1 / (power b.exponent (-k)).2 + 1 := by
  unfold onGrid? at h
  obtain ⟨below, hbelow⟩ :
      ∃ n, b.significand * (power b.exponent (-k)).1 / (power b.exponent (-k)).2 = n := ⟨_, rfl⟩
  simp only [hbelow] at h ⊢
  split at h
  · next hlow hhigh =>
    have hpick : c = below ∨ c = below + 1 := by grind
    obtain rfl | rfl := hpick
    · exact ⟨hlow, Nat.le_succ _⟩
    · exact ⟨hhigh, Nat.le_refl _⟩
  · next hlow _ =>
    obtain rfl := Option.some.inj h
    exact ⟨hlow, Nat.le_succ _⟩
  · next _ hhigh =>
    obtain rfl := Option.some.inj h
    exact ⟨hhigh, Nat.le_refl _⟩
  · exact nomatch h

theorem le_pow_of_onGrid? {i : ℕ} (hvalue : b.value < 10 ^ (k + i + 1)) (h : b.onGrid? k = some c) :
    c ≤ 10 ^ (i + 1) := by
  refine Nat.le_trans (onGrid?_eq_some h).2 (Nat.succ_le_of_lt ?_)
  refine (Nat.div_lt_iff_lt_mul (power_snd_pos ..)).2 (not_le.1 (mt mul_snd_le_iff.1 ?_))
  rw [not_le, ← mul_assoc]
  calc
    (b.significand : ℚ) * 2 ^ b.exponent * 10 ^ (-k) < 10 ^ (k + i + 1) * 10 ^ (-k) :=
      mul_lt_mul_of_pos_right hvalue (by positivity)
    _ = ((10 ^ (i + 1) : ℕ) : ℚ) := by
      rw [← zpow_add₀ (by decide), show k + i + 1 + -k = ((i + 1 : ℕ) : ℤ) by omega, zpow_natCast]
      norm_num

theorem value_lt (hpos : 0 < b.significand) :
    b.value
      < 10 ^ (leading (b.significand * (power b.exponent 0).1) (power b.exponent 0).2 + 1) := by
  have hsnd := power_snd_pos b.exponent 0
  have hfst : 0 < (power b.exponent 0).1 := by
    simp only [power, Nat.pow_eq]
    positivity
  have hlt := lt_zpow_leading (Nat.mul_pos hpos hfst) hsnd
  rw [cast_mul_fst, zpow_zero, mul_one] at hlt
  exact lt_of_mul_lt_mul_right hlt (Nat.cast_nonneg _)

end Binary

namespace Scaled

def value (s : Scaled) : ℚ := s.digits * 10 ^ s.exponent

theorem strip_spec (fuel : ℕ) (s : Scaled) (hpos : 0 < s.digits) :
    0 < (s.strip fuel).digits ∧ (s.strip fuel).digits ≤ s.digits
      ∧ (s.strip fuel).value = s.value := by
  induction fuel generalizing s with
  | zero => exact ⟨hpos, Nat.le_refl _, rfl⟩
  | succ fuel ih =>
    unfold strip
    split
    · next h =>
      obtain ⟨hpos', hle, hvalue⟩ := ih ⟨s.digits / 10, s.exponent + 1⟩ (by simp; omega)
      refine ⟨hpos', Nat.le_trans hle (Nat.div_le_self ..), hvalue.trans ?_⟩
      have hten : ((s.digits / 10 : ℕ) : ℚ) * 10 = s.digits := by
        exact_mod_cast Nat.div_mul_cancel (Nat.dvd_of_mod_eq_zero h.2)
      simp only [value]
      rw [zpow_add_one₀ (by decide), ← hten]
      ring
    · exact ⟨hpos, Nat.le_refl _, rfl⟩

end Scaled

def Binary.greatest : Binary :=
  { significand := 2 ^ 53 - 1, exponent := 971, low := 4 * (2 ^ 53 - 1) - 2
    high := 4 * (2 ^ 53 - 1) + 2, closed := false }

theorem shortest_greatest : Binary.greatest.shortest = ⟨17976931348623157, 292⟩ := by
  decide +kernel

/-- What holds of the binary numbers of positive finite doubles. -/
structure Binary.IsDouble (b : Binary) : Prop where
  pos : 0 < b.significand
  lt : b.significand < 2 ^ 53
  exponent_le : b.exponent ≤ 971
  low_pos : 0 < b.low
  high : b.high = 4 * b.significand + 2
  closed : b.closed = decide (b.significand % 2 = 0)
  top : b.significand = 2 ^ 53 - 1 → b.exponent = 971 → b = Binary.greatest

theorem Binary.isDouble_ofBits {bits : UInt64} (hfinite : bits.toNat / 2 ^ 52 % 2 ^ 11 ≠ 2047)
    (hpos : bits.toNat % 2 ^ 63 ≠ 0) : (Binary.ofBits bits).IsDouble := by
  have hbits := bits.toNat_lt
  obtain ⟨fraction, hf⟩ : ∃ n, bits.toNat % 0x10000000000000 = n := ⟨_, rfl⟩
  obtain ⟨biased, hb⟩ : ∃ n, bits.toNat / 0x10000000000000 % 0x800 = n := ⟨_, rfl⟩
  have hfraction : fraction < 2 ^ 52 := hf ▸ Nat.mod_lt _ (by decide)
  have hbiased : biased < 2047 := by omega
  have hsome : fraction ≠ 0 ∨ biased ≠ 0 := by omega
  unfold Binary.ofBits
  simp only [hf, hb]
  constructor
  · dsimp only
    split <;> omega
  · dsimp only
    split <;> omega
  · dsimp only
    split <;> omega
  · dsimp only
    split <;> split <;> omega
  · rfl
  · rfl
  · dsimp only
    intro hm hq
    have h0 : biased ≠ 0 := fun h0 => by simp [h0] at hq
    have hfull : fraction = 2 ^ 52 - 1 := by simp only [h0, if_false] at hm; omega
    have htop : biased = 2046 := by simp only [h0, if_false] at hq; omega
    subst hfull htop
    rfl

open Float.Model in
theorem Binary.isDouble_abs {x : Float} (hfinite : x.isFinite) (hne : (x == 0.0) = false) :
    (Binary.ofBits x.abs.toBits).IsDouble := by
  have hpack := UnpackedFloat.pack_unpack_of_valid x.toModel.valid
  have hfinite : x.toModel.unpack.isFinite := hfinite
  have hne : x.toModel.unpack.beq (0.0 : Float).toModel.unpack = false := hne
  have habs : x.abs.toBits.toBitVec = UnpackedFloat.pack .binary64 x.toModel.unpack.abs := rfl
  cases hx : x.toModel.unpack with
  | infinity s => simp [hx, UnpackedFloat.isFinite] at hfinite
  | notANumber => simp [hx, UnpackedFloat.isFinite] at hfinite
  | zero s =>
    rw [hx] at hne
    cases s <;> exact nomatch hne
  | finite s m e h =>
    obtain ⟨hinf, hzero⟩ := Double.bits_of_unpack hx
    obtain ⟨hexponent, hmantissa⟩ := Double.unpack_pack_sign .positive s (e := e) h
    change UnpackedFloat.pack _ x.toModel.unpack = _ at hpack
    rw [hx, UnpackedFloat.abs] at habs
    rw [hx] at hpack
    rw [hpack, ← habs] at hexponent hmantissa
    have hexponent := congrArg BitVec.toNat hexponent
    have hmantissa := congrArg BitVec.toNat hmantissa
    simp only [Double.toNat_unpackExponent, Double.toNat_unpackMantissa] at hexponent hmantissa
    simp only [UInt64.toNat_toBitVec] at hexponent hmantissa hinf hzero
    exact Binary.isDouble_ofBits (by omega) (by omega)

namespace Binary.IsDouble

variable {b : Binary} {k : ℤ} {c : ℕ}

theorem le_of_covers (hb : b.IsDouble) (h : b.covers k c) {n : ℕ} (hn : b.exponent ≤ n + 2) :
    (c : ℚ) * 10 ^ k ≤ ((4 * b.significand + 2) * 2 ^ n : ℕ)
      ∧ (b.significand % 2 = 1 → (c : ℚ) * 10 ^ k < ((4 * b.significand + 2) * 2 ^ n : ℕ)) := by
  obtain ⟨-, hle, hlt⟩ := bounds_of_covers h
  have hscale : (c : ℚ) * 10 ^ k
      = c * (2 ^ (2 - b.exponent) * 10 ^ k) * 2 ^ (b.exponent - 2) := by
    have hone : (2 : ℚ) ^ (2 - b.exponent) * 2 ^ (b.exponent - 2) = 1 := by
      rw [← zpow_add₀ (by decide), show 2 - b.exponent + (b.exponent - 2) = 0 by omega, zpow_zero]
    calc
      (c : ℚ) * 10 ^ k = c * 10 ^ k * (2 ^ (2 - b.exponent) * 2 ^ (b.exponent - 2)) := by
        rw [hone, mul_one]
      _ = _ := by ring
  have hpos : (0 : ℚ) < 2 ^ (b.exponent - 2) := by positivity
  have hgrid : (b.high : ℚ) * 2 ^ (b.exponent - 2) ≤ ((4 * b.significand + 2) * 2 ^ n : ℕ) := by
    rw [Nat.cast_mul, hb.high, Nat.cast_pow, ← zpow_natCast]
    refine mul_le_mul_of_nonneg_left (zpow_le_zpow_right₀ (by norm_num) ?_) (Nat.cast_nonneg _)
    omega
  rw [hscale]
  refine ⟨(mul_le_mul_of_nonneg_right hle hpos.le).trans hgrid, fun hodd => ?_⟩
  have hopen : b.closed = false := by simp [hb.closed, hodd]
  exact (mul_lt_mul_of_pos_right (hlt hopen) hpos).trans_le hgrid

theorem brink_eq : Double.brink = (4 * (2 ^ 53 - 1) + 2) * 2 ^ 969 := by
  decide +kernel

theorem lt_brink (hb : b.IsDouble) (h : b.covers k c) : (c : ℚ) * 10 ^ k < Double.brink := by
  have hm := hb.lt
  obtain ⟨hle, hlt⟩ := hb.le_of_covers h (n := 969) hb.exponent_le
  -- The greatest significand is odd, and for an odd one the bound itself is out.
  obtain hodd | hfew : b.significand % 2 = 1 ∨ b.significand < 2 ^ 53 - 1 := by omega
  · have hmost : 4 * b.significand + 2 ≤ 4 * (2 ^ 53 - 1) + 2 := by omega
    refine (hlt hodd).trans_le (Nat.cast_le.2 ?_)
    rw [brink_eq]
    exact Nat.mul_le_mul_right (2 ^ 969) hmost
  · refine hle.trans_lt (Nat.cast_lt.2 ?_)
    have hless : 4 * b.significand + 2 < 4 * (2 ^ 53 - 1) + 2 := by omega
    rw [brink_eq]
    have hpos : 0 < 2 ^ 969 := by positivity
    exact Nat.mul_lt_mul_of_pos_right hless hpos

def above : Nat := 17976931348623158 * 10 ^ 292

theorem le_above : (4 * (2 ^ 53 - 1) + 2) * 2 ^ 968 < above
    ∧ (4 * (2 ^ 53 - 2) + 2) * 2 ^ 969 < above := by
  decide +kernel

theorem eq_greatest (hb : b.IsDouble) (h : b.covers k c) (hc : (c : ℚ) * 10 ^ k = above) :
    b = greatest := by
  have hm := hb.lt
  have hle {n : ℕ} (hn : b.exponent ≤ n + 2) : above ≤ (4 * b.significand + 2) * 2 ^ n :=
    Nat.cast_le.1 (hc ▸ (hb.le_of_covers h hn).1)
  -- With less of an exponent, or of a significand, a double and its digits stay below that.
  have hexponent : b.exponent = 971 := by
    by_contra hne
    have := hb.exponent_le
    have hlow := hle (n := 968) (by omega)
    have hmost : 4 * b.significand + 2 ≤ 4 * (2 ^ 53 - 1) + 2 := by omega
    have := Nat.mul_le_mul_right (2 ^ 968) hmost
    exact absurd (Nat.lt_of_lt_of_le le_above.1 (hlow.trans this)) (Nat.lt_irrefl _)
  refine hb.top ?_ hexponent
  by_contra hne
  have hless : 4 * b.significand + 2 ≤ 4 * (2 ^ 53 - 2) + 2 := by omega
  have := Nat.mul_le_mul_right (2 ^ 969) hless
  exact absurd (Nat.lt_of_lt_of_le le_above.2 ((hle hb.exponent_le).trans this)) (Nat.lt_irrefl _)

theorem pos_of_covers (hb : b.IsDouble) (h : b.covers k c) : 0 < c := by
  refine Nat.pos_of_ne_zero fun h0 => ?_
  have hlow := (bounds_of_covers h).1
  rw [h0, Nat.cast_zero, zero_mul] at hlow
  exact absurd hb.low_pos (by exact_mod_cast not_lt.2 hlow)

end Binary.IsDouble

/-- The digits come from one of the grids, unless none has any that round to the number. -/
theorem shortest_cases {b : Binary} (hpos : 0 < b.significand) :
    (∃ c k, b.covers k c ∧ c ≤ 10 ^ 17 ∧ b.shortest = (Scaled.mk c k).strip 17)
      ∨ b.shortest = ⟨b.significand, 0⟩ := by
  unfold Binary.shortest
  simp only
  split
  · next s hfound =>
    obtain ⟨i, hi, hgrid⟩ := List.exists_of_findSome?_eq_some hfound
    obtain ⟨c, hc, rfl⟩ := Option.map_eq_some_iff.1 hgrid
    have hi : i + 1 ≤ 17 := List.mem_range.1 hi
    refine .inl ⟨c, _, (Binary.onGrid?_eq_some hc).1, ?_, rfl⟩
    refine (Binary.le_pow_of_onGrid? ?_ hc).trans (Nat.pow_le_pow_right (by decide) hi)
    rw [Int.sub_add_cancel]
    exact Binary.value_lt hpos
  · exact .inr rfl

theorem value_above : Scaled.value ⟨17976931348623158, 292⟩ = Binary.IsDouble.above := by
  rw [Scaled.value, Binary.IsDouble.above, Nat.cast_mul, Nat.cast_pow]
  rfl

/-- The fewest digits of a double are seventeen at most, and those of a number that rounds to it.
The number just above the greatest double does so too, but it is not the nearest. -/
theorem shortest_spec {b : Binary} (hb : b.IsDouble) :
    0 < b.shortest.digits ∧ b.shortest.digits ≤ 10 ^ 17 ∧ b.shortest.value < Double.brink
      ∧ b.shortest ≠ ⟨17976931348623158, 292⟩ := by
  obtain ⟨c, k, hcovers, hc, hshortest⟩ | hshortest := shortest_cases hb.pos
  · obtain ⟨hpos, hle, hvalue⟩ := Scaled.strip_spec 17 ⟨c, k⟩ (hb.pos_of_covers hcovers)
    rw [← hshortest] at hpos hle hvalue
    refine ⟨hpos, hle.trans hc, hvalue ▸ hb.lt_brink hcovers, fun heq => ?_⟩
    have habove : (c : ℚ) * 10 ^ k = Binary.IsDouble.above := by
      rw [← value_above, ← heq, hvalue]
      rfl
    obtain rfl := hb.eq_greatest hcovers habove
    exact absurd (shortest_greatest.symm.trans heq) (by decide)
  · have hm := hb.lt
    have hsmall : 2 ^ 53 < Double.brink := by decide +kernel
    rw [hshortest]
    refine ⟨hb.pos, by dsimp only; omega, ?_, by simp⟩
    simp only [Scaled.value, zpow_zero, mul_one]
    exact Nat.cast_lt.2 (hm.trans hsmall)

end TagGateway.Decimal
