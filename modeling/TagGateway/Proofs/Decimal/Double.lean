import Mathlib

/-!
Doubles from above: how far a rounded number may lie above the exact one. Main statement: rounding
passes no number on the grid of its result, so that a product whose factors are bounded is finite.
-/

set_option autoImplicit false

namespace TagGateway.Double

open Float.Model Float.Model.UnpackedFloat

/-- The greatest double. -/
def greatest : Nat := (2 ^ 53 - 1) * 2 ^ 971

def brink : Nat := (2 ^ 54 - 1) * 2 ^ 970

theorem le_of_mul_lt {r k n : Nat} (hr : 2 ^ 52 ≤ r) (h : r * 2 ^ k < 2 ^ (53 + n)) : k ≤ n := by
  have hlt : 2 ^ (52 + k) < 2 ^ (53 + n) := by
    rw [Nat.pow_add]
    exact Nat.lt_of_le_of_lt (Nat.mul_le_mul_right _ hr) h
  have := (Nat.pow_lt_pow_iff_right (by decide)).1 hlt
  omega

theorem shiftRight_succ (em : ExtendedMantissa) (k : Nat) :
    em >>> (k + 1) = (em >>> k).shiftRightOne := rfl

theorem shiftRight_mantissa (em : ExtendedMantissa) (k : Nat) :
    (em >>> k).mantissa = em.mantissa / 2 ^ k := by
  induction k with
  | zero => exact (Nat.div_one _).symm
  | succ k ih =>
    rw [shiftRight_succ, ExtendedMantissa.shiftRightOne, ih, Nat.div_div_eq_div_mul, Nat.pow_succ]

theorem shiftRight_exact (q k : Nat) :
    (⟨q * 2 ^ k, false, false⟩ : ExtendedMantissa) >>> k = ⟨q, false, false⟩ := by
  induction k generalizing q with
  | zero => simp [HShiftRight.hShiftRight, Nat.repeat]
  | succ k ih =>
    have h : q * 2 ^ (k + 1) = 2 * q * 2 ^ k := by ring
    rw [shiftRight_succ, h, ih]
    simp [ExtendedMantissa.shiftRightOne]

theorem roundedMantissa_mem (em : ExtendedMantissa) :
    em.roundedMantissa = em.mantissa ∨ em.roundedMantissa = em.mantissa + 1 := by
  obtain ⟨m, r, s⟩ := em
  cases r <;> cases s <;>
    simp [ExtendedMantissa.roundedMantissa, ExtendedMantissa.accuracy,
      Accuracy.roundToNearestEven]
  omega

theorem roundedMantissa_exact (q : Nat) :
    (⟨q, false, false⟩ : ExtendedMantissa).roundedMantissa = q := rfl

theorem roundedMantissa_shiftRight_ge (m k : Nat) :
    m / 2 ^ k ≤ ((⟨m, false, false⟩ : ExtendedMantissa) >>> k).roundedMantissa := by
  have h := roundedMantissa_mem ((⟨m, false, false⟩ : ExtendedMantissa) >>> k)
  simp only [shiftRight_mantissa] at h
  omega

theorem roundedMantissa_shiftRight_le {m g k : Nat} (hg : m ≤ g) (hdvd : 2 ^ k ∣ g) :
    ((⟨m, false, false⟩ : ExtendedMantissa) >>> k).roundedMantissa * 2 ^ k ≤ g := by
  have hpos : 0 < 2 ^ k := Nat.two_pow_pos k
  obtain ⟨a, rfl⟩ := hdvd
  rw [Nat.mul_comm (2 ^ k) a]
  refine Nat.mul_le_mul_right _ ?_
  by_cases hm : 2 ^ k ∣ m
  · obtain ⟨q, rfl⟩ := hm
    rw [Nat.mul_comm, shiftRight_exact, roundedMantissa_exact]
    exact Nat.le_of_mul_le_mul_left hg hpos
  · have hlt : m / 2 ^ k < a := by
      refine Nat.div_lt_of_lt_mul (Nat.lt_of_le_of_ne hg fun h => hm (h ▸ Nat.dvd_mul_right _ _))
    have h := roundedMantissa_mem ((⟨m, false, false⟩ : ExtendedMantissa) >>> k)
    simp only [shiftRight_mantissa] at h
    omega

theorem shiftToTargetExponent_eq {m : Nat} {e : Int} (he : -1074 ≤ e) :
    shiftToTargetExponent .binary64 m e .exact
      = ((⟨m, false, false⟩ : ExtendedMantissa) >>> (m.log2 - 52),
          e + ((m.log2 - 52 : Nat) : Int)) := by
  have ht : (Format.binary64.targetExponent (totalExponent m e) - e).toNat = m.log2 - 52 := by
    simp only [Format.targetExponent, totalExponent, Format.mantissaBits, Format.minExponent]
    omega
  simp only [shiftToTargetExponent, shiftToExponent, ht, ExtendedMantissa.ofMantissaAndAccuracy]

/-- What rounding makes of a number of 53 bits at least: 53 bits, and no more than any number on
their grid that is no less. -/
theorem roundWithAccuracy_le {m : Nat} {e : Int} (sign : Sign) (hm : 2 ^ 52 ≤ m)
    (he : -1074 ≤ e) :
    ∃ r k : Nat, ∃ hr : 0 < r,
      roundWithAccuracy .binary64 sign m e .exact = .finite sign r (e + k) hr
      ∧ 2 ^ 52 ≤ r ∧ r < 2 ^ 53
      ∧ ∀ g, m ≤ g → 2 ^ (m.log2 - 52) ∣ g → r * 2 ^ k ≤ g := by
  have hm0 : m ≠ 0 := by omega
  have hlog : 52 ≤ m.log2 := (Nat.le_log2 hm0).2 hm
  obtain ⟨s, hs⟩ : ∃ s, m.log2 = 52 + s := ⟨m.log2 - 52, by omega⟩
  have hcut : m.log2 - 52 = s := by omega
  have hlow : 2 ^ 52 ≤ m / 2 ^ s := by
    rw [Nat.le_div_iff_mul_le (Nat.two_pow_pos s), ← Nat.pow_add, ← hs]
    exact Nat.log2_self_le hm0
  have hhigh : m ≤ 2 ^ 53 * 2 ^ s := by
    have := Nat.lt_log2_self (n := m)
    rw [hs, show 52 + s + 1 = 53 + s by omega, Nat.pow_add] at this
    omega
  have hge := roundedMantissa_shiftRight_ge m s
  have hle {g : Nat} := @roundedMantissa_shiftRight_le m g s
  have htop := Nat.le_of_mul_le_mul_right (hle hhigh (Nat.dvd_mul_left _ _)) (Nat.two_pow_pos s)
  obtain ⟨r, hr⟩ : ∃ r, ((⟨m, false, false⟩ : ExtendedMantissa) >>> s).roundedMantissa = r :=
    ⟨_, rfl⟩
  simp only [hr] at hge hle htop
  have hsecond := shiftToTargetExponent_eq (m := r) (e := e + s) (by omega)
  simp only [roundWithAccuracy, shiftToTargetExponent_eq he, hcut, hr, hsecond]
  -- A mantissa that rounds up to one bit more than there is room for is halved.
  obtain hlt | rfl : r < 2 ^ 53 ∨ r = 2 ^ 53 := by omega
  · have hbits : r.log2 - 52 = 0 := by
      have := (Nat.log2_lt (show r ≠ 0 by omega)).2 hlt
      omega
    have hpos : 0 < r := by omega
    refine ⟨r, s, hpos, ?_, by omega, hlt, fun g hg hdvd => hle hg hdvd⟩
    simp [hbits, HShiftRight.hShiftRight, Nat.repeat, show r ≠ 0 by omega]
  · have hbits : (2 ^ 53 : Nat).log2 - 52 = 1 := by rw [Nat.log2_two_pow]
    have hhalf : (⟨2 ^ 53, false, false⟩ : ExtendedMantissa) >>> 1 = ⟨2 ^ 52, false, false⟩ :=
      shiftRight_exact (2 ^ 52) 1
    refine ⟨2 ^ 52, s + 1, by decide, ?_, Nat.le_refl _, by decide, fun g hg hdvd => ?_⟩
    · simp only [hbits, hhalf]
      simp [add_assoc]
    · calc
        2 ^ 52 * 2 ^ (s + 1) = 2 ^ 53 * 2 ^ s := by ring
        _ ≤ g := hle hg hdvd

theorem fits_of_grid {m r k t n : Nat} (hm : 2 ^ 52 ≤ m) (hr : 2 ^ 52 ≤ r)
    (hgrid : ∀ g, m ≤ g → 2 ^ (m.log2 - 52) ∣ g → r * 2 ^ k ≤ g)
    (hle : m * 2 ^ t ≤ (2 ^ 53 - 1) * 2 ^ n) : t + k ≤ n := by
  have hlt : m * 2 ^ t < 2 ^ (53 + n) := by
    rw [Nat.pow_add]
    exact Nat.lt_of_le_of_lt hle (Nat.mul_lt_mul_of_pos_right (by decide) (Nat.two_pow_pos n))
  have ht : t ≤ n := le_of_mul_lt hm hlt
  have hsplit : (2 ^ 53 - 1) * 2 ^ n = (2 ^ 53 - 1) * 2 ^ (n - t) * 2 ^ t := by
    rw [Nat.mul_assoc, ← Nat.pow_add, Nat.sub_add_cancel ht]
  have hlog : m.log2 + t < 53 + n := by
    refine (Nat.pow_lt_pow_iff_right (a := 2) (by decide)).1 (Nat.lt_of_le_of_lt ?_ hlt)
    rw [Nat.pow_add]
    exact Nat.mul_le_mul_right _ (Nat.log2_self_le (by omega))
  have hbound : r * 2 ^ k ≤ (2 ^ 53 - 1) * 2 ^ (n - t) :=
    hgrid _ (Nat.le_of_mul_le_mul_right (hsplit ▸ hle) (Nat.two_pow_pos t))
      (Dvd.dvd.mul_left (Nat.pow_dvd_pow 2 (by omega)) _)
  have hk : k ≤ n - t := by
    refine le_of_mul_lt hr (Nat.lt_of_le_of_lt hbound ?_)
    rw [Nat.pow_add]
    exact Nat.mul_lt_mul_of_pos_right (by decide) (Nat.two_pow_pos _)
  omega

/-- A double of 53 bits is what it was after being stored. -/
theorem unpack_pack {sign : Sign} {m : Nat} {e : Int} {h : 0 < m} (hlow : 2 ^ 52 ≤ m)
    (hhigh : m < 2 ^ 53) (he : -1074 ≤ e) (he' : e ≤ 971) :
    (Float.Model.pack (.finite sign m e h)).unpack = .finite sign m e h := by
  have hlog : m.log2 = 52 := (Nat.log2_eq_iff (by omega)).2 ⟨hlow, hhigh⟩
  obtain ⟨b, hb⟩ : ∃ b : Nat, (b : Int) = e + 1075 := ⟨(e + 1075).toNat, by omega⟩
  have hbiased : (e + (Format.binary64.exponentBias : Int)
      + (Format.binary64.mantissaBitsWithoutImplicit : Int)).toNat = b := by
    simp only [Format.exponentBias]
    omega
  have hexp : (BitVec.ofNat 11 b).toNat = b := by
    rw [BitVec.toNat_ofNat]
    omega
  have hzero : BitVec.ofNat 11 b ≠ 0#11 := fun h0 => by
    have := congrArg BitVec.toNat h0
    rw [hexp] at this
    simp at this
    omega
  have hones : BitVec.ofNat 11 b ≠ -1#11 := fun h0 => by
    have := congrArg BitVec.toNat h0
    rw [hexp] at this
    simp at this
    omega
  have hmant : (1#1 ++ BitVec.ofNat 52 m).toNat = m := by
    rw [BitVec.toNat_append, ← Nat.shiftLeft_add_eq_or_of_lt (BitVec.isLt _), BitVec.toNat_ofNat]
    simp [Nat.shiftLeft_eq]
    omega
  have hfits : ¬2 ^ 11 ≤ b + 1 := by omega
  unfold Float.Model.unpack Float.Model.pack
  simp only [UnpackedFloat.pack, hbiased, hfits, hlog, Format.mantissaBits, if_false, if_true,
    UnpackedFloat.unpack, unpackMantissa_packComponents, unpackExponent_packComponents,
    unpackSign_packComponents, Sign.ofBitVec_toBitVec, hzero, hones, hexp, hmant]
  congr 1
  simp only [Format.exponentBias]
  omega

theorem unpack_pack_sign (s s' : Sign) {m : ℕ} {e : ℤ} (h : 0 < m) :
    unpackExponent (UnpackedFloat.pack .binary64 (.finite s m e h))
        = unpackExponent (UnpackedFloat.pack .binary64 (.finite s' m e h))
      ∧ unpackMantissa (UnpackedFloat.pack .binary64 (.finite s m e h))
        = unpackMantissa (UnpackedFloat.pack .binary64 (.finite s' m e h)) := by
  unfold UnpackedFloat.pack
  dsimp only
  split
  · simp [packedInfinity]
  · split <;> simp

theorem toNat_unpackExponent (b : BitVec 64) :
    (@unpackExponent .binary64 b).toNat = b.toNat / 2 ^ 52 % 2 ^ 11 := by
  simp [unpackExponent, BitVec.extractLsb, Nat.shiftRight_eq_div_pow]

theorem toNat_unpackMantissa (b : BitVec 64) :
    (@unpackMantissa .binary64 b).toNat = b.toNat % 2 ^ 52 := by
  simp [unpackMantissa, BitVec.extractLsb]

theorem bits_of_unpack {b : BitVec 64} {s : Sign} {m : ℕ} {e : ℤ} {h : 0 < m}
    (hb : UnpackedFloat.unpack .binary64 b = .finite s m e h) :
    b.toNat / 2 ^ 52 % 2 ^ 11 ≠ 2047 ∧ b.toNat % 2 ^ 63 ≠ 0 := by
  have hexponent := toNat_unpackExponent b
  have hmantissa := toNat_unpackMantissa b
  unfold UnpackedFloat.unpack at hb
  dsimp only at hb
  split at hb
  · split at hb <;> exact nomatch hb
  · next hones =>
    have hinf : b.toNat / 2 ^ 52 % 2 ^ 11 ≠ 2047 := fun h =>
      hones (BitVec.eq_of_toNat_eq (hexponent.trans h))
    refine ⟨hinf, fun hzero => ?_⟩
    have h0 : @unpackExponent .binary64 b = 0#11 :=
      BitVec.eq_of_toNat_eq (hexponent.trans (by simp; omega))
    have h1 : @unpackMantissa .binary64 b = 0#52 :=
      BitVec.eq_of_toNat_eq (hmantissa.trans (by simp; omega))
    rw [if_pos h0, dif_pos h1] at hb
    exact nomatch hb

/-- Whether a double is a number of 53 bits, with at most 52 of them after the point, and at most as
great as another one. -/
def atMost (x : Float) (bound : Nat) : Bool :=
  match x.toModel.unpack with
  | .finite _ m e _ => -52 ≤ e && 2 ^ 52 ≤ m && m * 2 ^ (e + 52).toNat ≤ bound * 2 ^ 52
  | _ => false

theorem atMost_iff {x : Float} {bound : Nat} :
    atMost x bound ↔ ∃ (sign : Sign) (m a : Nat) (h : 0 < m),
      x.toModel.unpack = .finite sign m ((a : Int) - 52) h ∧ 2 ^ 52 ≤ m
        ∧ m * 2 ^ a ≤ bound * 2 ^ 52 := by
  unfold atMost
  constructor
  · intro hx
    split at hx
    · next sign m e h hunpack =>
      simp only [Bool.and_eq_true, decide_eq_true_eq] at hx
      obtain ⟨⟨he, hm⟩, hle⟩ := hx
      exact ⟨sign, m, (e + 52).toNat, h, by rw [hunpack]; congr 1; omega, hm, hle⟩
    · simp at hx
  · rintro ⟨sign, m, a, h, hunpack, hm, hle⟩
    rw [hunpack]
    simp only [Bool.and_eq_true, decide_eq_true_eq, Int.sub_add_cancel, Int.toNat_natCast]
    exact ⟨⟨by omega, hm⟩, hle⟩

theorem atMost_toFloat {c bound : Nat} (hpos : 0 < c) (hword : c < 2 ^ 64) (hle : c ≤ bound)
    (hdvd : 2 ^ (c.log2 - 52) ∣ bound) : atMost (UInt64.ofNat c).toFloat bound := by
  obtain ⟨j, hj⟩ : ∃ j, 52 - c.log2 = j := ⟨_, rfl⟩
  have hlog : (c * 2 ^ j).log2 = c.log2 + j := by
    rw [Nat.log2_eq_iff (by positivity), Nat.pow_add, show c.log2 + j + 1 = c.log2 + 1 + j by omega,
      Nat.pow_add _ (c.log2 + 1)]
    exact ⟨Nat.mul_le_mul_right _ (Nat.log2_self_le hpos.ne'),
      Nat.mul_lt_mul_of_pos_right Nat.lt_log2_self (Nat.two_pow_pos j)⟩
  have hm : 2 ^ 52 ≤ c * 2 ^ j := by
    rw [← Nat.le_log2 (by positivity), hlog]
    omega
  have hcut : (c * 2 ^ j).log2 - 52 = c.log2 - 52 := by omega
  have htarget : (-Format.binary64.targetExponent (totalExponent c 0)).toNat = j := by
    simp only [Format.targetExponent, totalExponent, Format.mantissaBits, Format.minExponent]
    omega
  obtain ⟨r, k, hr, hround, hlow, hhigh, hgrid⟩ :=
    roundWithAccuracy_le (e := -(j : Int)) .positive hm (by omega)
  have hbound := hgrid (bound * 2 ^ j) (Nat.mul_le_mul_right _ hle)
    (hcut ▸ Dvd.dvd.mul_right hdvd _)
  have hword' : (UInt64.ofNat c).toNat = c := by
    rw [UInt64.toNat_ofNat']
    omega
  have hmodel : (UInt64.ofNat c).toFloat.toModel
      = Float.Model.pack
          (roundWithAccuracy .binary64 .positive (c * 2 ^ j) (-(j : Int)) .exact) := by
    have hgt : compare (c : Int) 0 = .gt := Int.compare_eq_gt.2 (by omega)
    simp only [UInt64.toFloat, Float.Model.ofUInt64, UnpackedFloat.ofUInt64, UnpackedFloat.ofNat,
      UnpackedFloat.ofInt, UnpackedFloat.normalize, hword', hgt, UnpackedFloat.round,
      decreaseExponent, Int.toNat_natCast, Nat.shiftLeft_eq, Int.zero_sub, htarget]
  have hk : 0 + k ≤ 12 + j := by
    refine fits_of_grid hm hlow hgrid ?_
    calc
      c * 2 ^ j * 2 ^ 0 = c * 2 ^ j := Nat.mul_one _
      _ ≤ 2 ^ 64 * 2 ^ j := Nat.mul_le_mul_right _ hword.le
      _ ≤ (2 ^ 53 - 1) * 2 ^ 12 * 2 ^ j := Nat.mul_le_mul_right _ (by decide)
      _ = (2 ^ 53 - 1) * 2 ^ (12 + j) := by rw [Nat.pow_add, Nat.mul_assoc]
  rw [atMost_iff]
  refine ⟨.positive, r, 52 - j + k, hr, ?_, hlow, ?_⟩
  · rw [hmodel, hround, unpack_pack hlow hhigh (by omega) (by omega)]
    congr 1
    omega
  · calc
      r * 2 ^ (52 - j + k) = r * 2 ^ k * 2 ^ (52 - j) := by ring
      _ ≤ bound * 2 ^ j * 2 ^ (52 - j) := Nat.mul_le_mul_right _ hbound
      _ = bound * 2 ^ (j + (52 - j)) := by ring
      _ = bound * 2 ^ 52 := by rw [show j + (52 - j) = 52 by omega]

theorem isInf_mul {x y : Float} {a b : Nat} (hx : atMost x a) (hy : atMost y b)
    (hab : a * b ≤ greatest) : (x * y).isInf = false := by
  obtain ⟨sx, mx, i, hmx, hux, hlowx, hlex⟩ := atMost_iff.1 hx
  obtain ⟨sy, my, j, hmy, huy, hlowy, hley⟩ := atMost_iff.1 hy
  obtain ⟨m, hm⟩ : ∃ m, mx * my = m := ⟨_, rfl⟩
  obtain ⟨t, ht⟩ : ∃ t, i + j = t := ⟨_, rfl⟩
  have hlow : 2 ^ 52 ≤ m := hm ▸ Nat.le_trans hlowx (Nat.le_mul_of_pos_right _ hmy)
  have hle : m * 2 ^ t ≤ (2 ^ 53 - 1) * 2 ^ (971 + 104) := by
    calc
      m * 2 ^ t = (mx * 2 ^ i) * (my * 2 ^ j) := by rw [← hm, ← ht]; ring
      _ ≤ (a * 2 ^ 52) * (b * 2 ^ 52) := Nat.mul_le_mul hlex hley
      _ = a * b * 2 ^ 104 := by ring
      _ ≤ greatest * 2 ^ 104 := Nat.mul_le_mul_right _ hab
      _ = (2 ^ 53 - 1) * 2 ^ (971 + 104) := by
        unfold greatest
        rw [Nat.mul_assoc, Nat.pow_add 2 971 104]
  obtain ⟨r, k, hr, hround, hlowr, hhighr, hgrid⟩ :=
    roundWithAccuracy_le (e := (t : Int) - 104) (sx * sy) hlow (by omega)
  have hk : t + k ≤ 971 + 104 := fits_of_grid hlow hlowr hgrid hle
  have hmodel : (x * y).toModel = Float.Model.pack
      (roundWithAccuracy .binary64 (sx * sy) m ((t : Int) - 104) .exact) := by
    change Float.Model.pack (UnpackedFloat.mul _ x.toModel.unpack y.toModel.unpack) = _
    rw [hux, huy, UnpackedFloat.mul, hm]
    congr 2
    omega
  change ((x * y).toModel.unpack).isInf = false
  rw [hmodel, hround, unpack_pack hlowr hhighr (by omega) (by omega)]
  rfl

/-- How many digits may be scaled up by a power of ten. The odd one at 292 is that of the greatest
double: it is scaled up too, but its grid is that of the even numbers. -/
def room (k : Nat) : Nat :=
  if k = 292 then 17976931348623156 else min (10 ^ 17) (greatest / 10 ^ k)

theorem atMost_power : ∀ k < 309, atMost (Float.ofScientific 1 false k) (greatest / room k) := by
  decide +kernel

theorem le_room : ∀ k < 309, k ≠ 292 → min (10 ^ 17) ((brink - 1) / 10 ^ k) ≤ room k := by
  decide +kernel

theorem room_grid : ∀ k < 309,
    room k < 2 ^ 53 ∨ 2 ∣ room k ∧ room k < 2 ^ 54 ∨ 2 ^ 4 ∣ room k ∧ room k < 2 ^ 57 := by
  decide +kernel

theorem dvd_room {c k : Nat} (hpos : 0 < c) (hk : k < 309) (hc : c ≤ room k) :
    2 ^ (c.log2 - 52) ∣ room k := by
  have hlog {n : Nat} (h : room k < 2 ^ n) : c.log2 < n :=
    (Nat.log2_lt hpos.ne').2 (Nat.lt_of_le_of_lt hc h)
  obtain h | ⟨hdvd, h⟩ | ⟨hdvd, h⟩ := room_grid k hk
  · have := hlog h
    rw [show c.log2 - 52 = 0 by omega]
    exact Nat.one_dvd _
  · have := hlog h
    exact (Nat.pow_dvd_pow 2 (show c.log2 - 52 ≤ 1 by omega)).trans hdvd
  · have := hlog h
    exact (Nat.pow_dvd_pow 2 (show c.log2 - 52 ≤ 4 by omega)).trans hdvd

/-- Seventeen digits on a power of ten are a double if what they stand for rounds to one. The one
exception lies above the greatest double, and is not the shortest text of it. -/
theorem isInf_scaled {c k : Nat} (hpos : 0 < c) (hc : c ≤ 10 ^ 17) (hlt : c * 10 ^ k < brink)
    (hne : ¬(c = 17976931348623158 ∧ k = 292)) :
    k < 309 ∧ ((UInt64.ofNat c).toFloat * Float.ofScientific 1 false k).isInf = false := by
  have hten : 0 < 10 ^ k := Nat.pow_pos (by decide)
  have hk : k < 309 := by
    refine (Nat.pow_lt_pow_iff_right (a := 10) (by decide)).1 ?_
    calc
      10 ^ k ≤ c * 10 ^ k := Nat.le_mul_of_pos_left _ hpos
      _ < brink := hlt
      _ < 10 ^ 309 := by decide +kernel
  refine ⟨hk, ?_⟩
  have hdiv : c ≤ (brink - 1) / 10 ^ k := (Nat.le_div_iff_mul_le hten).2 (by omega)
  have hroom : c ≤ room k ∨ c = 17976931348623157 ∧ k = 292 := by
    by_cases h : k = 292
    · subst h
      have hmost : (brink - 1) / 10 ^ 292 = 17976931348623158 := by decide +kernel
      rw [hmost] at hdiv
      have : room 292 = 17976931348623156 := rfl
      omega
    · exact .inl (Nat.le_trans (Nat.le_min.2 ⟨hc, hdiv⟩) (le_room k hk h))
  obtain hroom | ⟨rfl, rfl⟩ := hroom
  · have hword : c < 2 ^ 64 := Nat.lt_of_le_of_lt hc (by decide)
    exact isInf_mul (atMost_toFloat hpos hword hroom (dvd_room hpos hk hroom)) (atMost_power k hk)
      (Nat.mul_div_le _ _)
  · decide +kernel

end TagGateway.Double
