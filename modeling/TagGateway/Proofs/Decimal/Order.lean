import TagGateway.Proofs.Decimal.Double

/-!
The order of doubles. Main statements: doubles that are not NaN are ordered as their ranks in a
linear order; and sums of numbers with a plus sign are such numbers, as are products and quotients
where one side is neither zero nor infinite.
-/

set_option autoImplicit false

namespace TagGateway.Double

open Float.Model Float.Model.UnpackedFloat

/-- Where a double stands among the others: its kind first, then exponent and mantissa. NaN stands
nowhere and shares the rank of zero. -/
def rank : UnpackedFloat → ℤ ×ₗ ℤ ×ₗ ℤ
  | .infinity .negative => toLex (-2, toLex (0, 0))
  | .finite .negative m e _ => toLex (-1, toLex (-e, -(m : ℤ)))
  | .zero _ | .notANumber => toLex (0, toLex (0, 0))
  | .finite .positive m e _ => toLex (1, toLex (e, (m : ℤ)))
  | .infinity .positive => toLex (2, toLex (0, 0))

theorem compare_cast (m n : ℕ) : compare (m : ℤ) (n : ℤ) = compare m n := by
  simp only [compare, compareOfLessAndEq, Int.ofNat_lt, Int.ofNat_inj]

theorem compare_neg_neg (a b : ℤ) : compare (-a) (-b) = compare b a := by
  simp only [compare, compareOfLessAndEq, neg_lt_neg_iff, neg_inj, eq_comm]

theorem compare_finite (s s' : Sign) {m m' : ℕ} (e e' : ℤ) (h : 0 < m) (h' : 0 < m') :
    (finite s m e h).compare (finite s' m' e' h')
      = some (compare (rank (finite s m e h)) (rank (finite s' m' e' h'))) := by
  cases s <;> cases s'
  -- Of two negative numbers the one with the smaller exponent and mantissa is the greater.
  · simp only [UnpackedFloat.compare, rank, Prod.Lex.compare_def, compareLex, compareOn,
      Ordering.swap_then, compare_cast, compare_neg_neg, ofLex_toLex, Std.ReflCmp.compare_self,
      Ordering.eq_then, ← Std.OrientedOrd.eq_swap]
  · rfl
  · rfl
  · simp only [UnpackedFloat.compare, rank, Prod.Lex.compare_def, compareLex, compareOn,
      compare_cast, ofLex_toLex, Std.ReflCmp.compare_self, Ordering.eq_then]

theorem compare_rank {a b : UnpackedFloat} (ha : a.isNaN = false) (hb : b.isNaN = false) :
    a.compare b = some (compare (rank a) (rank b)) := by
  cases a with
  | notANumber => cases ha
  | infinity s =>
    cases b with
    | notANumber => cases hb
    | infinity s' => cases s <;> cases s' <;> rfl
    | zero s' => cases s <;> rfl
    | finite s' m' e' h' => cases s <;> cases s' <;> rfl
  | zero s =>
    cases b with
    | notANumber => cases hb
    | infinity s' => cases s' <;> rfl
    | zero s' => rfl
    | finite s' m' e' h' => cases s' <;> rfl
  | finite s m e h =>
    cases b with
    | notANumber => cases hb
    | infinity s' => cases s <;> cases s' <;> rfl
    | zero s' => cases s <;> rfl
    | finite s' m' e' h' => exact compare_finite s s' e e' h h'

theorem lt_iff_rank {x y : Float} (hx : x.isNaN = false) (hy : y.isNaN = false) :
    x < y ↔ rank x.toModel.unpack < rank y.toModel.unpack := by
  have hlt : x < y ↔ x.toModel.unpack.lt y.toModel.unpack = true := by
    change decide (x.toModel.unpack.lt y.toModel.unpack = true) = true ↔ _
    rw [decide_eq_true_iff]
  rw [hlt, UnpackedFloat.lt, compare_rank hx hy, ← compare_lt_iff_lt]
  simp

theorem le_iff_rank {x y : Float} (hx : x.isNaN = false) (hy : y.isNaN = false) :
    x ≤ y ↔ rank x.toModel.unpack ≤ rank y.toModel.unpack := by
  have hle : x ≤ y ↔ x.toModel.unpack.le y.toModel.unpack = true := by
    change decide (x.toModel.unpack.le y.toModel.unpack = true) = true ↔ _
    rw [decide_eq_true_iff]
  rw [hle, UnpackedFloat.le, compare_rank hx hy, ← compare_le_iff_le, Option.any_some,
    Ordering.isLE_iff_ne_gt]

def isPlus : UnpackedFloat → Bool
  | .infinity .positive | .zero .positive | .finite .positive _ _ _ => true
  | _ => false

def isPositive : UnpackedFloat → Bool
  | .finite .positive _ _ _ => true
  | _ => false

section Plus

variable {spec : Format} {a b : UnpackedFloat}

theorem isPlus_cases (h : isPlus a = true) :
    a = .infinity .positive ∨ a = .zero .positive ∨ ∃ m e hm, a = .finite .positive m e hm := by
  cases a with
  | notANumber => cases h
  | infinity s =>
    cases s with
    | negative => cases h
    | positive => exact .inl rfl
  | zero s =>
    cases s with
    | negative => cases h
    | positive => exact .inr (.inl rfl)
  | finite s m e hm =>
    cases s with
    | negative => cases h
    | positive => exact .inr (.inr ⟨m, e, hm, rfl⟩)

theorem isNaN_of_isPlus (h : isPlus a = true) : a.isNaN = false := by
  obtain rfl | rfl | ⟨m, e, hm, rfl⟩ := isPlus_cases h <;> rfl

theorem isPlus_of_isPositive (h : isPositive a = true) : isPlus a = true := by
  unfold isPositive at h
  split at h
  · rfl
  · cases h

theorem isPlus_of_zero_lt {s : Sign} (h : UnpackedFloat.lt (.zero s) a = true) :
    isPlus a = true := by
  cases a with
  | notANumber => cases h
  | infinity s' => cases s' <;> first | rfl | cases h
  | zero s' => cases h
  | finite s' m e hm => cases s' <;> first | rfl | cases h

theorem isPlus_roundWithAccuracy (m : ℕ) (e : ℤ) (accuracy : Accuracy) :
    isPlus (roundWithAccuracy spec .positive m e accuracy) = true := by
  unfold roundWithAccuracy
  dsimp only
  split <;> rfl

theorem isPlus_normalize {n : ℤ} (hn : 0 ≤ n) (e : ℤ) :
    isPlus (UnpackedFloat.normalize spec n e .positive) = true := by
  unfold UnpackedFloat.normalize
  split
  · next h => exact absurd (compare_lt_iff_lt.1 h) (not_lt.2 hn)
  · rfl
  · exact isPlus_roundWithAccuracy _ _ _

theorem isPlus_packComponents {e : BitVec 11} {m : BitVec 52} (h : e = -1#11 → m = 0#52) :
    isPlus (UnpackedFloat.unpack .binary64 (packComponents .binary64 .positive e m)) = true := by
  unfold UnpackedFloat.unpack
  simp only [unpackMantissa_packComponents, unpackExponent_packComponents,
    unpackSign_packComponents, Sign.ofBitVec_toBitVec]
  split
  · next he => rw [if_pos (h he)]; rfl
  · split
    · split <;> rfl
    · rfl

/-- Storing a double leaves its plus sign alone, even if the number turns into infinity or zero. -/
theorem isPlus_pack (h : isPlus a = true) : isPlus (Float.Model.pack a).unpack = true := by
  unfold Float.Model.unpack Float.Model.pack
  obtain rfl | rfl | ⟨m, e, hm, rfl⟩ := isPlus_cases h
  · exact isPlus_packComponents fun _ => rfl
  · exact isPlus_packComponents fun _ => rfl
  · dsimp only [UnpackedFloat.pack]
    split
    · exact isPlus_packComponents fun _ => rfl
    · next hfits =>
      split
      · refine isPlus_packComponents fun hones => ?_
        have := congrArg BitVec.toNat hones
        simp at this hfits
        omega
      · exact isPlus_packComponents fun hones => absurd hones (by decide)

theorem isPlus_add (ha : isPlus a = true) (hb : isPlus b = true) :
    isPlus (UnpackedFloat.add spec a b) = true := by
  obtain rfl | rfl | ⟨m, e, hm, rfl⟩ := isPlus_cases ha <;>
    obtain rfl | rfl | ⟨m', e', hm', rfl⟩ := isPlus_cases hb <;> try rfl
  exact isPlus_normalize (Int.add_nonneg (Int.natCast_nonneg _) (Int.natCast_nonneg _)) _

theorem isPlus_mul (ha : isPlus a = true) (hb : isPlus b = true)
    (h : isPositive a = true ∨ isPositive b = true) :
    isPlus (UnpackedFloat.mul spec a b) = true := by
  obtain rfl | rfl | ⟨m, e, hm, rfl⟩ := isPlus_cases ha <;>
    obtain rfl | rfl | ⟨m', e', hm', rfl⟩ := isPlus_cases hb <;>
    try first | rfl | simp [isPositive] at h
  exact isPlus_roundWithAccuracy _ _ _

theorem isPlus_div (ha : isPlus a = true) (hb : isPlus b = true)
    (h : isPositive a = true ∨ isPositive b = true) :
    isPlus (UnpackedFloat.div spec a b) = true := by
  obtain rfl | rfl | ⟨m, e, hm, rfl⟩ := isPlus_cases ha <;>
    obtain rfl | rfl | ⟨m', e', hm', rfl⟩ := isPlus_cases hb <;>
    try first | rfl | simp [isPositive] at h
  exact isPlus_roundWithAccuracy _ _ _

end Plus

def HasPlus (x : Float) : Prop := isPlus x.toModel.unpack = true

namespace HasPlus

variable {x y : Float}

theorem isNaN (h : HasPlus x) : x.isNaN = false := isNaN_of_isPlus h

theorem add (hx : HasPlus x) (hy : HasPlus y) : HasPlus (x + y) := isPlus_pack (isPlus_add hx hy)

theorem positive_mul (hx : isPositive x.toModel.unpack = true) (hy : HasPlus y) :
    HasPlus (x * y) := isPlus_pack (isPlus_mul (isPlus_of_isPositive hx) hy (.inl hx))

theorem mul_positive (hx : HasPlus x) (hy : isPositive y.toModel.unpack = true) :
    HasPlus (x * y) := isPlus_pack (isPlus_mul hx (isPlus_of_isPositive hy) (.inr hy))

theorem positive_div (hx : isPositive x.toModel.unpack = true) (hy : HasPlus y) :
    HasPlus (x / y) := isPlus_pack (isPlus_div (isPlus_of_isPositive hx) hy (.inl hx))

theorem div_positive (hx : HasPlus x) (hy : isPositive y.toModel.unpack = true) :
    HasPlus (x / y) := isPlus_pack (isPlus_div hx (isPlus_of_isPositive hy) (.inr hy))

theorem unpack_zero : (0.0 : Float).toModel.unpack = .zero .positive := rfl

theorem zero : HasPlus 0.0 := congrArg isPlus unpack_zero

theorem of_pos (h : 0.0 < x) : HasPlus x := by
  have hlt : (0.0 : Float).toModel.unpack.lt x.toModel.unpack = true := of_decide_eq_true h
  rw [unpack_zero] at hlt
  exact isPlus_of_zero_lt hlt

theorem toFloat (n : UInt32) : HasPlus n.toNat.toFloat := by
  have hn : n.toNat < 2 ^ 53 ∧ 0 ≤ 22 := ⟨Nat.lt_trans n.toNat_lt (by decide), by decide⟩
  change HasPlus (Float.ofScientific n.toNat false 0)
  unfold Float.ofScientific
  rw [dif_pos hn]
  have hone : isPositive (Float.ofBits 0x3FF0000000000000).toModel.unpack = true := by
    decide +kernel
  exact mul_positive (isPlus_pack (isPlus_normalize (Int.natCast_nonneg _) 0)) hone

end HasPlus

end TagGateway.Double
