/-!
Arithmetic on 64-bit times. Times are whole numbers; a difference that 64 signed bits do not hold
is an overflow, which stops the operation that needs it. Sums of a timestamp and an offset are
clamped instead.
-/

set_option autoImplicit false

namespace TagGateway

/-- An arithmetic step whose exact result its word does not hold. -/
inductive Overflow where
  | add
  | subtract
  deriving DecidableEq, Repr

def Overflow.message : Overflow → String
  | add => "attempt to add with overflow"
  | subtract => "attempt to subtract with overflow"

def fitsWord (n : Int) : Bool := -0x8000000000000000 ≤ n && n < 0x8000000000000000

def clampWord (n : Int) : Int := max (-0x8000000000000000) (min n 0x7FFFFFFFFFFFFFFF)

def difference (a b : Int) : Except Overflow Int :=
  if fitsWord (a - b) then .ok (a - b) else .error .subtract

theorem fitsWord_iff {n : Int} :
    fitsWord n = true ↔ -0x8000000000000000 ≤ n ∧ n < 0x8000000000000000 := by
  simp [fitsWord]

theorem difference_eq_ok {a b : Int} (h : fitsWord (a - b) = true) :
    difference a b = .ok (a - b) := by
  simp [difference, h]

theorem eq_sub_of_difference {a b n : Int} (h : difference a b = .ok n) : n = a - b := by
  unfold difference at h
  split at h
  · exact (Except.ok.inj h).symm
  · cases h

theorem clampWord_eq_self {n : Int} (h : fitsWord n = true) : clampWord n = n := by
  have := fitsWord_iff.1 h
  unfold clampWord
  omega

theorem fitsWord_clampWord (n : Int) : fitsWord (clampWord n) = true := by
  rw [fitsWord_iff]
  unfold clampWord
  omega

end TagGateway
