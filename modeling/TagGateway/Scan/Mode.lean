import TagGateway.Scan.Behavior

/-!
The choice of a radio mode. The readers nearby and the frequencies at hand set how tolerant of
interference a mode should be; of the modes that are, the one with the best throughput is taken,
the first in the table of equally good ones. Where there is none, the demand is relaxed step by
step.
-/

set_option autoImplicit false

namespace TagGateway

/-- How tolerant a mode should be. From two readers on the share of frequencies they take decides:
above one half the spectrum is dense. -/
def targetMask (readers frequencies : Nat) : SpectralMask :=
  match readers with
  | 0 => .unknown
  | 1 => .single
  | n =>
    if frequencies = 0 ∨ frequencies ≤ n then .dense
    else if (1 / 2 : Rat) < n / frequencies then .dense
    else .multi

namespace RfMode

def bestForwardNs : Float := 6250.0 * 2.5
def bestBackscatter : Float := 640000.0

/-- Throughput, half from either link, one for the best of both. -/
def score (m : RfMode) : Float :=
  let forwardNs := m.minTari.toNat.toFloat * (1.0 + m.pieRatio.toNat.toFloat / 1000.0)
  let forward := if forwardNs > 0.0 then bestForwardNs / forwardNs else 0.0
  let backscatter := m.backscatterRate.toNat.toFloat / bestBackscatter
  0.5 * forward + 0.5 * backscatter

def beats (m other : RfMode) : Bool := m.score > other.score

end RfMode

def better {α : Type} (beats : α → α → Bool) (best : Option α) (item : α) : Option α :=
  match best with
  | none => some item
  | some b => if beats item b then some item else some b

def pickBest {α : Type} (beats : α → α → Bool) (items : List α) : Option α :=
  items.foldl (better beats) none

def meeting (demand : SpectralMask) (modes : List RfMode) : List RfMode :=
  modes.filter fun m => demand.level ≤ m.mask.level

/-- The best of the modes that meet a demand. One that no mode meets is relaxed by a step. -/
def bestMode (beats : RfMode → RfMode → Bool) (modes : List RfMode) (demand : SpectralMask) :
    Option RfMode :=
  match pickBest beats (meeting demand modes) with
  | some m => some m
  | none =>
    match _ : demand.relax with
    | some weaker => bestMode beats modes weaker
    | none => none
termination_by demand.level
decreasing_by
  rw [SpectralMask.level_of_relax ‹demand.relax = some weaker›]
  exact Nat.lt_succ_self _

end TagGateway
