import TagGateway.Proofs.Decimal.Order
import TagGateway.Proofs.Scan.Choice

set_option autoImplicit false

namespace TagGateway

/-- The first of the items with the greatest score. -/
def FirstBest {α S : Type} [LT S] [LE S] (score : α → S) (items : List α) (best : α) : Prop :=
  ∃ before after, items = before ++ best :: after ∧ (∀ a ∈ before, score a < score best)
    ∧ ∀ a ∈ after, score a ≤ score best

section Linear

variable {α S : Type} [LinearOrder S] {score : α → S} {beats : α → α → Bool}

theorem FirstBest.concat_of_le {items : List α} {best a : α} (h : FirstBest score items best)
    (ha : score a ≤ score best) : FirstBest score (items ++ [a]) best := by
  obtain ⟨before, after, rfl, hbefore, hafter⟩ := h
  refine ⟨before, after ++ [a], by simp, hbefore, fun c hc => ?_⟩
  rcases List.mem_append.1 hc with hc | hc
  · exact hafter c hc
  · exact List.mem_singleton.1 hc ▸ ha

theorem FirstBest.concat_of_lt {items : List α} {best a : α} (h : FirstBest score items best)
    (ha : score best < score a) : FirstBest score (items ++ [a]) a := by
  obtain ⟨before, after, rfl, hbefore, hafter⟩ := h
  refine ⟨before ++ best :: after, [], rfl, fun c hc => ?_, nofun⟩
  rcases List.mem_append.1 hc with hc | hc
  · exact (hbefore c hc).trans ha
  · rcases List.mem_cons.1 hc with rfl | hc
    · exact ha
    · exact (hafter c hc).trans_lt ha

theorem FirstBest.better (hbeats : ∀ a b, beats a b = true ↔ score b < score a) {seen : List α}
    {best : α} (h : FirstBest score seen best) (a : α) :
    ∃ next, TagGateway.better beats (some best) a = some next
      ∧ FirstBest score (seen ++ [a]) next := by
  by_cases hbetter : beats a best = true
  · exact ⟨a, if_pos hbetter, h.concat_of_lt ((hbeats a best).1 hbetter)⟩
  · exact ⟨best, if_neg hbetter,
      h.concat_of_le (not_lt.1 fun hlt => hbetter ((hbeats a best).2 hlt))⟩

theorem firstBest_foldl (hbeats : ∀ a b, beats a b = true ↔ score b < score a) {seen : List α}
    {start : α} (hstart : FirstBest score seen start) (items : List α) :
    ∃ best, items.foldl (better beats) (some start) = some best
      ∧ FirstBest score (seen ++ items) best := by
  induction items generalizing seen start with
  | nil => exact ⟨start, rfl, by simpa using hstart⟩
  | cons a rest ih =>
    obtain ⟨next, hnext, hfirst⟩ := hstart.better hbeats a
    rw [List.foldl_cons, hnext, List.append_cons]
    exact ih hfirst

theorem firstBest_pickBest (hbeats : ∀ a b, beats a b = true ↔ score b < score a) {items : List α}
    (hsome : items ≠ []) :
    ∃ best, pickBest beats items = some best ∧ FirstBest score items best := by
  obtain ⟨a, rest, rfl⟩ := List.exists_cons_of_ne_nil hsome
  have hfirst : FirstBest score [a] a := ⟨[], [], rfl, nofun, nofun⟩
  exact firstBest_foldl hbeats hfirst rest

variable {score : RfMode → S} {beats : RfMode → RfMode → Bool} {modes : List RfMode}

theorem greatest_lt_of_pickBest_eq_none (hbeats : ∀ a b, beats a b = true ↔ score b < score a)
    {greatest : Nat} (hgreatest : IsGreatest {level | ∃ m ∈ modes, m.mask.level = level} greatest)
    {demand : SpectralMask}
    (hnone : pickBest beats (meeting demand modes) = none) :
    greatest < demand.level := by
  obtain ⟨top, htop, rfl⟩ := hgreatest.1
  by_contra hmet
  have hsome : meeting demand modes ≠ [] :=
    List.ne_nil_of_mem (List.mem_filter.2 ⟨htop, by simpa using hmet⟩)
  obtain ⟨best, hbest, -⟩ := firstBest_pickBest hbeats hsome
  cases hnone.symm.trans hbest

/-- The search comes to the best of the modes that meet the demand, or of those that meet the
strictest one that can be met. -/
theorem firstBest_bestMode (hbeats : ∀ a b, beats a b = true ↔ score b < score a) {greatest : Nat}
    (hgreatest : IsGreatest {level | ∃ m ∈ modes, m.mask.level = level} greatest)
    (demand : SpectralMask) :
    ∃ best, bestMode beats modes demand = some best
      ∧ FirstBest score (modes.filter fun m => min demand.level greatest ≤ m.mask.level) best := by
  obtain ⟨top, htop, htop'⟩ := hgreatest.1
  fun_induction bestMode beats modes demand with
  | case1 demand best hbest =>
    obtain ⟨hmem, hmet⟩ := List.mem_filter.1 (mem_of_pickBest hbest)
    have hle : demand.level ≤ greatest :=
      (of_decide_eq_true hmet).trans (hgreatest.2 ⟨best, hmem, rfl⟩)
    obtain ⟨best', hbest', hfirst⟩ := firstBest_pickBest hbeats
      (List.ne_nil_of_mem (mem_of_pickBest hbest))
    obtain rfl := Option.some.inj (hbest.symm.trans hbest')
    rw [min_eq_left hle]
    exact ⟨best, rfl, hfirst⟩
  | case2 demand hnone weaker relaxed ih =>
    -- No mode meets the demand, and the next weaker one admits no others than this one.
    have hlt := greatest_lt_of_pickBest_eq_none hbeats hgreatest hnone
    have hlevel := SpectralMask.level_of_relax relaxed
    have hmin : min demand.level greatest = min weaker.level greatest := by omega
    rw [hmin]
    exact ih
  | case3 demand hnone relaxed =>
    have hlt := greatest_lt_of_pickBest_eq_none hbeats hgreatest hnone
    have hlevel := SpectralMask.level_of_relax_eq_none relaxed
    omega

end Linear

namespace RfMode

open Double

theorem isNaN_score (m : RfMode) : m.score.isNaN = false := by
  have hhalf : isPositive (0.5 : Float).toModel.unpack = true := by decide +kernel
  have hforward : isPositive bestForwardNs.toModel.unpack = true := by decide +kernel
  have hbackscatter : isPositive bestBackscatter.toModel.unpack = true := by decide +kernel
  refine HasPlus.isNaN (.add (.positive_mul hhalf ?_)
    (.positive_mul hhalf (.div_positive (.toFloat _) hbackscatter)))
  split
  · next hpos => exact .positive_div hforward (.of_pos hpos)
  · exact .zero

theorem beats_iff (m other : RfMode) :
    m.beats other = true ↔
      rank other.score.toModel.unpack < rank m.score.toModel.unpack := by
  rw [← lt_iff_rank other.isNaN_score m.isNaN_score, beats, decide_eq_true_iff]

theorem firstBest_of_rank {modes : List RfMode} {best : RfMode}
    (h : FirstBest (fun m : RfMode => rank m.score.toModel.unpack) modes best) :
    FirstBest score modes best := by
  obtain ⟨before, after, hsplit, hbefore, hafter⟩ := h
  exact ⟨before, after, hsplit,
    fun m hm => (lt_iff_rank m.isNaN_score best.isNaN_score).2 (hbefore m hm),
    fun m hm => (le_iff_rank m.isNaN_score best.isNaN_score).2 (hafter m hm)⟩

end RfMode

end TagGateway
