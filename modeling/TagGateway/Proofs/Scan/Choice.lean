import TagGateway.Scan.Mode
import TagGateway.Scan.Power

set_option autoImplicit false

namespace TagGateway

namespace PowerLevel

theorem atMost_mem {ceiling : Int16} {levels : List PowerLevel} (nonempty : levels ≠ []) :
    atMost ceiling levels nonempty ∈ levels := by
  unfold atMost
  dsimp only
  split
  · next level h =>
    exact (List.dropWhile_sublist _).mem (List.mem_of_find?_eq_some h)
  · cases h : (levels.takeWhile fun l => l.value.toInt < ceiling.toInt).getLast? with
    | none => exact List.head_mem nonempty
    | some level => exact (List.takeWhile_sublist _).mem (List.mem_of_getLast? h)

end PowerLevel

section Best

variable {α : Type}

theorem better_eq_some {beats : α → α → Bool} {best : Option α} {item m : α}
    (h : better beats best item = some m) : m = item ∨ best = some m := by
  cases best with
  | none => exact .inl (Option.some.inj h).symm
  | some b =>
    simp only [better] at h
    split at h
    · exact .inl (Option.some.inj h).symm
    · exact .inr h

theorem mem_of_foldl_better {beats : α → α → Bool} {items : List α} {start : Option α} {m : α}
    (h : items.foldl (better beats) start = some m) : m ∈ items ∨ start = some m := by
  induction items generalizing start with
  | nil => exact .inr h
  | cons item rest ih =>
    rcases ih h with hm | hm
    · exact .inl (List.mem_cons_of_mem item hm)
    · rcases better_eq_some hm with rfl | hm
      · exact .inl List.mem_cons_self
      · exact .inr hm

theorem mem_of_pickBest {beats : α → α → Bool} {items : List α} {m : α}
    (h : pickBest beats items = some m) : m ∈ items := by
  rcases mem_of_foldl_better h with hm | hm
  · exact hm
  · cases hm

theorem mem_of_bestMode {beats : RfMode → RfMode → Bool} {modes : List RfMode}
    {demand : SpectralMask} {m : RfMode} (h : bestMode beats modes demand = some m) :
    m ∈ modes := by
  fun_induction bestMode beats modes demand with
  | case1 demand best hbest =>
    obtain rfl := Option.some.inj h
    exact (List.mem_filter.1 (mem_of_pickBest hbest)).1
  | case2 demand hnone weaker relaxed ih => exact ih h
  | case3 demand hnone relaxed => cases h

end Best

end TagGateway
