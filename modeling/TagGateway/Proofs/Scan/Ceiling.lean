import TagGateway.Proofs.Scan.Choice

set_option autoImplicit false

namespace TagGateway.PowerLevel

/-- What a level has to be for a ceiling: the strongest that is allowed, or the weakest there is
where none is. -/
structure IsBest (ceiling : Int16) (levels : List PowerLevel) (level : PowerLevel) : Prop where
  mem : level ∈ levels
  strongest : (∃ other ∈ levels, other.value.toInt ≤ ceiling.toInt) →
    level.value.toInt ≤ ceiling.toInt ∧
      ∀ other ∈ levels, other.value.toInt ≤ ceiling.toInt →
        other.value.toInt ≤ level.value.toInt
  weakest : (∀ other ∈ levels, ceiling.toInt < other.value.toInt) →
    ∀ other ∈ levels, level.value.toInt ≤ other.value.toInt

theorem IsBest.of_perm {ceiling : Int16} {levels levels' : List PowerLevel} {level : PowerLevel}
    (h : level.IsBest ceiling levels) (hperm : levels.Perm levels') :
    level.IsBest ceiling levels' where
  mem := hperm.mem_iff.1 h.mem
  strongest := by simpa only [hperm.mem_iff] using h.strongest
  weakest := by simpa only [hperm.mem_iff] using h.weakest

theorem IsBest.above_iff {ceiling : Int16} {levels : List PowerLevel} {level : PowerLevel}
    (h : level.IsBest ceiling levels) :
    ceiling.toInt < level.value.toInt ↔
      ∀ other ∈ levels, ceiling.toInt < other.value.toInt := by
  refine ⟨fun habove other hother => ?_, fun hall => hall level h.mem⟩
  refine Int.not_le.1 fun hle => ?_
  have := (h.strongest ⟨other, hother, hle⟩).1
  omega

/-- The search by places: from the first level that is not below the ceiling one place back, unless
that level is at the ceiling or the first of all. There is no place back from the first. -/
def place? (ceiling : Int16) (levels : List PowerLevel) : Option Nat :=
  let first := levels.findIdx fun l => ceiling.toInt ≤ l.value.toInt
  match levels[first]? with
  | some level => if level.value = ceiling ∨ first = 0 then some first else some (first - 1)
  | none => if first = 0 then none else some (first - 1)

structure Cut (ceiling : Int16) (levels below rest : List PowerLevel) : Prop where
  whole : levels = below ++ rest
  lower : ∀ l ∈ below, l.value.toInt < ceiling.toInt
  upper : ∀ l ∈ rest, ceiling.toInt ≤ l.value.toInt
  ascending : levels.Pairwise fun a b => a.value.toInt ≤ b.value.toInt

theorem exists_cut {levels : List PowerLevel} (ceiling : Int16)
    (ascending : levels.Pairwise fun a b => a.value.toInt ≤ b.value.toInt) :
    ∃ below rest, Cut ceiling levels below rest := by
  induction levels with
  | nil => exact ⟨[], [], rfl, by simp, by simp, ascending⟩
  | cons a levels ih =>
    obtain ⟨hhead, htail⟩ := List.pairwise_cons.1 ascending
    by_cases ha : a.value.toInt < ceiling.toInt
    · obtain ⟨below, rest, hcut⟩ := ih htail
      exact ⟨a :: below, rest, by rw [hcut.whole]; rfl, List.forall_mem_cons.2 ⟨ha, hcut.lower⟩,
        hcut.upper, ascending⟩
    · have ha : ceiling.toInt ≤ a.value.toInt := Int.not_lt.1 ha
      exact ⟨[], a :: levels, rfl, by simp,
        List.forall_mem_cons.2 ⟨ha, fun l hl => Int.le_trans ha (hhead l hl)⟩, ascending⟩

namespace Cut

variable {ceiling : Int16} {levels below rest : List PowerLevel}

theorem head_le (h : Cut ceiling levels below rest) {first : PowerLevel}
    (hfirst : rest.head? = some first) : ∀ l ∈ rest, first.value.toInt ≤ l.value.toInt := by
  have hsorted := (List.pairwise_append.1 (h.whole ▸ h.ascending)).2.1
  obtain ⟨after, rfl⟩ := List.head?_eq_some_iff.1 hfirst
  intro l hl
  rcases List.mem_cons.1 hl with rfl | hl
  · exact Int.le_refl _
  · exact List.rel_of_pairwise_cons hsorted hl

theorem le_last (h : Cut ceiling levels below rest) {last : PowerLevel}
    (hlast : below.getLast? = some last) : ∀ l ∈ below, l.value.toInt ≤ last.value.toInt := by
  have hsorted := (List.pairwise_append.1 (h.whole ▸ h.ascending)).1
  obtain ⟨before, rfl⟩ := List.getLast?_eq_some_iff.1 hlast
  intro l hl
  rcases List.mem_append.1 hl with hl | hl
  · exact (List.pairwise_append.1 hsorted).2.2 l hl last List.mem_cons_self
  · obtain rfl := List.mem_singleton.1 hl
    exact Int.le_refl _

theorem findIdx_eq (h : Cut ceiling levels below rest) :
    (levels.findIdx fun l => ceiling.toInt ≤ l.value.toInt) = below.length := by
  have hbelow : (below.findIdx fun l => ceiling.toInt ≤ l.value.toInt) = below.length :=
    List.findIdx_eq_length_of_false fun l hl => by simpa using h.lower l hl
  have hrest : (rest.findIdx fun l => ceiling.toInt ≤ l.value.toInt) = 0 := by
    cases hr : rest with
    | nil => rfl
    | cons l after => simp [List.findIdx_cons, h.upper l (hr ▸ List.mem_cons_self)]
  rw [h.whole, List.findIdx_append, hbelow, hrest, if_neg (Nat.lt_irrefl _), Nat.zero_add]

theorem takeWhile_eq (h : Cut ceiling levels below rest) :
    (levels.takeWhile fun l => l.value.toInt < ceiling.toInt) = below := by
  have hbelow : ∀ l ∈ below, decide (l.value.toInt < ceiling.toInt) = true :=
    fun l hl => by simpa using h.lower l hl
  rw [h.whole, List.takeWhile_append_of_pos hbelow]
  cases hr : rest with
  | nil => simp
  | cons l after => simp [Int.not_lt.2 (h.upper l (hr ▸ List.mem_cons_self))]

theorem dropWhile_eq (h : Cut ceiling levels below rest) :
    (levels.dropWhile fun l => l.value.toInt < ceiling.toInt) = rest := by
  have hsplit := List.takeWhile_append_dropWhile (p := fun l : PowerLevel =>
    decide (l.value.toInt < ceiling.toInt)) (l := levels)
  rw [h.takeWhile_eq, h.whole] at hsplit
  rw [h.whole]
  exact List.append_cancel_left hsplit

theorem atMost_cases (h : Cut ceiling levels below rest) (nonempty : levels ≠ []) :
    (rest.head? = some (atMost ceiling levels nonempty)
        ∧ (atMost ceiling levels nonempty).value = ceiling)
      ∨ (∀ l ∈ rest, ceiling.toInt < l.value.toInt)
        ∧ (below.getLast? = some (atMost ceiling levels nonempty)
          ∨ below = [] ∧ rest.head? = some (atMost ceiling levels nonempty)) := by
  have hwhole := h.whole
  unfold atMost
  simp only [h.takeWhile_eq, h.dropWhile_eq]
  split
  · next level hfind =>
    refine .inl ⟨?_, by simpa using List.find?_some hfind⟩
    -- In ascending order no level but those at the ceiling stands before one of them.
    cases hr : rest with
    | nil => simp [hr] at hfind
    | cons first after =>
      have hfirst : first.value = ceiling := by
        have hlevel : level.value = ceiling := by simpa using List.find?_some hfind
        have hle := h.head_le (by rw [hr]; rfl) level (List.mem_of_find?_eq_some hfind)
        rw [hlevel] at hle
        exact Int16.toInt_inj.1 (Int.le_antisymm hle (h.upper first (hr ▸ List.mem_cons_self)))
      simpa [hr, hfirst] using hfind
  · next hfind =>
    have hnone := List.find?_eq_none.1 hfind
    refine .inr ⟨fun l hl => ?_, ?_⟩
    · have hne : l.value ≠ ceiling := by simpa using hnone l hl
      have := h.upper l hl
      have : l.value.toInt ≠ ceiling.toInt := fun heq => hne (Int16.toInt_inj.1 heq)
      omega
    · cases hb : below.getLast? with
      | some last => exact .inl rfl
      | none =>
        obtain rfl := List.getLast?_eq_none_iff.1 hb
        refine .inr ⟨rfl, ?_⟩
        subst hwhole
        exact List.head?_eq_some_head nonempty

end Cut

variable {ceiling : Int16} {levels : List PowerLevel}

/-- The search by places stays within a table that is not empty, and finds the level. -/
theorem getElem?_place? (ascending : levels.Pairwise fun a b => a.value.toInt ≤ b.value.toInt)
    (nonempty : levels ≠ []) :
    ∃ i, place? ceiling levels = some i
      ∧ levels[i]? = some (atMost ceiling levels nonempty) := by
  obtain ⟨below, rest, hcut⟩ := exists_cut ceiling ascending
  have hhere : levels[below.length]? = rest.head? := by
    rw [hcut.whole, List.getElem?_append_right (Nat.le_refl _), Nat.sub_self,
      List.head?_eq_getElem?]
  have hback : below ≠ [] → levels[below.length - 1]? = below.getLast? := fun hne => by
    have := List.length_pos_iff.2 hne
    rw [hcut.whole, List.getElem?_append_left (by omega), List.getLast?_eq_getElem?]
  simp only [place?, hcut.findIdx_eq, hhere]
  obtain ⟨hhead, hat⟩ | ⟨habove, hlast | ⟨rfl, hhead⟩⟩ := hcut.atMost_cases nonempty
  · exact ⟨below.length, by simp [hhead, hat], hhere.trans hhead⟩
  · have hne : below ≠ [] := fun h => by simp [h] at hlast
    have hlength : below.length ≠ 0 := fun h => hne (List.length_eq_zero_iff.1 h)
    refine ⟨below.length - 1, ?_, (hback hne).trans hlast⟩
    cases hr : rest with
    | nil => simp [hlength]
    | cons first after =>
      have hfirst : first.value ≠ ceiling := fun h => by
        have := habove first (hr ▸ List.mem_cons_self)
        simp [h] at this
      simp [hfirst, hlength]
  · exact ⟨0, by simp [hhead], hhere.trans hhead⟩

theorem isBest_atMost (ascending : levels.Pairwise fun a b => a.value.toInt ≤ b.value.toInt)
    (nonempty : levels ≠ []) : (atMost ceiling levels nonempty).IsBest ceiling levels := by
  obtain ⟨below, rest, hcut⟩ := exists_cut ceiling ascending
  have hmem {l : PowerLevel} : l ∈ levels ↔ l ∈ below ∨ l ∈ rest := by
    rw [hcut.whole, List.mem_append]
  refine ⟨atMost_mem nonempty, fun ⟨allowed, hallowed, hle⟩ => ?_, fun hnone other hother => ?_⟩
  · obtain ⟨hhead, hat⟩ | ⟨habove, hlast | ⟨rfl, hhead⟩⟩ := hcut.atMost_cases nonempty
    · rw [hat]
      exact ⟨Int.le_refl _, fun other _ hle => hle⟩
    · refine ⟨Int.le_of_lt (hcut.lower _ (List.mem_of_getLast? hlast)), fun other hother hle => ?_⟩
      rcases hmem.1 hother with hother | hother
      · exact hcut.le_last hlast other hother
      · have := habove other hother
        omega
    · have := habove allowed (by simpa using hmem.1 hallowed)
      omega
  · -- Nothing is below the ceiling then, and the table starts with the weakest level.
    have hempty : below = [] := List.eq_nil_iff_forall_not_mem.2 fun l hl => by
      have := hcut.lower l hl
      have := hnone l (hmem.2 (.inl hl))
      omega
    subst hempty
    refine hcut.head_le ?_ other (by simpa using hmem.1 hother)
    obtain ⟨hhead, -⟩ | ⟨-, hlast | ⟨-, hhead⟩⟩ := hcut.atMost_cases nonempty
    · exact hhead
    · simp at hlast
    · exact hhead

end TagGateway.PowerLevel
