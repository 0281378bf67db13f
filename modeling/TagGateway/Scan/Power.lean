import TagGateway.Reader.Capabilities

set_option autoImplicit false

namespace TagGateway

namespace PowerLevel

def weaker (a b : PowerLevel) : Bool := a.value.toInt ≤ b.value.toInt

def ascending : List PowerLevel → Bool
  | a :: b :: rest => weaker a b && ascending (b :: rest)
  | _ => true

/-- The table in ascending order. Levels of one power keep their order, and a table that is in
order is left alone. -/
def table (levels : List PowerLevel) : List PowerLevel :=
  if ascending levels then levels else levels.mergeSort weaker

theorem pairwise_of_ascending {levels : List PowerLevel} (h : ascending levels = true) :
    levels.Pairwise fun a b => a.value.toInt ≤ b.value.toInt := by
  induction levels with
  | nil => exact .nil
  | cons a rest ih =>
    cases rest with
    | nil => simp
    | cons b rest =>
      simp only [ascending, weaker, Bool.and_eq_true, decide_eq_true_eq] at h
      have hr := ih h.2
      refine .cons (fun c hc => ?_) hr
      rcases List.mem_cons.1 hc with rfl | hc
      · exact h.1
      · exact Int.le_trans h.1 (List.rel_of_pairwise_cons hr hc)

theorem table_eq_mergeSort (levels : List PowerLevel) : table levels = levels.mergeSort weaker := by
  unfold table
  split
  · next h =>
    refine (List.mergeSort_of_pairwise ?_).symm
    exact (pairwise_of_ascending h).imp fun h => by simpa [weaker] using h
  · rfl

theorem weaker_trans (a b c : PowerLevel) (hab : weaker a b) (hbc : weaker b c) : weaker a c := by
  simp only [weaker, decide_eq_true_eq] at *
  omega

theorem weaker_total (a b : PowerLevel) : weaker a b || weaker b a := by
  simp only [weaker, Bool.or_eq_true, decide_eq_true_eq]
  omega

theorem pairwise_table (levels : List PowerLevel) :
    (table levels).Pairwise fun a b => a.value.toInt ≤ b.value.toInt := by
  rw [table_eq_mergeSort]
  exact (List.pairwise_mergeSort weaker_trans weaker_total levels).imp fun h => by
    simpa [weaker] using h

theorem perm_table (levels : List PowerLevel) : (table levels).Perm levels := by
  rw [table_eq_mergeSort]
  exact List.mergeSort_perm levels weaker

/-- The level for a ceiling, in a table in ascending order. Of levels exactly at the ceiling the
first is taken, of levels below it the last. -/
def atMost (ceiling : Int16) (levels : List PowerLevel) (nonempty : levels ≠ []) : PowerLevel :=
  let below := levels.takeWhile fun l => l.value.toInt < ceiling.toInt
  let rest := levels.dropWhile fun l => l.value.toInt < ceiling.toInt
  match rest.find? fun l => l.value = ceiling with
  | some exact => exact
  | none => below.getLast?.getD (levels.head nonempty)

end PowerLevel

end TagGateway
