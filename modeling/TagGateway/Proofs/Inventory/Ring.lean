import Mathlib.Algebra.BigOperators.Group.List.Basic
import Mathlib.Algebra.Field.Rat
import Mathlib.Data.List.DropRight
import Mathlib.Data.List.Rotate
import Mathlib.Tactic.NormNum
import Mathlib.Tactic.Ring
import TagGateway.Inventory.Window

set_option autoImplicit false

namespace TagGateway

def Level.Exact (R : Type) [Level R] : Prop := ∀ x : R, (ofInt 0 + x) / ofInt 1 = x

instance : Level ℚ where
  ofInt n := n
  lt a b := a < b
  le a b := a ≤ b
  isFinite _ := true

theorem Level.exact_rat : Level.Exact ℚ := by
  intro x
  change ((0 : ℤ) + x) / ((1 : ℤ) : ℚ) = x
  simp

theorem Window.mean?_single {R : Type} [Level R] (exact : Level.Exact R) {capacity : Nat}
    (h : 0 < capacity) (x : R) : ((empty capacity h).add x).mean? = some x := by
  simp [mean?, add, empty, h, exact x]

theorem rtake_concat {α : Type} (l : List α) (x : α) {capacity : Nat} (h : 0 < capacity) :
    (l ++ [x]).rtake capacity
      = (if min l.length capacity < capacity then l.rtake capacity
          else (l.rtake capacity).drop 1) ++ [x] := by
  unfold List.rtake
  split
  · have hnone : l.length - capacity = 0 := by omega
    have hall : (l ++ [x]).length - capacity = 0 := by
      rw [List.length_append, List.length_singleton]
      omega
    rw [hnone, hall, List.drop_zero, List.drop_zero]
  · have hlength : (l ++ [x]).length - capacity = l.length - capacity + 1 := by
      rw [List.length_append, List.length_singleton]
      omega
    rw [hlength, List.drop_append_of_le_length (by omega), List.drop_drop]

namespace Window

def Summed (w : Window ℚ) : Prop := w.sum = w.toList.sum

theorem summed_empty (capacity : Nat) (h : 0 < capacity) :
    (empty capacity h : Window ℚ).Summed := by
  simp [Summed, Level.ofInt]

theorem next_lt_length {R : Type} (w : Window R) (full : ¬w.values.length < w.capacity) :
    w.next < w.values.length :=
  Nat.lt_of_lt_of_le w.next_lt (Nat.le_of_not_lt full)

/-- The oldest sample of a full window is the one that the next sample replaces. -/
theorem toList_of_full {R : Type} (w : Window R) (h : w.next < w.values.length)
    (full : ¬w.values.length < w.capacity) : w.toList = w.values[w.next] :: w.toList.drop 1 := by
  rw [toList, if_neg full, List.drop_eq_getElem_cons h]
  rfl

theorem Summed.add {w : Window ℚ} (h : w.Summed) (x : ℚ) : (w.add x).Summed := by
  unfold Summed at *
  rw [toList_add]
  by_cases room : w.values.length < w.capacity
  · rw [if_pos (show w.count < w.capacity from room), List.sum_append, List.sum_singleton, ← h]
    simp only [Window.add, room, dite_true]
  · have inside : w.next < w.values.length := w.next_lt_length room
    have hsum := congrArg List.sum (w.toList_of_full inside room)
    rw [List.sum_cons, ← h] at hsum
    rw [if_neg (show ¬w.count < w.capacity from room), List.sum_append, List.sum_singleton]
    simp only [Window.add, room, dite_false]
    change w.sum - w.values[w.next] + x = _
    rw [hsum]
    ring

def average (samples : List ℚ) : ℚ := samples.sum / samples.length

theorem Summed.mean? {w : Window ℚ} (h : w.Summed) (hne : w.toList ≠ []) :
    w.mean? = some (average w.toList) := by
  have hlength : w.toList.length = w.values.length := w.length_toList
  have hsome : ¬w.values.isEmpty := by
    rw [List.isEmpty_iff_length_eq_zero, ← hlength, List.length_eq_zero_iff]
    exact hne
  rw [Window.mean?, if_neg hsome, average, hlength, ← h]
  rfl

section Runs

variable {R : Type}

inductive Step (R : Type) where
  | add (x : R)
  | clear

def Step.sample? : Step R → Option R
  | add x => some x
  | clear => none

/-- The samples that were added since the window was cleared last, in their order. -/
def sinceClear (steps : List (Step R)) : List R :=
  (steps.rtakeWhile (·.sample?.isSome)).filterMap Step.sample?

theorem sinceClear_add (steps : List (Step R)) (x : R) :
    sinceClear (steps ++ [.add x]) = sinceClear steps ++ [x] := by
  rw [sinceClear, List.rtakeWhile_concat_pos _ _ _ rfl, List.filterMap_append]
  rfl

theorem sinceClear_clear (steps : List (Step R)) : sinceClear (steps ++ [.clear]) = [] := by
  rw [sinceClear, List.rtakeWhile_concat_neg _ _ _ (by simp [Step.sample?])]
  rfl

variable [Level R]

def step (w : Window R) : Step R → Window R
  | .add x => w.add x
  | .clear => w.clear

def run (w : Window R) (steps : List (Step R)) : Window R := steps.foldl step w

theorem run_concat (w : Window R) (steps : List (Step R)) (s : Step R) :
    w.run (steps ++ [s]) = (w.run steps).step s := by
  rw [run, List.foldl_append]
  rfl

omit [Level R] in
theorem rotate_values (w : Window R) :
    w.values.rotate (if w.count < w.capacity then 0 else w.next) = w.toList := by
  unfold toList count
  split
  · exact List.rotate_zero _
  · next full => exact List.rotate_eq_drop_append_take (Nat.le_of_lt (w.next_lt_length full))

theorem next_add (w : Window R) (x : R) : (w.add x).next = (w.next + 1) % w.capacity := by
  unfold add
  split <;> rfl

/-- What the ring of a window is to be after some samples. The place that a sample is written to in
a full ring is one that there is. -/
structure Slides (w : Window R) (capacity : Nat) (added : List R) : Prop where
  capacity_eq : w.capacity = capacity
  count_eq : w.count = min added.length capacity
  next_eq : w.next = added.length % capacity
  inside : ¬w.count < w.capacity → w.next < w.values.length
  ring : w.values.rotate (if w.count < w.capacity then 0 else w.next) = added.rtake capacity

theorem slides_empty (capacity : Nat) (h : 0 < capacity) :
    (empty capacity h : Window R).Slides capacity [] where
  capacity_eq := rfl
  count_eq := by simp
  next_eq := (Nat.zero_mod capacity).symm
  inside := next_lt_length _
  ring := by
    rw [rotate_values]
    simp [List.rtake]

variable {w : Window R} {capacity : Nat} {added : List R}

theorem Slides.add (h : w.Slides capacity added) (positive : 0 < capacity) (x : R) :
    (w.add x).Slides capacity (added ++ [x]) where
  capacity_eq := (capacity_add w x).trans h.capacity_eq
  count_eq := by
    rw [count_add, h.count_eq, h.capacity_eq, List.length_append, List.length_singleton]
    omega
  next_eq := by
    rw [next_add, h.next_eq, h.capacity_eq, Nat.mod_add_mod, List.length_append,
      List.length_singleton]
  inside := next_lt_length _
  ring := by
    have hring := h.ring
    rw [rotate_values] at hring
    rw [rotate_values, toList_add, hring, h.count_eq, h.capacity_eq, rtake_concat _ _ positive]
    split <;> rfl

theorem Slides.clear (h : w.Slides capacity added) : w.clear.Slides capacity [] where
  capacity_eq := h.capacity_eq
  count_eq := by simp
  next_eq := (Nat.zero_mod capacity).symm
  inside := next_lt_length _
  ring := by
    rw [rotate_values]
    simp [List.rtake]

theorem slides_run (positive : 0 < capacity) (steps : List (Step R)) :
    ((empty capacity positive).run steps).Slides capacity (sinceClear steps) := by
  induction steps using List.reverseRecOn with
  | nil => exact slides_empty capacity positive
  | append_singleton steps s ih =>
    rw [run_concat]
    cases s with
    | add x =>
      rw [sinceClear_add]
      exact ih.add positive x
    | clear =>
      rw [sinceClear_clear]
      exact ih.clear

end Runs

theorem summed_run {capacity : Nat} (positive : 0 < capacity) (steps : List (Step ℚ)) :
    ((empty capacity positive).run steps).Summed := by
  induction steps using List.reverseRecOn with
  | nil => exact summed_empty capacity positive
  | append_singleton steps s ih =>
    rw [run_concat]
    cases s with
    | add x => exact ih.add x
    | clear => simp [Summed, step, Level.ofInt]

/-- Whatever samples are added to a window, and however often it is cleared, read around the ring it
has the last samples since then, as many as there is room for; their number and the place of the
next follow from how many were added, and a sample is only written over another one. In exact
arithmetic the sum is theirs, so that the mean, if there are any, is their average. -/
theorem slides_since_clear (capacity : Nat) (positive : 0 < capacity) :
    (∀ (R : Type) [Level R] (steps : List (Step R)),
      ((empty capacity positive).run steps).Slides capacity (sinceClear steps))
    ∧ ∀ steps : List (Step ℚ),
      ((empty capacity positive).run steps).sum = ((sinceClear steps).rtake capacity).sum
      ∧ ((empty capacity positive).run steps).mean?
        = if sinceClear steps = [] then none
          else some (average ((sinceClear steps).rtake capacity)) := by
  refine ⟨fun R _ steps => slides_run positive steps, fun steps => ?_⟩
  have hslides := slides_run positive steps
  have hsummed := summed_run positive steps
  generalize (empty capacity positive).run steps = w at hslides hsummed ⊢
  have hlist : w.toList = (sinceClear steps).rtake capacity :=
    w.rotate_values.symm.trans hslides.ring
  refine ⟨hlist ▸ hsummed, ?_⟩
  split
  · next hnone =>
    rw [mean?_eq_none_iff, hslides.count_eq, hnone]
    exact Nat.zero_min capacity
  · next hsome =>
    have hcount : w.toList.length = w.count := w.length_toList
    have hlength : 0 < (sinceClear steps).length := List.length_pos_iff.2 hsome
    rw [← hlist]
    refine hsummed.mean? fun hnil => ?_
    rw [hnil, hslides.count_eq, List.length_nil] at hcount
    omega

/-- Four samples after a clearing, in a ring of three: the last one is where the first was. -/
theorem slides_since_clear_over :
    let steps : List (Step ℚ) := [.add 7, .clear, .add 1, .add 2, .add 3, .add 10]
    let w := (empty 3 (by decide)).run steps
    w.values = [10, 2, 3] ∧ w.next = 1 ∧ w.values.rotate w.next = [2, 3, 10]
      ∧ w.sum = 15 ∧ w.mean? = some 5 := by
  intro steps w
  obtain ⟨hslides, hexact⟩ := slides_since_clear 3 (by decide)
  obtain ⟨hsum, hmean⟩ := hexact steps
  have hsince : sinceClear steps = [1, 2, 3, 10] := rfl
  have hlast : (sinceClear steps).rtake 3 = [2, 3, 10] := rfl
  have hnext : w.next = (sinceClear steps).length % 3 := (hslides ℚ steps).next_eq
  have hring : w.values.rotate w.next = (sinceClear steps).rtake 3 := (hslides ℚ steps).ring
  refine ⟨rfl, by rw [hnext, hsince]; rfl, hring.trans hlast, ?_, ?_⟩
  · rw [hsum, hlast]
    norm_num
  · rw [hmean, hlast, if_neg (show sinceClear steps ≠ [] from nofun)]
    norm_num [average]

end Window

end TagGateway
