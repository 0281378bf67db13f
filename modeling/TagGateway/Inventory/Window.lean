/-!
A window of the last samples, kept as a ring: once it is full the oldest sample gives its place to
the newest. The sum is kept up to date with each sample, so that the mean costs one division.
Main statement: a sample joins at the end of the list, and from a full window the first one goes.
-/

set_option autoImplicit false

namespace TagGateway

/-- Numbers for signal strengths, in dBm. -/
class Level (R : Type) extends Add R, Sub R, Mul R, Div R where
  ofInt : Int → R
  lt : R → R → Bool
  le : R → R → Bool
  isFinite : R → Bool

instance : Level Float where
  ofInt := Float.ofInt
  lt a b := a < b
  le a b := a ≤ b
  isFinite := Float.isFinite

def Level.ratio {R : Type} [Level R] (numerator denominator : Int) : R :=
  Level.ofInt numerator / Level.ofInt denominator

structure Window (R : Type) where
  capacity : Nat
  /-- By place in the ring. -/
  values : List R
  length_le : values.length ≤ capacity
  next : Nat
  next_lt : next < capacity
  /-- Until the ring is full, places are taken in their order. -/
  next_eq : values.length < capacity → next = values.length
  sum : R

namespace Window

variable {R : Type}

def count (w : Window R) : Nat := w.values.length

def toList (w : Window R) : List R :=
  if w.values.length < w.capacity then w.values
  else w.values.drop w.next ++ w.values.take w.next

@[simp] theorem length_toList (w : Window R) : w.toList.length = w.count := by
  unfold toList count
  split
  · rfl
  · simp; omega

/-- In a full ring the sample at the next place is the oldest. -/
theorem rotate_set (values : List R) (next : Nat) (x : R) (h : next < values.length) :
    (values.set next x).drop ((next + 1) % values.length)
        ++ (values.set next x).take ((next + 1) % values.length)
      = (values.drop next ++ values.take next).drop 1 ++ [x] := by
  obtain ⟨a, y, b, rfl, rfl⟩ : ∃ a y b, values = a ++ y :: b ∧ next = a.length :=
    ⟨values.take next, values[next], values.drop (next + 1), by simp, by simp; omega⟩
  cases b with
  | nil => simp [Nat.mod_self]
  | cons z b =>
    have hmod : (a.length + 1) % (a ++ y :: z :: b).length = a.length + 1 :=
      Nat.mod_eq_of_lt (by simp)
    rw [hmod]
    simp [List.drop_append, List.take_append, List.drop_of_length_le, List.take_of_length_le]

variable [Level R]

def empty (capacity : Nat) (h : 0 < capacity) : Window R :=
  { capacity, values := [], length_le := Nat.zero_le _, next := 0, next_lt := h
    next_eq := fun _ => rfl
    sum := Level.ofInt 0 }

def add (w : Window R) (x : R) : Window R :=
  have next_lt : (w.next + 1) % w.capacity < w.capacity :=
    Nat.mod_lt _ (Nat.lt_of_le_of_lt (Nat.zero_le _) w.next_lt)
  if h : w.values.length < w.capacity then
    { w with
      values := w.values ++ [x]
      length_le := by
        rw [List.length_append]
        exact h
      next := (w.next + 1) % w.capacity
      next_lt
      next_eq := fun room => by
        rw [List.length_append] at room
        rw [List.length_append, w.next_eq h]
        exact Nat.mod_eq_of_lt room
      sum := w.sum + x }
  else
    have inside : w.next < w.values.length := Nat.lt_of_lt_of_le w.next_lt (Nat.le_of_not_lt h)
    { w with
      values := w.values.set w.next x
      length_le := by
        rw [List.length_set]
        exact w.length_le
      next := (w.next + 1) % w.capacity
      next_lt
      next_eq := fun room => by
        rw [List.length_set] at room
        exact absurd room h
      sum := w.sum - w.values[w.next] + x }

def clear (w : Window R) : Window R :=
  { w with
    values := [], length_le := Nat.zero_le _, next := 0
    next_lt := Nat.lt_of_le_of_lt (Nat.zero_le _) w.next_lt
    next_eq := fun _ => rfl
    sum := Level.ofInt 0 }

def mean? (w : Window R) : Option R :=
  if w.values.isEmpty then none else some (w.sum / Level.ofInt w.values.length)

@[simp] theorem capacity_add (w : Window R) (x : R) : (w.add x).capacity = w.capacity := by
  unfold add
  split <;> rfl

section Fields

variable (w : Window R) (capacity : Nat) (h : 0 < capacity)

@[simp] theorem count_empty : (empty capacity h : Window R).count = 0 := rfl

@[simp] theorem toList_empty : (empty capacity h : Window R).toList = [] := by
  simp [toList, empty]

@[simp] theorem sum_empty : (empty capacity h : Window R).sum = Level.ofInt 0 := rfl

@[simp] theorem count_clear : w.clear.count = 0 := rfl

@[simp] theorem toList_clear : w.clear.toList = [] := by
  simp [toList, clear]

@[simp] theorem sum_clear : w.clear.sum = Level.ofInt 0 := rfl

end Fields

@[simp] theorem count_add (w : Window R) (x : R) :
    (w.add x).count = min (w.count + 1) w.capacity := by
  have := w.length_le
  unfold add count
  split <;> simp <;> omega

theorem mean?_eq_none_iff (w : Window R) : w.mean? = none ↔ w.count = 0 := by
  simp [mean?, count]

theorem toList_add (w : Window R) (x : R) :
    (w.add x).toList
      = if w.count < w.capacity then w.toList ++ [x] else w.toList.drop 1 ++ [x] := by
  have hle := w.length_le
  by_cases h : w.values.length < w.capacity
  · have hl : w.toList = w.values := by simp [toList, h]
    rw [hl, if_pos (show w.count < w.capacity from h)]
    by_cases hf : w.values.length + 1 < w.capacity
    · simp [add, toList, h, hf]
    · have hn : (w.next + 1) % w.capacity = 0 := by
        rw [w.next_eq h, show w.capacity = w.values.length + 1 by omega, Nat.mod_self]
      simp [add, toList, h, hf, hn]
  · have hc : w.values.length = w.capacity := by omega
    have hr := rotate_set w.values w.next x (by rw [hc]; exact w.next_lt)
    rw [hc] at hr
    simpa [add, toList, count, h] using hr

end Window

end TagGateway
