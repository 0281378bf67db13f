import Std.Data.TreeMap

set_option autoImplicit false

namespace TagGateway

theorem filter_key_eq_find? {K V : Type} [DecidableEq K] {pairs : List (K × V)}
    (distinct : pairs.Pairwise fun a b => a.1 ≠ b.1) (k : K) :
    pairs.filter (·.1 = k) = (pairs.find? (·.1 = k)).toList := by
  induction pairs with
  | nil => rfl
  | cons p rest ih =>
    obtain ⟨hhead, htail⟩ := List.pairwise_cons.1 distinct
    by_cases hp : p.1 = k
    · have hrest : rest.filter (·.1 = k) = [] := by
        refine List.filter_eq_nil_iff.2 fun q hq => ?_
        have := hhead q hq
        simp only [decide_eq_true_eq]
        exact fun h => this (hp.trans h.symm)
      simp [hp, hrest]
    · simp [hp, ih htail]

theorem filter_toList_key {V : Type} (m : Std.TreeMap String V) (k : String) :
    m.toList.filter (·.1 = k) = (m[k]?.map fun v => (k, v)).toList := by
  have distinct : m.toList.Pairwise fun a b => a.1 ≠ b.1 :=
    m.distinct_keys_toList.imp fun h heq => h (Std.compare_eq_iff_eq.2 heq)
  rw [filter_key_eq_find? distinct]
  congr 1
  cases h : m.toList.find? (·.1 = k) with
  | none =>
    cases hk : m[k]? with
    | none => rfl
    | some v =>
      have := List.find?_eq_none.1 h (k, v) (Std.TreeMap.mem_toList_iff_getElem?_eq_some.2 hk)
      simp at this
  | some p =>
    have hp := Std.TreeMap.mem_toList_iff_getElem?_eq_some.1 (List.mem_of_find?_eq_some h)
    obtain rfl : p.1 = k := by simpa using List.find?_some h
    simp [hp]

theorem find?_reverse_toList {V : Type} (m : Std.TreeMap String V) (k : String) :
    m.toList.reverse.find? (·.1 = k) = m[k]?.map fun v => (k, v) := by
  rw [← List.head?_filter, List.filter_reverse, filter_toList_key]
  cases m[k]? <;> rfl

theorem getElem?_foldl_insert {V W : Type} (key : V → String) (f : V → W) (items : List V)
    (m : Std.TreeMap String W) (k : String) :
    (items.foldl (fun m v => m.insert (key v) (f v)) m)[k]?
      = ((items.reverse.find? (key · = k)).map f).or m[k]? := by
  induction items generalizing m with
  | nil => rfl
  | cons v rest ih =>
    rw [List.foldl_cons, ih, List.reverse_cons, List.find?_append]
    cases rest.reverse.find? (key · = k) with
    | some w => rfl
    | none => by_cases hv : key v = k <;> simp [Std.TreeMap.getElem?_insert, hv]

theorem size_filter_add {V : Type} (m : Std.TreeMap String V) (p : V → Bool) :
    (m.filter fun _ v => p v).size + (m.filter fun _ v => !p v).size = m.size := by
  have hsplit := List.length_eq_countP_add_countP (fun e : String × V => p e.2) (l := m.toList)
  simp only [← Std.TreeMap.length_toList, Std.TreeMap.toList_filter,
    ← List.countP_eq_length_filter]
  simpa using hsplit.symm

theorem impl_map_map {K : Type} [Ord K] {V W X : K → Type} (m : Std.DTreeMap.Internal.Impl K V)
    (f : (k : K) → V k → W k) (g : (k : K) → W k → X k) :
    (m.map f).map g = m.map fun k v => g k (f k v) := by
  induction m with
  | leaf => rfl
  | inner size k v left right ihl ihr => simp [Std.DTreeMap.Internal.Impl.map, ihl, ihr]

theorem map_map {V W X : Type} (m : Std.TreeMap String V) (f : String → V → W)
    (g : String → W → X) : (m.map f).map g = m.map fun k v => g k (f k v) := by
  obtain ⟨⟨t, h⟩⟩ := m
  simp only [Std.TreeMap.map, Std.DTreeMap.map, impl_map_map]

theorem impl_map_congr {K : Type} [Ord K] {V W : K → Type} {m : Std.DTreeMap.Internal.Impl K V}
    {f g : (k : K) → V k → W k} (h : ∀ e ∈ m.toListModel, f e.1 e.2 = g e.1 e.2) :
    m.map f = m.map g := by
  induction m with
  | leaf => rfl
  | inner size k v left right ihl ihr =>
    simp only [Std.DTreeMap.Internal.Impl.toListModel_inner, List.mem_append, List.mem_cons] at h
    have hl := ihl fun e he => h e (.inl he)
    have hr := ihr fun e he => h e (.inr (.inr he))
    have hv := h ⟨k, v⟩ (.inr (.inl rfl))
    simp_all [Std.DTreeMap.Internal.Impl.map]

theorem map_congr {V W : Type} {m : Std.TreeMap String V} {f g : String → V → W}
    (h : ∀ (k : String) (v : V), m[k]? = some v → f k v = g k v) : m.map f = m.map g := by
  have hmem : ∀ e ∈ m.inner.inner.toListModel, f e.1 e.2 = g e.1 e.2 := by
    intro e he
    refine h e.1 e.2 (Std.TreeMap.mem_toList_iff_getElem?_eq_some.1 ?_)
    change (e.1, e.2) ∈ Std.DTreeMap.Internal.Impl.Const.toList m.inner.inner
    rw [Std.DTreeMap.Internal.Impl.Const.toList_eq_toListModel_map]
    exact List.mem_map_of_mem he
  obtain ⟨⟨t, ht⟩⟩ := m
  simp only [Std.TreeMap.map, Std.DTreeMap.map, impl_map_congr hmem]

theorem eq_empty_of_isEmpty {V : Type} {m : Std.TreeMap String V} (h : m.isEmpty) : m = ∅ := by
  obtain ⟨⟨t, ht⟩⟩ := m
  cases t with
  | leaf => rfl
  | inner size k v left right =>
    simp [Std.TreeMap.isEmpty, Std.DTreeMap.isEmpty, Std.DTreeMap.Internal.Impl.isEmpty] at h

theorem filterMap_toList_congr {V W X : Type} {m : Std.TreeMap String V}
    {m' : Std.TreeMap String W} {f : V → Option X} {g : W → Option X}
    (h : ∀ k : String, m[k]?.bind f = m'[k]?.bind g) :
    m.toList.filterMap (f ·.2) = m'.toList.filterMap (g ·.2) := by
  have hequiv : (m.filterMap fun _ v => f v).Equiv (m'.filterMap fun _ v => g v) :=
    .of_forall_constGet?_eq fun k => by simpa using h k
  have hlist := congrArg (List.map Prod.snd) hequiv.toList_eq
  simpa [Std.TreeMap.toList_filterMap, Function.comp_def, List.map_filterMap] using hlist

theorem map_toList_congr {V W X : Type} {m : Std.TreeMap String V} {m' : Std.TreeMap String W}
    {f : V → X} {g : W → X} (h : ∀ k : String, m[k]?.map f = m'[k]?.map g) :
    m.toList.map (f ·.2) = m'.toList.map (g ·.2) := by
  have hsome := filterMap_toList_congr (f := some ∘ f) (g := some ∘ g) fun k => by
    simpa [Option.map_eq_bind] using h k
  simpa [← List.filterMap_eq_map'] using hsome

end TagGateway
