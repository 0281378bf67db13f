import TagGateway.Proofs.Inventory.Noninterference
import TagGateway.Proofs.Inventory.Ring

/-!
The windows of an inventory, in exact arithmetic. Main statement: whatever reports, sweeps and
restores lead to an inventory, the running sum of each window in it is the sum of its samples, so
that the mean is their average.
-/

set_option autoImplicit false

namespace TagGateway

theorem sampleCapacity_pos : 0 < sampleCapacity := by decide

namespace Window

structure Invariant {R : Type} [Level R] (P : Window R → Prop) : Prop where
  empty : P (.empty sampleCapacity sampleCapacity_pos)
  add : ∀ (w : Window R) (x : R), P w → P (w.add x)

theorem invariant_summed : Invariant Summed where
  empty := summed_empty sampleCapacity sampleCapacity_pos
  add _ x h := h.add x

end Window

variable {R : Type} [Level R] {P : Window R → Prop}

def Tag.Windows (t : Tag R) (P : Window R → Prop) : Prop :=
  ∀ (place : String) (p : PlaceStats R), t.stats[place]? = some p → P p.samples

def Inventory.Windows (inv : Inventory R) (P : Window R → Prop) : Prop :=
  ∀ (epc : String) (t : Tag R), inv.tags[epc]? = some t → t.Windows P

theorem PlaceStats.window_update (hP : Window.Invariant P) {p : PlaceStats R} (h : P p.samples)
    (strength : Option R) (time : Int64) : P (p.update strength time).samples := by
  cases strength with
  | none => exact h
  | some x => exact hP.add p.samples x h

theorem PlaceStats.window_ofRecord (hP : Window.Invariant P) (p : PlaceRecord R) :
    P (ofRecord p).samples := by
  unfold ofRecord
  split
  · split
    · exact hP.add _ _ hP.empty
    · exact hP.empty
  · exact hP.empty

namespace Tag

variable {t : Tag R}

omit [Level R] in
theorem windows_of_isEmpty (h : t.stats.isEmpty) : t.Windows P := by
  intro place p hp
  rw [Std.TreeMap.getElem?_of_isEmpty h] at hp
  cases hp

theorem Windows.record (hP : Window.Invariant P) (h : t.Windows P) (place : String)
    (s : Sighting R) : (t.record place s).Windows P := by
  intro other p hp
  rw [getElem?_record] at hp
  split at hp
  · obtain rfl := Option.some.inj hp
    refine PlaceStats.window_update hP ?_ s.strength s.time
    rw [Std.TreeMap.getD_eq_getD_getElem?]
    cases hold : t.stats[place]? with
    | none => exact hP.empty
    | some q => exact h place q hold
  · exact h other p hp

omit [Level R] in
theorem stats_settle (t : Tag R) (location : String) : (t.settle location).1.stats = t.stats := by
  unfold settle
  split <;> rfl

theorem Windows.sight (hP : Window.Invariant P) (h : t.Windows P) (m : Mobility R)
    (s : Sighting R) : (t.sight m s).1.Windows P := by
  have hobserve : (t.observe s).Windows P := h
  unfold Tag.sight
  split
  · exact hobserve
  · next place hplace =>
    have hrecord := hobserve.record hP place s
    dsimp only
    split
    · exact hrecord
    · next assign _ =>
      dsimp only
      unfold Windows
      rw [stats_settle]
      exact hrecord

theorem windows_ofRecord (hP : Window.Invariant P) (r : TagRecord R) :
    (ofRecord r).Windows P := by
  intro place p hp
  obtain ⟨q, -, rfl⟩ := Option.map_eq_some_iff.1 (by simpa [ofRecord] using hp)
  exact PlaceStats.window_ofRecord hP q

end Tag

namespace Inventory

variable {inv next : Inventory R}

omit [Level R] in
theorem Windows.tag (h : inv.Windows P) (epc : String) : (inv.tag epc).Windows P := by
  cases hold : inv.tags[epc]? with
  | none =>
    rw [tag_of_none hold]
    exact Tag.windows_of_isEmpty rfl
  | some t =>
    rw [tag_of_getElem? hold]
    exact h epc t hold

theorem Windows.sightAll (hP : Window.Invariant P) (h : inv.Windows P)
    (sightings : List (Sighting R)) : (inv.sightAll sightings).1.Windows P := by
  refine sightAll_keeps (P := fun next => next.Windows P) (fun s _ inv h epc t ht => ?_) h
  rw [sight_tags] at ht
  split at ht
  · obtain rfl := Option.some.inj ht
    exact (h.tag s.epc).sight hP _ s
  · exact h epc t ht

/-- What an action makes of the records: it takes readings, or each record that is there afterwards
was there before, and its tag has departed at most. -/
theorem act_cases {a : InventoryAction R} {events : List Event}
    (h : inv.act a = .ok (next, events)) :
    (∃ sightings, next = (inv.sightAll sightings).1)
      ∨ ∀ (epc : String) (u : Tag R), next.tags[epc]? = some u →
        ∃ t, inv.tags[epc]? = some t ∧ (u = t ∨ ∃ now, u = t.depart now) := by
  cases a with
  | report device origin batch =>
    have hr : inv.sightAll _ = (next, .ok events) := report_of_act h
    exact .inl ⟨_, by rw [hr]⟩
  | sweepDeparted now =>
    refine .inr fun epc u hu => ?_
    obtain ⟨records, hsweep⟩ := sweepDeparted_of_act h
    obtain ⟨expiry, -, -, -, hview⟩ := view_of_sweepDeparted hsweep
    rw [hview] at hu
    obtain ⟨t, ht, rfl⟩ := Option.map_eq_some_iff.1 hu
    refine ⟨t, ht, ?_⟩
    split
    · exact .inr ⟨now, rfl⟩
    · exact .inl rfl
  | ageOut now =>
    refine .inr fun epc u hu => ?_
    obtain ⟨-, count, records, hsweep⟩ := ageOut_of_act h
    obtain ⟨expiry, -, -, hview⟩ := view_of_ageOut hsweep
    rw [hview] at hu
    exact ⟨u, (Option.filter_eq_some_iff.1 hu).1, .inl rfl⟩
  | updateConfig config =>
    refine .inr fun epc u hu => ⟨u, ?_, .inl rfl⟩
    obtain ⟨-, rfl⟩ := updateConfig_of_act h
    split at hu <;> exact hu

theorem Windows.act (hP : Window.Invariant P) (h : inv.Windows P) {a : InventoryAction R}
    {events : List Event} (hact : inv.act a = .ok (next, events)) : next.Windows P := by
  obtain ⟨sightings, rfl⟩ | hrecords := act_cases hact
  · exact h.sightAll hP sightings
  · intro epc u hu
    obtain ⟨t, ht, rfl | ⟨now, rfl⟩⟩ := hrecords epc u hu
    · exact h epc u ht
    · exact Tag.windows_of_isEmpty rfl

theorem Windows.restore (hP : Window.Invariant P) (h : inv.Windows P)
    (records : List (TagRecord R)) : (inv.restore records).Windows P := by
  intro epc t ht
  rw [restore_tags] at ht
  cases hfind : records.reverse.find? (·.epc = epc) with
  | none => exact h epc t (by simpa [hfind] using ht)
  | some r =>
    obtain rfl : Tag.ofRecord r = t := by simpa [hfind] using ht
    exact Tag.windows_ofRecord hP r

theorem Built.windows (hP : Window.Invariant P) (h : inv.Built) : inv.Windows P := by
  induction h with
  | new config => exact fun epc t ht => by simp at ht
  | act before step ih => exact ih.act hP step
  | report before device origin batch ih => exact ih.sightAll hP _
  | restore before records ih => exact ih.restore hP records

end Inventory

end TagGateway
