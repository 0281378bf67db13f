import Mathlib.Data.List.Basic
import TagGateway.Proofs.Inventory.History

set_option autoImplicit false

namespace TagGateway

variable {R : Type} [Level R]

namespace PlaceStats

theorem lastRead_ofRecord (p : PlaceRecord R) : (ofRecord p).lastRead = p.lastRead := by
  unfold ofRecord
  split
  · split <;> rfl
  · rfl

theorem capacity_ofRecord (p : PlaceRecord R) :
    (ofRecord p).samples.capacity = sampleCapacity := by
  unfold ofRecord
  split
  · split
    · exact Window.capacity_add ..
    · rfl
  · rfl

end PlaceStats

/-- Whether a record tells all of a tag but its samples. -/
structure TagRecord.Recalls (r : TagRecord R) (t : Tag R) : Prop where
  epc : r.epc = t.epc
  tid : r.tid = t.tid
  location : r.location = t.location
  lastRead : r.lastRead = t.lastRead
  lastArrived : r.lastArrived = t.lastArrived
  lastDeparted : r.lastDeparted = t.lastDeparted
  state : r.state = t.state
  stats : ∀ place : String,
    r.stats[place]?.map PlaceRecord.lastRead = t.stats[place]?.map PlaceStats.lastRead

theorem Tag.recalls_snapshot (t : Tag R) : t.snapshot.Recalls t where
  epc := rfl
  tid := rfl
  location := rfl
  lastRead := rfl
  lastArrived := rfl
  lastDeparted := rfl
  state := rfl
  stats place := by simp [Function.comp_def]

namespace TagRecord.Recalls

variable {r : TagRecord R} {t : Tag R}

omit [Level R] in
theorem mem_stats_iff (h : r.Recalls t) (place : String) : place ∈ r.stats ↔ place ∈ t.stats := by
  have hplace := congrArg Option.isSome (h.stats place)
  rw [Option.isSome_map, Option.isSome_map] at hplace
  rw [Std.TreeMap.mem_iff_isSome_getElem?, Std.TreeMap.mem_iff_isSome_getElem?, hplace]

omit [Level R] in
theorem isEmpty_stats (h : r.Recalls t) (hempty : t.stats.isEmpty) : r.stats.isEmpty := by
  refine Std.TreeMap.isEmpty_iff_forall_not_mem.2 fun place hmem => ?_
  exact Std.TreeMap.not_mem_of_isEmpty hempty ((h.mem_stats_iff place).1 hmem)

theorem sound (h : r.Recalls t) (ht : t.Sound) : (Tag.ofRecord r).Sound where
  nonneg := by simpa [h.lastRead] using ht.nonneg
  le := by simpa [h.lastRead] using ht.le
  arrived_le := by simpa [h.lastRead, h.lastArrived] using ht.arrived_le
  place_ne := by
    have hplace := h.stats ""
    rw [ht.place_ne] at hplace
    simpa using hplace
  stats place s hs := by
    obtain ⟨p, hp, rfl⟩ := Option.map_eq_some_iff.1 (by simpa using hs)
    have hplace := h.stats place
    rw [hp] at hplace
    obtain ⟨q, hq, hread⟩ := Option.map_eq_some_iff.1 hplace.symm
    have hold := ht.stats place q hq
    have hlast : (PlaceStats.ofRecord p).lastRead = q.lastRead :=
      (PlaceStats.lastRead_ofRecord p).trans hread.symm
    exact
      { nonneg := hlast ▸ hold.nonneg
        le := by simpa [hlast, h.lastRead] using hold.le
        capacity := PlaceStats.capacity_ofRecord p }
  unknown hstate := by
    obtain ⟨hloc, hstats, harrived, hdeparted⟩ := ht.unknown (h.state.symm.trans hstate)
    exact ⟨h.location.trans hloc, by simpa using h.isEmpty_stats hstats,
      h.lastArrived.trans harrived, h.lastDeparted.trans hdeparted⟩
  present hstate := by
    obtain ⟨hloc, hmem⟩ := ht.present (h.state.symm.trans hstate)
    refine ⟨by simpa [h.location] using hloc, ?_⟩
    simpa [h.location] using (h.mem_stats_iff t.location).2 hmem
  departed hstate := by
    obtain ⟨hloc, hstats, hlt⟩ := ht.departed (h.state.symm.trans hstate)
    refine ⟨by simpa [h.location] using hloc,
      by simpa using h.isEmpty_stats hstats, ?_⟩
    simpa [h.lastArrived, h.lastDeparted] using hlt

end TagRecord.Recalls

namespace Inventory

theorem restore_tags (inv : Inventory R) (records : List (TagRecord R)) (epc : String) :
    (inv.restore records).tags[epc]?
      = ((records.reverse.find? (·.epc = epc)).map Tag.ofRecord).or inv.tags[epc]? :=
  getElem?_foldl_insert ..

theorem restore_map_tags (inv : Inventory R) {source : Inventory R} {tell : Tag R → TagRecord R}
    (keyed : ∀ (epc : String) (t : Tag R), source.tags[epc]? = some t → (tell t).epc = epc)
    (epc : String) :
    (inv.restore (source.tags.toList.map (tell ·.2))).tags[epc]?
      = (source.tags[epc]?.map fun t => Tag.ofRecord (tell t)).or inv.tags[epc]? := by
  have hplaces : (inv.restore (source.tags.toList.map (tell ·.2))).tags
      = source.tags.toList.foldl (fun m pair => m.insert pair.1 (.ofRecord (tell pair.2)))
          inv.tags := by
    rw [restore, List.foldl_map]
    refine List.foldl_ext _ _ _ fun m pair hmem => ?_
    rw [keyed pair.1 pair.2 (Std.TreeMap.mem_toList_iff_getElem?_eq_some.1 hmem)]
  rw [hplaces, getElem?_foldl_insert, find?_reverse_toList, Option.map_map]
  rfl

theorem Sound.restore {inv : Inventory R} (hi : inv.Sound) {records : List (TagRecord R)}
    (h : ∀ r ∈ records, ∃ t : Tag R, t.Sound ∧ r.Recalls t) : (inv.restore records).Sound := by
  have hcases : ∀ (epc : String) (u : Tag R), (inv.restore records).tags[epc]? = some u →
      (∃ r ∈ records, r.epc = epc ∧ Tag.ofRecord r = u) ∨ inv.tags[epc]? = some u := by
    intro epc u hu
    rw [restore_tags] at hu
    cases hfind : records.reverse.find? (·.epc = epc) with
    | none => exact .inr (by simpa [hfind] using hu)
    | some r =>
      refine .inl ⟨r, List.mem_reverse.1 (List.mem_of_find?_eq_some hfind), ?_, ?_⟩
      · simpa using List.find?_some hfind
      · simpa [hfind] using hu
  constructor
  · intro epc u hu
    obtain ⟨r, -, hepc, rfl⟩ | hold := hcases epc u hu
    · exact hepc
    · exact hi.keyed epc u hold
  · intro epc u hu
    obtain ⟨r, hmem, -, rfl⟩ | hold := hcases epc u hu
    · obtain ⟨t, ht, hr⟩ := h r hmem
      exact hr.sound ht
    · exact hi.tags epc u hold

theorem Sound.recalled {inv : Inventory R} (hi : inv.Sound) :
    ∀ r ∈ inv.snapshot, ∃ t : Tag R, t.Sound ∧ r.Recalls t := by
  intro r hr
  obtain ⟨⟨epc, t⟩, hmem, rfl⟩ := List.mem_map.1 hr
  have ht := Std.TreeMap.mem_toList_iff_getElem?_eq_some.1 hmem
  exact ⟨t, hi.tags epc t ht, t.recalls_snapshot⟩

/-- The inventories that readings, sweeps, configurations and restores lead to from empty ones. A
restore takes the snapshot of any inventory of this kind. -/
inductive Reachable : Inventory R → Prop where
  | new (config : InventoryConfig R) : Reachable (.new config)
  | act {inv next : Inventory R} {a : InventoryAction R} {events : List Event}
    (before : Reachable inv) (timely : a.Timely) (step : inv.act a = .ok (next, events)) :
    Reachable next
  | restore {inv source : Inventory R} (before : Reachable inv) (taken : Reachable source) :
    Reachable (inv.restore source.snapshot)

theorem Reachable.sound {inv : Inventory R} (h : inv.Reachable) : inv.Sound := by
  induction h with
  | new config => exact sound_new config
  | act before timely step ih => exact ih.of_act timely step
  | restore before taken ih ihsource => exact ih.restore ihsource.recalled

/-- Every record of such an inventory is in good order: it is kept under its own EPC, its location
and its samples are those that its state allows, and its times are in their order. And nothing that
is done to such an inventory fails. -/
theorem records_of_reachable {inv : Inventory R} (h : inv.Reachable) :
    (∀ (epc : String) (t : Tag R), inv.tags[epc]? = some t →
      t.epc = epc
      ∧ (t.state = .unknown →
          t.location = "" ∧ t.stats.isEmpty ∧ t.lastArrived = 0 ∧ t.lastDeparted = 0)
      ∧ (t.state = .present → t.location ≠ "" ∧ t.location ∈ t.stats)
      ∧ (t.state = .departed →
          t.location ≠ "" ∧ t.stats.isEmpty ∧ t.lastArrived < t.lastDeparted)
      ∧ t.lastArrived ≤ t.lastRead
      ∧ "" ∉ t.stats
      ∧ ∀ (place : String) (s : PlaceStats R), t.stats[place]? = some s →
          0 ≤ s.lastRead ∧ s.lastRead ≤ t.lastRead ∧ s.samples.count ≤ 20)
    ∧ ∀ a : InventoryAction R, a.Timely →
        ∃ next events, inv.act a = .ok (next, events) ∧ next.Reachable := by
  have hi := h.sound
  refine ⟨fun epc t ht => ?_, fun a ha => ?_⟩
  · have hs := hi.tags epc t ht
    refine ⟨hi.keyed epc t ht, hs.unknown, hs.present, fun hstate => ?_, ?_, ?_, ?_⟩
    · obtain ⟨hloc, hstats, hlt⟩ := hs.departed hstate
      exact ⟨hloc, hstats, Int64.lt_iff_toInt_lt.2 hlt⟩
    · exact Int64.le_iff_toInt_le.2 hs.arrived_le
    · simp [Std.TreeMap.mem_iff_isSome_getElem?, hs.place_ne]
    · intro place s hplace
      have hstats := hs.stats place s hplace
      refine ⟨Int64.le_iff_toInt_le.2 hstats.nonneg, Int64.le_iff_toInt_le.2 hstats.le, ?_⟩
      have := s.samples.length_le
      rw [hstats.capacity] at this
      exact this
  · obtain ⟨next, events, hact, -⟩ := hi.act ha
    exact ⟨next, events, hact, h.act ha hact⟩

/-- A tag arrives, and another inventory takes it over. -/
theorem records_of_reachable_restart :
    let reading : Reading := { shortEpc := some ⟨⟨[1]⟩⟩, fields := { antenna := some 1 } }
    let first : Inventory Float := ((Inventory.new .default).report "dock" 0 [reading]).1
    let inv := (Inventory.new .default).restore first.snapshot
    inv.Reachable
      ∧ ∃ t, inv.tags["01"]? = some t ∧ t.state = .present ∧ t.location = "dock_1"
        ∧ t.location ∈ t.stats := by
  intro reading first inv
  have hstep : (Inventory.new .default).act (.report "dock" 0 [reading])
      = .ok (first, [.arrived "01" "" 0 "dock_1"]) := by rfl
  have hfirst : first.Reachable := .act (.new _) (by trivial) hstep
  have hinv : inv.Reachable := .restore (.new _) hfirst
  have hview : (inv.tags["01"]?.map fun t => (t.state, t.location))
      = some (.present, "dock_1") := by decide +kernel
  obtain ⟨t, ht, hpair⟩ := Option.map_eq_some_iff.1 hview
  obtain ⟨hstate, hlocation⟩ := Prod.mk.inj hpair
  obtain ⟨-, -, hpresent, -⟩ := (records_of_reachable hinv).1 "01" t ht
  exact ⟨hinv, t, ht, hstate, hlocation, (hpresent hstate).2⟩

end Inventory

end TagGateway
