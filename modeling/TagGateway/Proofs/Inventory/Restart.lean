import TagGateway.Proofs.Inventory.Ring
import TagGateway.Proofs.Inventory.LockStep
import TagGateway.Proofs.Inventory.Reachable

set_option autoImplicit false

namespace TagGateway

variable {R : Type}

/-- What a restart leaves of the samples of a location: their mean, as one sample. -/
def PlaceRecord.thinned (p : PlaceRecord R) : PlaceRecord R := { p with count := min p.count 1 }

def TagRecord.thinned (r : TagRecord R) : TagRecord R :=
  { r with stats := r.stats.map fun _ p => p.thinned }

variable [Level R]

theorem min_ofNat_one : ∀ n ≤ sampleCapacity, min (UInt64.ofNat n) 1 = UInt64.ofNat (min n 1) := by
  decide

theorem ofNat_pos : ∀ n ≤ sampleCapacity, n ≠ 0 → 0 < UInt64.ofNat n := by
  decide

theorem PlaceStats.record_ofRecord (exact : Level.Exact R) {s : PlaceStats R}
    (h : s.samples.capacity = sampleCapacity) : (ofRecord s.record).record = s.record.thinned := by
  have hle : s.samples.count ≤ sampleCapacity := h ▸ s.samples.length_le
  have hmin := min_ofNat_one _ hle
  cases hmean : s.samples.mean? with
  | none =>
    have hcount := (Window.mean?_eq_none_iff _).1 hmean
    simp only [record, PlaceRecord.thinned, PlaceStats.mean?, hmean, hcount, ofRecord]
    rfl
  | some mean =>
    have hcount : s.samples.count ≠ 0 := fun h0 => by
      rw [← Window.mean?_eq_none_iff, hmean] at h0
      cases h0
    have hpos := ofNat_pos _ hle hcount
    rw [show min s.samples.count 1 = 1 by omega] at hmin
    simp only [record, PlaceRecord.thinned, PlaceStats.mean?, hmean, hmin, ofRecord, hpos,
      if_true, empty, Window.mean?_single exact, Window.count_add]
    rfl

theorem Tag.Sound.snapshot_ofRecord (exact : Level.Exact R) {t : Tag R} (ht : t.Sound) :
    (Tag.ofRecord t.snapshot).snapshot = t.snapshot.thinned := by
  have hstats : ((t.stats.map fun _ s => s.record).map fun _ p =>
      (PlaceStats.ofRecord p).record) = (t.stats.map fun _ s => s.record).map fun _ p =>
        p.thinned := by
    rw [map_map, map_map]
    exact map_congr fun place s hs =>
      PlaceStats.record_ofRecord exact (ht.stats place s hs).capacity
  simp only [Tag.snapshot, Tag.ofRecord, TagRecord.thinned, map_map] at hstats ⊢
  rw [hstats]

namespace Inventory

theorem restore_snapshot_tags (inv : Inventory R) {source : Inventory R} (hs : source.Sound)
    (epc : String) :
    (inv.restore source.snapshot).tags[epc]?
      = (source.tags[epc]?.map fun t => Tag.ofRecord t.snapshot).or inv.tags[epc]? :=
  restore_map_tags inv (fun epc t ht => hs.keyed epc t ht) epc

def restarted (inv : Inventory R) : Inventory R := (Inventory.new inv.config).restore inv.snapshot

theorem restarted_tags {inv : Inventory R} (hi : inv.Sound) (epc : String) :
    inv.restarted.tags[epc]? = inv.tags[epc]?.map fun t => Tag.ofRecord t.snapshot := by
  rw [restarted, restore_snapshot_tags _ hi]
  cases inv.tags[epc]? <;> simp

theorem Sound.twin_restarted {inv : Inventory R} (hi : inv.Sound) : inv.Twin inv.restarted where
  config := rfl
  lifecycles epc := by
    rw [restarted_tags hi, Option.map_map]
    rfl
  left := hi
  right := (sound_new inv.config).restore hi.recalled

theorem Sound.snapshot_restarted (exact : Level.Exact R) {inv : Inventory R} (hi : inv.Sound) :
    inv.restarted.snapshot = inv.snapshot.map TagRecord.thinned := by
  have hviews : ∀ epc : String, inv.restarted.tags[epc]?.map Tag.snapshot
      = inv.tags[epc]?.map fun t => t.snapshot.thinned := by
    intro epc
    rw [restarted_tags hi]
    cases ht : inv.tags[epc]? with
    | none => rfl
    | some t => simp [(hi.tags epc t ht).snapshot_ofRecord exact]
  rw [snapshot, map_toList_congr hviews, snapshot, List.map_map]
  rfl

/-- A restart is seen in the number of samples and in nothing else: whatever is done after it, all
tags have the lifecycles that they would have had, with the same arrivals, departures and tags
forgotten. From its next arrival on a tag has the very record that it would have had. -/
theorem restart_transparent {inv : Inventory R} (h : inv.Reachable) :
    (Level.Exact R → inv.restarted.snapshot = inv.snapshot.map TagRecord.thinned)
    ∧ ∀ actions : List (InventoryAction R), (∀ a ∈ actions, a.Timely) →
      ∃ p q events events', inv.run actions = .ok (p, events)
        ∧ inv.restarted.run actions = .ok (q, events')
        ∧ p.LockStep q
        ∧ ∀ epc : String, (∃ e ∈ events, e.epc = epc ∧ e.isArrival) →
            p.tags[epc]? = q.tags[epc]? := by
  refine ⟨fun exact => h.sound.snapshot_restarted exact, fun actions timely => ?_⟩
  obtain ⟨p, q, events, events', hp, hq, htwin, hsame⟩ := h.sound.twin_restarted.run timely
  exact ⟨p, q, events, events', hp, hq, htwin.lockStep, fun epc harrival =>
    hsame epc (.inr harrival)⟩

/-- A tag heard twice at one place is taken over, departs, and comes back to another place. -/
theorem restart_transparent_return :
    let reading (antenna : UInt16) (dbm : Int8) : Reading :=
      { shortEpc := some ⟨⟨[1]⟩⟩, fields := { antenna := some antenna, peakRssi := some dbm } }
    let inv : Inventory ℚ :=
      ((Inventory.new .default).report "dock" 0 [reading 1 (-60), reading 1 (-70)]).1
    let actions : List (InventoryAction ℚ) :=
      [.sweepDeparted 1000000, .report "gate" 0 [reading 2 (-50)]]
    inv.Reachable
      ∧ inv.restarted.snapshot = inv.snapshot.map TagRecord.thinned
      ∧ ∃ p q events events', inv.run actions = .ok (p, events)
        ∧ inv.restarted.run actions = .ok (q, events')
        ∧ p.LockStep q ∧ p.tags["01"]? = q.tags["01"]? := by
  intro reading inv actions
  have hreport : (Inventory.new .default).report "dock" 0 [reading 1 (-60), reading 1 (-70)]
      = (inv, .ok [.arrived "01" "" 0 "dock_1"]) := Prod.ext rfl (by decide +kernel)
  have hstep : (Inventory.new .default).act (.report "dock" 0 [reading 1 (-60), reading 1 (-70)])
      = .ok (inv, [.arrived "01" "" 0 "dock_1"]) := by rw [Inventory.act, hreport]
  have hinv : inv.Reachable := .act (.new _) (by trivial) hstep
  have timely : ∀ a ∈ actions, a.Timely := by simp [actions]
  have hevents : (inv.run actions).map (·.2)
      = .ok [.departed "01" "" 1000000 0 "dock_1", .arrived "01" "" 0 "gate_2"] := by
    decide +kernel
  obtain ⟨hsnapshot, hlater⟩ := restart_transparent hinv
  obtain ⟨p, q, events, events', hp, hq, hlock, hsame⟩ := hlater actions timely
  rw [hp] at hevents
  obtain rfl := Except.ok.inj hevents
  exact ⟨hinv, hsnapshot Level.exact_rat, p, q, _, events', hp, hq, hlock,
    hsame "01" ⟨_, List.mem_cons_of_mem _ List.mem_cons_self, rfl, rfl⟩⟩

end Inventory

end TagGateway
