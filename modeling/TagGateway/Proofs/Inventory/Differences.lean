import TagGateway.Proofs.Inventory.Ring
import TagGateway.Proofs.Inventory.Reachable

set_option autoImplicit false

namespace TagGateway

variable {R : Type}

theorem InventoryConfig.thresholds_fit (c : InventoryConfig R) :
    fitsWord c.departedMillis = true ∧ fitsWord (c.ageOutHours.toNat * 3600) = true
      ∧ fitsWord c.ageOutMillis = true := by
  have := c.ageOutHours.toNat_lt
  have := Inventory.departedMillis_bounds c
  have := Inventory.ageOutMillis_bounds c
  simp only [fitsWord_iff]
  omega

variable [Level R]

theorem Tag.Sound.fitsWord_since {t : Tag R} {s : Sighting R} {place other : String}
    {p : PlaceStats R} (ht : t.Sound) (hs : s.Sound) (hplace : s.place = some place)
    (hp : ((t.observe s).record place s).stats[other]? = some p) :
    fitsWord (s.time.toInt - p.lastRead.toInt) = true := by
  obtain ⟨-, hheard⟩ := ht.toTimed.heard hs hplace
  have hstats := hheard.stats other p hp
  exact fitsWord_elapsed hs.time_ge hs.time_le hstats.nonneg (hstats.le.trans hheard.le)

namespace Inventory

/-- The inventories of runs in which a configuration may also be put in place unchecked. -/
inductive Running : Inventory R → Prop where
  | new (config : InventoryConfig R) : Running (.new config)
  | act {inv next : Inventory R} {a : InventoryAction R} {events : List Event}
    (before : Running inv) (timely : a.Timely) (step : inv.act a = .ok (next, events)) :
    Running next
  | configure {inv : Inventory R} (before : Running inv) (config : InventoryConfig R) :
    Running { inv with config }
  | restore {inv source : Inventory R} (before : Running inv) (taken : Running source) :
    Running (inv.restore source.snapshot)

theorem Running.sound {inv : Inventory R} (h : inv.Running) : inv.Sound := by
  induction h with
  | new config => exact sound_new config
  | act before timely step ih => exact ih.of_act timely step
  | configure before config ih => exact ih.configure config
  | restore before taken ih ihsource => exact ih.restore ihsource.recalled

/-- Nothing that an inventory computes with times is beyond a word: no threshold; no time that a
sweep looks back to; and for no reading of a batch, as the readings before it leave the record, the
time since another reading of the tag at any location. So whatever is done succeeds. -/
theorem times_fit {inv : Inventory R} (h : inv.Running) :
    (∀ c : InventoryConfig R, fitsWord c.departedMillis ∧ fitsWord (c.ageOutHours.toNat * 3600)
      ∧ fitsWord c.ageOutMillis)
    ∧ (∀ now : Int64, 0 ≤ now.toInt → fitsWord (now.toInt - inv.config.departedMillis)
      ∧ fitsWord (now.toInt - inv.config.ageOutMillis))
    ∧ (∀ (epc place : String) (t : Tag R) (p : PlaceStats R), inv.tags[epc]? = some t →
      t.stats[place]? = some p → 0 ≤ p.lastRead.toInt ∧ p.lastRead.toInt ≤ farthestMillis)
    ∧ (∀ (device : String) (origin : Int64) (before after : List Reading) (r : Reading),
      ∃ middle outcomes last later,
        Reads (inv.ready device origin (before ++ r :: after)) inv before middle outcomes
        ∧ Reads (inv.ready device origin (before ++ r :: after)) middle (r :: after) last later
        ∧ ∀ (s : Sighting R) (place other : String) (p : PlaceStats R),
          inv.ready device origin (before ++ r :: after) r = some s → s.place = some place →
          (((middle.tag s.epc).observe s).record place s).stats[other]? = some p →
            fitsWord (s.time.toInt - p.lastRead.toInt))
    ∧ ∀ a : InventoryAction R, a.Timely →
        ∃ next events, inv.act a = .ok (next, events) ∧ next.Running := by
  have hi := h.sound
  refine ⟨fun c => c.thresholds_fit, fun now hnow => ?_, fun epc place t p ht hp => ?_,
    fun device origin before after r => ?_, fun a ha => ?_⟩
  · exact ⟨fitsWord_expiry hnow (departedMillis_bounds inv.config),
      fitsWord_expiry hnow (ageOutMillis_bounds inv.config)⟩
  · have hs := hi.tags epc t ht
    have hstats := hs.stats place p hp
    exact ⟨hstats.nonneg, hstats.le.trans hs.le⟩
  · obtain ⟨middle, outcomes, hreads, hmiddle, -⟩ := hi.reads _ ready_sound before
    obtain ⟨last, later, hlater, -⟩ := hmiddle.reads _ ready_sound (r :: after)
    refine ⟨middle, outcomes, last, later, hreads, hlater, fun s place other p hr hplace hp => ?_⟩
    exact (hmiddle.tag s.epc).2.fitsWord_since (ready_sound r s hr) hplace hp
  · obtain ⟨next, events, hact, -⟩ := hi.act ha
    exact ⟨next, events, hact, h.act ha hact⟩

/-- A tag is read as late as can be, then as early as can be and elsewhere, and is contested. -/
theorem times_fit_extremes :
    let reading (tag : UInt8) (antenna : UInt16) (dbm : Int8) (seen : UInt64) : Reading :=
      { shortEpc := some ⟨⟨[tag]⟩⟩
        fields := { antenna := some antenna, peakRssi := some dbm, lastSeenUtc := some seen } }
    let late : UInt64 := 0x7FFFFFFFFFFFFFFF
    let early : InventoryAction ℚ := .report "dock" (-0x8000000000000000)
      [reading 1 2 (-20) 0, reading 1 2 (-20) 0, reading 2 1 (-60) late]
    let first : Inventory ℚ :=
      ((Inventory.new { InventoryConfig.default with adjustByOrigin := false }).report "dock" 0
        [reading 1 1 (-60) late]).1
    let inv : Inventory ℚ := { first with config := .default }
    inv.Running
      ∧ (∃ next events, inv.act early = .ok (next, events) ∧ next.Running)
      ∧ (inv.act early).map (·.2)
        = .ok [.moved "01" "" 9223372036854775 "dock_1" "dock_2",
            .arrived "02" "" 0 "dock_1"] := by
  intro reading late early first inv
  have hreport : (Inventory.new { InventoryConfig.default with adjustByOrigin := false }).report
      "dock" 0 [reading 1 1 (-60) late]
      = (first, .ok [.arrived "01" "" 9223372036854775 "dock_1"]) :=
    Prod.ext rfl (by decide +kernel)
  have hfirst : first.Running :=
    .act (a := .report "dock" 0 [reading 1 1 (-60) late]) (.new _) (by trivial)
      (by rw [Inventory.act, hreport])
  have hinv : inv.Running := .configure hfirst _
  exact ⟨hinv, (times_fit hinv).2.2.2.2 early (by trivial), by decide +kernel⟩

end Inventory

end TagGateway
