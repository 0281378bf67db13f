import TagGateway.Inventory.Basic
import TagGateway.Proofs.Results

/-!
Runs of an inventory: batches of readings, sweeps and new configurations, one after the other and
in any order. A run gives the events that came of it, unless a time overflows on the way.
-/

set_option autoImplicit false

namespace TagGateway

inductive InventoryAction (R : Type) where
  | report (device : String) (origin : Int64) (batch : List Reading)
  | sweepDeparted (now : Int64)
  | ageOut (now : Int64)
  | updateConfig (config : InventoryConfig R)

@[simp] def InventoryAction.Timely {R : Type} : InventoryAction R → Prop
  | .sweepDeparted now | .ageOut now => 0 ≤ now.toInt
  | .report .. | .updateConfig _ => True

variable {R : Type}

namespace Inventory

/-- The record of a tag, or that of a tag never read. -/
def tag (inv : Inventory R) (epc : String) : Tag R := inv.tags.getD epc (.new epc)

theorem tag_of_getElem? {inv : Inventory R} {epc : String} {t : Tag R}
    (h : inv.tags[epc]? = some t) : inv.tag epc = t := by
  simp [tag, Std.TreeMap.getD_eq_getD_getElem?, h]

theorem tag_of_none {inv : Inventory R} {epc : String} (h : inv.tags[epc]? = none) :
    inv.tag epc = .new epc := by
  simp [tag, Std.TreeMap.getD_eq_getD_getElem?, h]

theorem tag_congr {inv next : Inventory R} {epc : String} (h : next.tags[epc]? = inv.tags[epc]?) :
    next.tag epc = inv.tag epc := by
  simp [tag, Std.TreeMap.getD_eq_getD_getElem?, h]

@[simp] theorem tag_new (config : InventoryConfig R) (epc : String) :
    (Inventory.new config).tag epc = .new epc :=
  tag_of_none (by simp)

variable [Level R]

def act (inv : Inventory R) : InventoryAction R → Except Overflow (Inventory R × List Event)
  | .report device origin batch =>
    match inv.report device origin batch with
    | (inv, .ok events) => .ok (inv, events)
    | (_, .error e) => .error e
  | .sweepDeparted now =>
    match inv.sweepDeparted now with
    | .ok (inv, events, _) => .ok (inv, events)
    | .error e => .error e
  | .ageOut now =>
    match inv.ageOut now with
    | .ok (inv, _, _) => .ok (inv, [])
    | .error e => .error e
  | .updateConfig config =>
    match inv.updateConfig config with
    | .ok inv => .ok (inv, [])
    | .error _ => .ok (inv, [])

def run (inv : Inventory R) :
    List (InventoryAction R) → Except Overflow (Inventory R × List Event)
  | [] => .ok (inv, [])
  | a :: rest =>
    match inv.act a with
    | .error e => .error e
    | .ok (inv, events) =>
      match inv.run rest with
      | .error e => .error e
      | .ok (inv, later) => .ok (inv, events ++ later)

@[simp] theorem run_nil (inv : Inventory R) : inv.run [] = .ok (inv, []) := rfl

theorem run_cons {inv next last : Inventory R} {a : InventoryAction R}
    {rest : List (InventoryAction R)} {events later : List Event}
    (ha : inv.act a = .ok (next, events)) (hr : next.run rest = .ok (last, later)) :
    inv.run (a :: rest) = .ok (last, events ++ later) := by
  simp [run, ha, hr]

theorem sight_tags (inv : Inventory R) (s : Sighting R) (epc : String) :
    (inv.sight s).1.tags[epc]?
      = if epc = s.epc then some ((inv.tag s.epc).sight inv.config.mobility s).1
        else inv.tags[epc]? := by
  simp only [sight, Std.TreeMap.getElem?_insert, Std.compare_eq_iff_eq, tag]
  by_cases h : epc = s.epc
  · simp [h]
  · simp [h, Ne.symm h]

theorem sightAll_keeps {P : Inventory R → Prop} {sightings : List (Sighting R)}
    (step : ∀ s ∈ sightings, ∀ inv, P inv → P (inv.sight s).1) {inv : Inventory R} (h : P inv) :
    P (inv.sightAll sightings).1 := by
  induction sightings generalizing inv with
  | nil => exact h
  | cons s rest ih =>
    obtain ⟨hs, hrest⟩ := List.forall_mem_cons.1 step
    have hnext := hs inv h
    unfold sightAll
    cases houtcome : inv.sight s with
    | mk next outcome =>
      rw [houtcome] at hnext
      cases outcome with
      | error e => exact hnext
      | ok event => exact ih hrest hnext

def batchOffset (c : InventoryConfig R) (origin : Int64) (batch : List Reading) : Int :=
  if c.adjustByOrigin then clockOffset origin batch else 0

def ready (inv : Inventory R) (device : String) (origin : Int64) (batch : List Reading)
    (r : Reading) : Option (Sighting R) :=
  r.sighting? inv.config device origin (batchOffset inv.config origin batch)

/-- Readings taken one after the other, with what came of each: a reading that is not ready to take
effect is passed over. -/
inductive Reads (ready : Reading → Option (Sighting R)) :
    Inventory R → List Reading → Inventory R → List (Option Event) → Prop where
  | done (inv : Inventory R) : Reads ready inv [] inv []
  | skip {inv last : Inventory R} {r : Reading} {batch : List Reading}
    {outcomes : List (Option Event)} (h : ready r = none)
    (rest : Reads ready inv batch last outcomes) :
    Reads ready inv (r :: batch) last (none :: outcomes)
  | take {inv next last : Inventory R} {r : Reading} {s : Sighting R} {batch : List Reading}
    {event : Option Event} {outcomes : List (Option Event)} (h : ready r = some s)
    (step : inv.sight s = (next, .ok event)) (rest : Reads ready next batch last outcomes) :
    Reads ready inv (r :: batch) last (event :: outcomes)

@[simp] theorem reduceOption_cons (event : Option Event) (outcomes : List (Option Event)) :
    (event :: outcomes).reduceOption = event.toList ++ outcomes.reduceOption := by
  cases event with
  | none => rfl
  | some e => rfl

theorem Reads.sightAll {ready : Reading → Option (Sighting R)} {inv last : Inventory R}
    {batch : List Reading} {outcomes : List (Option Event)}
    (h : Reads ready inv batch last outcomes) :
    inv.sightAll (batch.filterMap ready) = (last, .ok outcomes.reduceOption) := by
  induction h with
  | done inv => rfl
  | skip h rest ih => simpa [h] using ih
  | take h step rest ih => simp [h, Inventory.sightAll, step, ih]

theorem report_of_reads {inv last : Inventory R} {device : String} {origin : Int64}
    {batch : List Reading} {outcomes : List (Option Event)}
    (h : Reads (inv.ready device origin batch) inv batch last outcomes) :
    inv.report device origin batch = (last, .ok outcomes.reduceOption) :=
  h.sightAll

/-- A sweep lets the overdue tags depart, and no others. -/
theorem sweepDeparted_of_expiry (inv : Inventory R) {now : Int64} {expiry : Int}
    (hexpiry : difference now.toInt inv.config.departedMillis = .ok expiry) :
    ∃ next snapshot,
      inv.sweepDeparted now
        = .ok (next, (inv.tags.toList.filter (·.2.isOverdue expiry)).map (·.2.departure now),
            snapshot)
      ∧ next.config = inv.config
      ∧ ∀ epc : String, next.tags[epc]?
          = inv.tags[epc]?.map fun t => if t.isOverdue expiry then t.depart now else t := by
  simp only [sweepDeparted, hexpiry, ok_bind]
  split
  · next hnone =>
    -- Without an overdue tag the inventory is kept as it is: then no record had to change.
    have hnone := List.isEmpty_iff.1 hnone
    refine ⟨inv, none, by rw [hnone]; rfl, rfl, fun epc => ?_⟩
    cases h : inv.tags[epc]? with
    | none => rfl
    | some t =>
      have hmem := Std.TreeMap.mem_toList_iff_getElem?_eq_some.2 h
      have hnot := List.filter_eq_nil_iff.1 hnone _ hmem
      simp [hnot]
  · exact ⟨_, _, rfl, rfl, fun epc => by simp [Std.TreeMap.getElem?_map]⟩

theorem ageOut_of_expiry (inv : Inventory R) {now : Int64} {expiry : Int}
    (hexpiry : difference now.toInt inv.config.ageOutMillis = .ok expiry) :
    ∃ next count snapshot,
      inv.ageOut now = .ok (next, count, snapshot)
      ∧ next.config = inv.config
      ∧ ∀ epc : String, next.tags[epc]? = inv.tags[epc]?.filter fun t => !t.isStale expiry := by
  have hkept : ∀ epc : String, (inv.tags.filter fun _ t => !t.isStale expiry)[epc]?
      = inv.tags[epc]?.filter fun t => !t.isStale expiry :=
    fun epc => Std.TreeMap.getElem?_filter'
  simp only [ageOut, hexpiry, ok_bind]
  split
  · next hzero =>
    -- The records are counted, not compared: as many as before are the same ones.
    have hle : (inv.tags.filter fun _ t => !t.isStale expiry).size ≤ inv.tags.size :=
      Std.TreeMap.size_filter_le_size
    have hsize : (inv.tags.filter fun _ t => !t.isStale expiry).size = inv.tags.size := by omega
    have hnone := Std.TreeMap.size_filter_eq_size_iff.1 hsize
    refine ⟨inv, 0, none, rfl, rfl, fun epc => ?_⟩
    cases h : inv.tags[epc]? with
    | none => rfl
    | some t =>
      obtain ⟨hmem, rfl⟩ := Std.TreeMap.getElem?_eq_some_iff.1 h
      simp [Option.filter, hnone epc hmem]
  · exact ⟨_, _, _, rfl, rfl, hkept⟩

section Inversion

variable {inv next : Inventory R} {events : List Event}

theorem report_of_act {device : String} {origin : Int64} {batch : List Reading}
    (h : inv.act (.report device origin batch) = .ok (next, events)) :
    inv.report device origin batch = (next, .ok events) := by
  cases hr : inv.report device origin batch with
  | mk last outcome =>
    cases outcome with
    | error e => simp [act, hr] at h
    | ok told =>
      obtain ⟨rfl, rfl⟩ : last = next ∧ told = events := by simpa [act, hr] using h
      rfl

theorem sweepDeparted_of_act {now : Int64}
    (h : inv.act (.sweepDeparted now) = .ok (next, events)) :
    ∃ records, inv.sweepDeparted now = .ok (next, events, records) := by
  cases hs : inv.sweepDeparted now with
  | error e => simp [act, hs] at h
  | ok result =>
    obtain ⟨rfl, rfl⟩ : result.1 = next ∧ result.2.1 = events := by simpa [act, hs] using h
    exact ⟨result.2.2, rfl⟩

theorem ageOut_of_act {now : Int64} (h : inv.act (.ageOut now) = .ok (next, events)) :
    events = [] ∧ ∃ count records, inv.ageOut now = .ok (next, count, records) := by
  cases hs : inv.ageOut now with
  | error e => simp [act, hs] at h
  | ok result =>
    obtain ⟨rfl, rfl⟩ : result.1 = next ∧ [] = events := by simpa [act, hs] using h
    exact ⟨rfl, result.2.1, result.2.2, rfl⟩

/-- A configuration is put in place if it is valid, and otherwise nothing changes. -/
theorem updateConfig_of_act {config : InventoryConfig R}
    (h : inv.act (.updateConfig config) = .ok (next, events)) :
    events = [] ∧ next = match config.validate with
      | .ok () => { inv with config }
      | .error _ => inv := by
  simp only [act, updateConfig] at h
  cases hc : config.validate with
  | error fault =>
    simp only [hc, error_bind, Except.ok.injEq, Prod.mk.injEq] at h
    exact ⟨h.2.symm, h.1.symm⟩
  | ok done =>
    simp only [hc, ok_bind, Except.ok.injEq, Prod.mk.injEq] at h
    exact ⟨h.2.symm, h.1.symm⟩

theorem view_of_sweepDeparted {now : Int64} {records : Option (List (TagRecord R))}
    (h : inv.sweepDeparted now = .ok (next, events, records)) :
    ∃ expiry, difference now.toInt inv.config.departedMillis = .ok expiry
      ∧ events = (inv.tags.toList.filter (·.2.isOverdue expiry)).map (·.2.departure now)
      ∧ next.config = inv.config
      ∧ ∀ epc : String, next.tags[epc]?
          = inv.tags[epc]?.map fun t => if t.isOverdue expiry then t.depart now else t := by
  obtain ⟨expiry, hexpiry, -⟩ := bind_eq_ok.1 h
  obtain ⟨next', records', hsweep, hconfig, hview⟩ := inv.sweepDeparted_of_expiry hexpiry
  cases hsweep.symm.trans h
  exact ⟨expiry, hexpiry, rfl, hconfig, hview⟩

theorem view_of_ageOut {now : Int64} {count : Nat} {records : Option (List (TagRecord R))}
    (h : inv.ageOut now = .ok (next, count, records)) :
    ∃ expiry, difference now.toInt inv.config.ageOutMillis = .ok expiry
      ∧ next.config = inv.config
      ∧ ∀ epc : String, next.tags[epc]? = inv.tags[epc]?.filter fun t => !t.isStale expiry := by
  obtain ⟨expiry, hexpiry, -⟩ := bind_eq_ok.1 h
  obtain ⟨next', count', records', hsweep, hconfig, hview⟩ := inv.ageOut_of_expiry hexpiry
  cases hsweep.symm.trans h
  exact ⟨expiry, hexpiry, hconfig, hview⟩

end Inversion

theorem fitsWord_expiry {now : Int64} (hnow : 0 ≤ now.toInt) {threshold : Int}
    (h : 0 ≤ threshold ∧ threshold ≤ 0x4000000000000000) :
    fitsWord (now.toInt - threshold) = true := by
  have := now.toInt_lt
  exact fitsWord_iff.2 (by omega)

omit [Level R] in
theorem departedMillis_bounds (c : InventoryConfig R) :
    0 ≤ c.departedMillis ∧ c.departedMillis ≤ 0x4000000000000000 := by
  have := c.departedSeconds.toNat_lt
  unfold InventoryConfig.departedMillis
  omega

omit [Level R] in
theorem ageOutMillis_bounds (c : InventoryConfig R) :
    0 ≤ c.ageOutMillis ∧ c.ageOutMillis ≤ 0x4000000000000000 := by
  have := c.ageOutHours.toNat_lt
  unfold InventoryConfig.ageOutMillis
  omega

theorem sweepDeparted_spec (inv : Inventory R) {now : Int64} (hnow : 0 ≤ now.toInt) :
    ∃ next snapshot,
      inv.sweepDeparted now
        = .ok (next,
            (inv.tags.toList.filter
              (·.2.isOverdue (now.toInt - inv.config.departedMillis))).map (·.2.departure now),
            snapshot)
      ∧ next.config = inv.config
      ∧ ∀ epc : String, next.tags[epc]? = inv.tags[epc]?.map fun t =>
          if t.isOverdue (now.toInt - inv.config.departedMillis) then t.depart now else t :=
  inv.sweepDeparted_of_expiry
    (difference_eq_ok (fitsWord_expiry hnow (departedMillis_bounds inv.config)))

theorem ageOut_spec (inv : Inventory R) {now : Int64} (hnow : 0 ≤ now.toInt) :
    ∃ next count snapshot,
      inv.ageOut now = .ok (next, count, snapshot)
      ∧ next.config = inv.config
      ∧ ∀ epc : String, next.tags[epc]?
          = inv.tags[epc]?.filter fun t => !t.isStale (now.toInt - inv.config.ageOutMillis) :=
  inv.ageOut_of_expiry (difference_eq_ok (fitsWord_expiry hnow (ageOutMillis_bounds inv.config)))

end Inventory

end TagGateway
