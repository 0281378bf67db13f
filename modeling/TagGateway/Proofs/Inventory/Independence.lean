import TagGateway.Proofs.Inventory.Reachable

/-!
What the record of one tag depends on. Of a batch that is the tag's own readings, and of the others
no more than the latest time among them, by which the reader's clock is set right. Main statement:
the record of each tag changes by itself.
-/

set_option autoImplicit false

namespace TagGateway

variable {R : Type}

/-- The latest time by the reader's clock in a batch. -/
def latestMicros? (batch : List Reading) : Option Int :=
  (batch.filterMap Reading.seenMicros?).max?

def readingsOf (epc : String) (batch : List Reading) : List Reading :=
  batch.filter (·.epc? = some epc)

variable [Level R]

def InventoryConfig.after (c : InventoryConfig R) : InventoryAction R → InventoryConfig R
  | .updateConfig config =>
    match config.validate with
    | .ok () => config
    | .error _ => c
  | .report .. | .sweepDeparted _ | .ageOut _ => c

namespace Tag

omit [Level R] in
theorem epc_settle (t : Tag R) (location : String) :
    (t.settle location).1.epc = t.epc ∧ ∀ e ∈ (t.settle location).2, e.epc = t.epc := by
  cases h : t.state with
  | unknown => simp [settle, h, Event.epc]
  | present =>
    simp only [settle, h, true_and]
    split
    · simp [Event.epc]
    · simp
  | departed => simp [settle, h, Event.epc]

theorem epc_sight (t : Tag R) (m : Mobility R) (s : Sighting R) : (t.sight m s).1.epc = t.epc := by
  unfold sight
  split
  · rfl
  · next place hplace =>
    simp only
    split
    · rfl
    · exact (epc_settle _ _).1

theorem epc_of_sight {t t' : Tag R} {m : Mobility R} {s : Sighting R} {event : Option Event}
    (h : t.sight m s = (t', .ok event)) : ∀ e ∈ event, e.epc = t.epc := by
  unfold sight at h
  split at h
  · cases h
    simp
  · next place hplace =>
    simp only at h
    split at h
    · cases h
    · cases h
      exact (epc_settle _ _).2

def takeAll (m : Mobility R) :
    Option (Tag R) → List (Sighting R) → Except Overflow (Option (Tag R) × List Event)
  | record, [] => .ok (record, [])
  | record, s :: rest =>
    match (record.getD (.new s.epc)).sight m s with
    | (_, .error e) => .error e
    | (t, .ok event) =>
      match takeAll m (some t) rest with
      | .error e => .error e
      | .ok (last, events) => .ok (last, event.toList ++ events)

def act (c : InventoryConfig R) (epc : String) (record : Option (Tag R)) :
    InventoryAction R → Except Overflow (Option (Tag R) × List Event)
  | .report device origin batch =>
    takeAll c.mobility record ((readingsOf epc batch).filterMap
      (·.sighting? c device origin (Inventory.batchOffset c origin batch)))
  | .sweepDeparted now =>
    match difference now.toInt c.departedMillis with
    | .error e => .error e
    | .ok expiry =>
      .ok (record.map fun t => if t.isOverdue expiry then t.depart now else t,
        ((record.filter (·.isOverdue expiry)).map (·.departure now)).toList)
  | .ageOut now =>
    match difference now.toInt c.ageOutMillis with
    | .error e => .error e
    | .ok expiry => .ok (record.filter fun t => !t.isStale expiry, [])
  | .updateConfig _ => .ok (record, [])

variable {c : InventoryConfig R} {epc : String} {record next : Option (Tag R)}
  {events : List Event} {now : Int64}

theorem departs_of_act (h : act c epc record (.sweepDeparted now) = .ok (next, events)) :
    ∃ expiry, difference now.toInt c.departedMillis = .ok expiry
      ∧ next = record.map (fun t => if t.isOverdue expiry then t.depart now else t)
      ∧ events = ((record.filter (·.isOverdue expiry)).map (·.departure now)).toList := by
  cases hexpiry : difference now.toInt c.departedMillis with
  | error e => simp [act, hexpiry] at h
  | ok expiry =>
    rw [act, hexpiry] at h
    cases h
    exact ⟨expiry, rfl, rfl, rfl⟩

theorem forgets_of_act (h : act c epc record (.ageOut now) = .ok (next, events)) :
    ∃ expiry, difference now.toInt c.ageOutMillis = .ok expiry
      ∧ next = record.filter (fun t => !t.isStale expiry) ∧ events = [] := by
  cases hexpiry : difference now.toInt c.ageOutMillis with
  | error e => simp [act, hexpiry] at h
  | ok expiry =>
    rw [act, hexpiry] at h
    cases h
    exact ⟨expiry, rfl, rfl, rfl⟩

end Tag

namespace Inventory

theorem Keyed.sight {inv : Inventory R} (hi : inv.Keyed) (s : Sighting R) :
    (inv.sight s).1.Keyed := by
  intro epc t ht
  rw [sight_tags] at ht
  split at ht
  · next hepc =>
    obtain rfl := Option.some.inj ht
    rw [Tag.epc_sight, hi.tag, hepc]
  · exact hi epc t ht

theorem Keyed.sightAll {inv : Inventory R} (hi : inv.Keyed) (sightings : List (Sighting R)) :
    (inv.sightAll sightings).1.Keyed ∧ (inv.sightAll sightings).1.config = inv.config :=
  sightAll_keeps (P := fun next => next.Keyed ∧ next.config = inv.config)
    (fun s _ _ h => ⟨h.1.sight s, h.2⟩) ⟨hi, rfl⟩

theorem Keyed.sight_own {inv next : Inventory R} {s : Sighting R} {event : Option Event}
    (hi : inv.Keyed) (h : inv.sight s = (next, .ok event)) :
    (∃ t, (inv.tags[s.epc]?.getD (.new s.epc)).sight inv.config.mobility s = (t, .ok event)
        ∧ next.tags[s.epc]? = some t)
      ∧ (∀ epc, epc ≠ s.epc → next.tags[epc]? = inv.tags[epc]?)
      ∧ ∀ e ∈ event, e.epc = s.epc := by
  have hview := sight_tags inv s
  have houtcome : (inv.sight s).2 = ((inv.tag s.epc).sight inv.config.mobility s).2 := rfl
  rw [h] at hview houtcome
  have hsight : (inv.tag s.epc).sight inv.config.mobility s
      = (((inv.tag s.epc).sight inv.config.mobility s).1, .ok event) := Prod.ext rfl houtcome.symm
  refine ⟨⟨_, ?_, by rw [hview, if_pos rfl]⟩, fun epc hne => by rw [hview, if_neg hne], ?_⟩
  · rw [← Std.TreeMap.getD_eq_getD_getElem?]
    exact hsight
  · have hepc := Tag.epc_of_sight hsight
    rwa [hi.tag] at hepc

theorem Keyed.takeAll {inv last : Inventory R} {sightings : List (Sighting R)}
    {events : List Event} (hi : inv.Keyed)
    (h : inv.sightAll sightings = (last, .ok events)) (epc : String) :
    Tag.takeAll inv.config.mobility inv.tags[epc]? (sightings.filter (·.epc = epc))
      = .ok (last.tags[epc]?, eventsOf epc events) := by
  induction sightings generalizing inv events with
  | nil =>
    cases h
    rfl
  | cons s rest ih =>
    have hkeyed := hi.sight s
    have hconfig : (inv.sight s).1.config = inv.config := rfl
    unfold Inventory.sightAll at h
    cases hs : inv.sight s with
    | mk next outcome =>
      rw [hs] at h hkeyed hconfig
      cases outcome with
      | error e => cases h
      | ok event =>
        cases hr : next.sightAll rest with
        | mk last' outcome =>
          cases outcome with
          | error e => simp [hr] at h
          | ok later =>
            obtain ⟨rfl, rfl⟩ : last' = last ∧ event.toList ++ later = events := by
              simpa [hr] using h
            have hrest := ih hkeyed hr
            rw [hconfig] at hrest
            obtain ⟨⟨t, hsight, hown⟩, hothers, hepc⟩ := hi.sight_own hs
            rw [eventsOf_append]
            -- Between two readings of the tag there may be any number of others: they pass by here.
            by_cases he : epc = s.epc
            · subst he
              have hevent : eventsOf s.epc event.toList = event.toList :=
                List.filter_eq_self.2 fun e hmem => by simp [hepc e (Option.mem_toList.1 hmem)]
              rw [hown] at hrest
              rw [List.filter_cons_of_pos (by simp), Tag.takeAll, hsight]
              simp only [hrest, hevent]
            · have hevent : eventsOf epc event.toList = [] :=
                List.filter_eq_nil_iff.2 fun e hmem => by
                  simp [hepc e (Option.mem_toList.1 hmem), Ne.symm he]
              rw [hothers epc he] at hrest
              rw [List.filter_cons_of_neg (by simpa using Ne.symm he), hrest, hevent]
              rfl

theorem filter_sightings (c : InventoryConfig R) (device : String) (origin : Int64)
    (batch : List Reading) (epc : String) :
    (sightings c device origin batch).filter (·.epc = epc)
      = (readingsOf epc batch).filterMap
          (·.sighting? c device origin (batchOffset c origin batch)) := by
  have hoffset : sightings c device origin batch
      = batch.filterMap (·.sighting? c device origin (batchOffset c origin batch)) := rfl
  rw [hoffset, List.filter_filterMap, readingsOf, List.filterMap_filter]
  refine congrArg (List.filterMap · batch) (funext fun r => ?_)
  cases h : r.epc? with
  | none => simp [Reading.sighting?, h]
  | some e => by_cases he : e = epc <;> simp [Reading.sighting?, h, he, Option.filter]

theorem Keyed.act {inv next : Inventory R} {a : InventoryAction R} {events : List Event}
    (hi : inv.Keyed) (h : inv.act a = .ok (next, events)) :
    next.Keyed ∧ next.config = inv.config.after a
      ∧ ∀ epc, Tag.act inv.config epc inv.tags[epc]? a
          = .ok (next.tags[epc]?, eventsOf epc events) := by
  cases a with
  | report device origin batch =>
    have hr : inv.sightAll (sightings inv.config device origin batch) = (next, .ok events) :=
      report_of_act h
    have hkept := hi.sightAll (sightings inv.config device origin batch)
    rw [hr] at hkept
    refine ⟨hkept.1, hkept.2, fun epc => ?_⟩
    rw [Tag.act, ← filter_sightings]
    exact hi.takeAll hr epc
  | sweepDeparted now =>
    obtain ⟨records, hsweep⟩ := sweepDeparted_of_act h
    obtain ⟨expiry, hexpiry, rfl, hconfig, hview⟩ := view_of_sweepDeparted hsweep
    refine ⟨hi.of_records fun epc u hu => ?_, hconfig, fun epc => ?_⟩
    · rw [hview] at hu
      obtain ⟨t, ht, rfl⟩ := Option.map_eq_some_iff.1 hu
      exact ⟨t, ht, by split <;> rfl⟩
    · rw [hi.eventsOf_departures (·.isOverdue expiry), hview, Tag.act, hexpiry]
  | ageOut now =>
    obtain ⟨rfl, count, records, hsweep⟩ := ageOut_of_act h
    obtain ⟨expiry, hexpiry, hconfig, hview⟩ := view_of_ageOut hsweep
    refine ⟨hi.of_records fun epc u hu => ?_, hconfig, fun epc => ?_⟩
    · rw [hview] at hu
      exact ⟨u, (Option.filter_eq_some_iff.1 hu).1, rfl⟩
    · rw [hview, Tag.act, hexpiry]
      rfl
  | updateConfig config =>
    obtain ⟨rfl, rfl⟩ := updateConfig_of_act h
    simp only [InventoryConfig.after]
    cases config.validate with
    | error fault => exact ⟨hi, rfl, fun epc => rfl⟩
    | ok done => exact ⟨hi, rfl, fun epc => rfl⟩

end Inventory

end TagGateway
