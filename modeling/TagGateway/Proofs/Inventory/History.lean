import TagGateway.Proofs.Inventory.Sound
import TagGateway.Proofs.Keys

/-!
The history of one tag within a run: its readings, the sweeps that let it depart, and its being
forgotten, with the event that came of each. Main statement: whatever is done to a sound inventory,
the record of each tag changes as some history of that tag says, and the events about it are those
of the history, in their order.
-/

set_option autoImplicit false

namespace TagGateway

/-- What happens to one tag. -/
inductive Incident (R : Type) where
  | reading (s : Sighting R)
  | departure (now : Int64)
  | forgetting

abbrev History (R : Type) := List (Incident R × Option Event)

def History.events {R : Type} (history : History R) : List Event := history.filterMap Prod.snd

def Event.isArrival : Event → Bool
  | .arrived .. => true
  | _ => false

def eventsOf (epc : String) (events : List Event) : List Event := events.filter (·.epc = epc)

theorem eventsOf_append (epc : String) (a b : List Event) :
    eventsOf epc (a ++ b) = eventsOf epc a ++ eventsOf epc b := List.filter_append ..

theorem eventsOf_flatten (epc : String) (told : List (List Event)) :
    eventsOf epc told.flatten = (told.map (eventsOf epc)).flatten := List.filter_flatten ..

variable {R : Type}

theorem History.events_append (a b : History R) : (a ++ b).events = a.events ++ b.events :=
  List.filterMap_append

theorem History.events_cons (i : Incident R) (event : Option Event) (rest : History R) :
    History.events ((i, event) :: rest) = event.toList ++ rest.events := by
  cases event <;> simp [History.events]

variable [Level R]

/-- A history leads from one record to another. -/
inductive Tag.Lives : Tag R → History R → Tag R → Prop where
  | still (t : Tag R) : t.Lives [] t
  | read {t next last : Tag R} {m : Mobility R} {s : Sighting R} {event : Option Event}
    {rest : History R} (sound : s.Sound) (takes : t.Takes m s next event)
    (later : next.Lives rest last) : t.Lives ((.reading s, event) :: rest) last
  | depart {t last : Tag R} {now : Int64} {threshold : Int} {rest : History R}
    (positive : 0 ≤ threshold) (overdue : t.isOverdue (now.toInt - threshold))
    (later : (t.depart now).Lives rest last) :
    t.Lives ((.departure now, some (t.departure now)) :: rest) last
  | forget {t last : Tag R} {expiry : Int} {rest : History R} (stale : t.isStale expiry)
    (later : (Tag.new t.epc).Lives rest last) : t.Lives ((.forgetting, none) :: rest) last

theorem Tag.Lives.trans {t middle last : Tag R} {first rest : History R}
    (h : t.Lives first middle) (h' : middle.Lives rest last) : t.Lives (first ++ rest) last := by
  induction h with
  | still t => exact h'
  | read sound takes later ih => exact .read sound takes (ih h')
  | depart positive overdue later ih => exact .depart positive overdue (ih h')
  | forget stale later ih => exact .forget stale (ih h')

theorem Tag.Takes.event_epc {t next : Tag R} {m : Mobility R} {s : Sighting R} {e : Event}
    (h : t.Takes m s next (some e)) : e.epc = t.epc := by
  cases h <;> rfl

namespace Inventory

theorem Reads.lives {ready : Reading → Option (Sighting R)} {inv last : Inventory R}
    {batch : List Reading} {outcomes : List (Option Event)}
    (h : Reads ready inv batch last outcomes) (hi : inv.Sound)
    (hready : ∀ r s, ready r = some s → s.Sound) (epc : String) :
    ∃ history, (inv.tag epc).Lives history (last.tag epc)
      ∧ eventsOf epc outcomes.reduceOption = history.events := by
  induction h with
  | done inv => exact ⟨[], .still _, rfl⟩
  | skip hr rest ih =>
    obtain ⟨history, hlives, hevents⟩ := ih hi
    exact ⟨history, hlives, by simpa using hevents⟩
  | @take inv next last r s batch event outcomes hr step rest ih =>
    have hs := hready r s hr
    obtain ⟨hnext, htakes, hother⟩ := hi.of_sight hs step
    obtain ⟨history, hlives, hevents⟩ := ih hnext
    rw [reduceOption_cons, eventsOf_append]
    have hkey := (hi.tag s.epc).1
    by_cases he : epc = s.epc
    · subst he
      refine ⟨(.reading s, event) :: history, .read hs htakes hlives, ?_⟩
      rw [hevents]
      cases event with
      | none => rfl
      | some e =>
        have := htakes.event_epc
        simp [eventsOf, History.events, this, hkey]
    · refine ⟨history, hother epc he ▸ hlives, ?_⟩
      rw [hevents]
      cases event with
      | none => rfl
      | some e =>
        have := htakes.event_epc
        simp [eventsOf, this, hkey, Ne.symm he]

omit [Level R] in
theorem Keyed.eventsOf_departures {inv : Inventory R} (hi : inv.Keyed) (overdue : Tag R → Bool)
    (now : Int64) (epc : String) :
    eventsOf epc ((inv.tags.toList.filter (overdue ·.2)).map (·.2.departure now))
      = ((inv.tags[epc]?.filter overdue).map (·.departure now)).toList := by
  have hkey : ∀ p ∈ inv.tags.toList.filter (overdue ·.2),
      decide ((p.2.departure now).epc = epc) = decide (p.1 = epc) := by
    intro p hp
    have hmem := Std.TreeMap.mem_toList_iff_getElem?_eq_some.1 (List.mem_filter.1 hp).1
    have : (p.2.departure now).epc = p.1 := hi _ _ hmem
    rw [this]
  -- Under its key a map lists one record at most, so the owner is picked before the overdue are.
  calc
    _ = (((inv.tags.toList.filter (overdue ·.2)).filter (·.1 = epc)).map (·.2.departure now)) := by
      rw [eventsOf, List.filter_map]
      exact congrArg _ (List.filter_congr hkey)
    _ = (((inv.tags.toList.filter (·.1 = epc)).filter (overdue ·.2)).map (·.2.departure now)) := by
      rw [List.filter_filter, List.filter_filter]
      simp only [Bool.and_comm]
    _ = _ := by
      rw [filter_toList_key]
      cases inv.tags[epc]? with
      | none => rfl
      | some t => by_cases h : overdue t <;> simp [h, Option.filter]

omit [Level R] in
theorem Sound.configure {inv : Inventory R} (hi : inv.Sound) (config : InventoryConfig R) :
    Sound { inv with config } :=
  { keyed := hi.keyed, tags := hi.tags }

theorem Sound.act {inv : Inventory R} {a : InventoryAction R} (hi : inv.Sound) (ha : a.Timely) :
    ∃ next events, inv.act a = .ok (next, events) ∧ next.Sound
      ∧ ∀ epc, ∃ history, (inv.tag epc).Lives history (next.tag epc)
        ∧ eventsOf epc events = history.events := by
  cases a with
  | report device origin batch =>
    obtain ⟨last, outcomes, hreads, hlast, -⟩ :=
      hi.reads (inv.ready device origin batch) ready_sound batch
    refine ⟨last, outcomes.reduceOption, ?_, hlast, hreads.lives hi ready_sound⟩
    simp [Inventory.act, report_of_reads hreads]
  | sweepDeparted now =>
    have hpositive : 0 ≤ inv.config.departedMillis := by
      unfold InventoryConfig.departedMillis
      omega
    obtain ⟨next, snapshot, hsweep, -, hview⟩ := inv.sweepDeparted_spec ha
    refine ⟨next, _, by rw [Inventory.act, hsweep], ?_, fun epc => ?_⟩
    · refine hi.of_records fun epc u hu => ?_
      rw [hview] at hu
      obtain ⟨t, ht, rfl⟩ := Option.map_eq_some_iff.1 hu
      refine ⟨t, ht, ?_, fun hs => ?_⟩
      · split <;> rfl
      · split
        · next h => exact hs.depart hpositive h
        · exact hs
    · rw [hi.keyed.eventsOf_departures (·.isOverdue (now.toInt - inv.config.departedMillis))]
      cases ht : inv.tags[epc]? with
      | none =>
        rw [tag_of_none ht, tag_of_none (by rw [hview, ht]; rfl)]
        exact ⟨[], .still _, rfl⟩
      | some t =>
        rw [tag_of_getElem? ht, tag_of_getElem? (by rw [hview, ht]; rfl)]
        by_cases h : t.isOverdue (now.toInt - inv.config.departedMillis)
        · exact ⟨[(.departure now, some (t.departure now))],
            by simpa [h] using .depart hpositive h (.still _),
            by simp [h, Option.filter, History.events]⟩
        · exact ⟨[], by simpa [h] using .still t, by simp [h, Option.filter, History.events]⟩
  | ageOut now =>
    obtain ⟨next, count, snapshot, hsweep, -, hview⟩ := inv.ageOut_spec ha
    refine ⟨next, [], by simp [Inventory.act, hsweep], ?_, fun epc => ?_⟩
    · refine hi.of_records fun epc u hu => ?_
      rw [hview] at hu
      exact ⟨u, (Option.filter_eq_some_iff.1 hu).1, rfl, id⟩
    · cases ht : inv.tags[epc]? with
      | none =>
        rw [tag_of_none ht, tag_of_none (by rw [hview, ht]; rfl)]
        exact ⟨[], .still _, rfl⟩
      | some t =>
        rw [tag_of_getElem? ht]
        by_cases h : t.isStale (now.toInt - inv.config.ageOutMillis)
        · rw [tag_of_none (by simp [hview, ht, h])]
          have hepc := hi.keyed epc t ht
          exact ⟨[(.forgetting, none)], hepc ▸ .forget h (.still _), rfl⟩
        · rw [tag_of_getElem? (t := t) (by simp [hview, ht, h])]
          exact ⟨[], .still _, rfl⟩
  | updateConfig config =>
    simp only [Inventory.act, updateConfig]
    cases hc : config.validate with
    | error fault => exact ⟨inv, [], rfl, hi, fun epc => ⟨[], .still _, rfl⟩⟩
    | ok => exact ⟨_, [], rfl, hi.configure config, fun epc => ⟨[], .still _, rfl⟩⟩

theorem Sound.of_act {inv next : Inventory R} {a : InventoryAction R} {events : List Event}
    (hi : inv.Sound) (ha : a.Timely) (step : inv.act a = .ok (next, events)) : next.Sound := by
  obtain ⟨next', events', hact, hnext, -⟩ := hi.act ha
  obtain ⟨rfl, -⟩ := Prod.mk.inj (Except.ok.inj (step.symm.trans hact))
  exact hnext

theorem Sound.run {inv : Inventory R} {actions : List (InventoryAction R)} (hi : inv.Sound)
    (timely : ∀ a ∈ actions, a.Timely) :
    ∃ last events, inv.run actions = .ok (last, events) ∧ last.Sound
      ∧ ∀ epc, ∃ history, (inv.tag epc).Lives history (last.tag epc)
        ∧ eventsOf epc events = history.events := by
  induction actions generalizing inv with
  | nil => exact ⟨inv, [], rfl, hi, fun epc => ⟨[], .still _, rfl⟩⟩
  | cons a rest ih =>
    obtain ⟨ha, hrest⟩ := List.forall_mem_cons.1 timely
    obtain ⟨next, events, hact, hnext, hfirst⟩ := hi.act ha
    obtain ⟨last, later, hrun, hlast, hthen⟩ := ih hnext hrest
    refine ⟨last, events ++ later, run_cons hact hrun, hlast, fun epc => ?_⟩
    obtain ⟨first, hlives, hevents⟩ := hfirst epc
    obtain ⟨second, hlives', hevents'⟩ := hthen epc
    refine ⟨first ++ second, hlives.trans hlives', ?_⟩
    rw [eventsOf_append, hevents, hevents', History.events_append]

end Inventory

end TagGateway
