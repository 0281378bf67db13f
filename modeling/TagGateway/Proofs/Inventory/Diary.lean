import TagGateway.Proofs.Inventory.Independence

/-!
The diary of one tag in a run: each of its readings, the sweeps that let it depart and those that
forgot it, in their order and with the event that came of each. Main statement: the diary is a
history of the tag, it has all of the tag's readings, and its events are those of the run that are
about the tag.
-/

set_option autoImplicit false

namespace TagGateway

variable {R : Type}

def History.readings (history : History R) : List (Sighting R) :=
  history.filterMap fun
    | (.reading s, _) => some s
    | _ => none

theorem History.readings_append (a b : History R) :
    (a ++ b).readings = a.readings ++ b.readings := List.filterMap_append

@[simp] theorem History.readings_reading (s : Sighting R) (event : Option Event)
    (rest : History R) :
    History.readings ((.reading s, event) :: rest) = s :: rest.readings := rfl

theorem History.readings_concat (history : History R) (s : Sighting R) (event : Option Event) :
    History.readings (history ++ [(.reading s, event)]) = history.readings ++ [s] :=
  readings_append ..

variable [Level R]

def readingsIn (c : InventoryConfig R) (epc : String) : InventoryAction R → List (Sighting R)
  | .report device origin batch =>
    (readingsOf epc batch).filterMap
      (·.sighting? c device origin (Inventory.batchOffset c origin batch))
  | .sweepDeparted _ | .ageOut _ | .updateConfig _ => []

/-- The readings of one tag in a whole run, made ready by the configuration of their time. -/
def readingsInAll (c : InventoryConfig R) (epc : String) :
    List (InventoryAction R) → List (Sighting R)
  | [] => []
  | a :: rest => readingsIn c epc a ++ readingsInAll (c.after a) epc rest

namespace Tag

/-- What readings of one tag are to it, up to one that fails. -/
def taken (m : Mobility R) : Option (Tag R) → List (Sighting R) → History R
  | _, [] => []
  | record, s :: rest =>
    match (record.getD (.new s.epc)).sight m s with
    | (_, .error _) => []
    | (t, .ok event) => (.reading s, event) :: taken m (some t) rest

def incidents (c : InventoryConfig R) (epc : String) (record : Option (Tag R)) :
    InventoryAction R → History R
  | .report device origin batch =>
    taken c.mobility record (readingsIn c epc (.report device origin batch))
  | .sweepDeparted now =>
    match difference now.toInt c.departedMillis with
    | .error _ => []
    | .ok expiry =>
      ((record.filter (·.isOverdue expiry)).map fun t =>
        (.departure now, some (t.departure now))).toList
  | .ageOut now =>
    match difference now.toInt c.ageOutMillis with
    | .error _ => []
    | .ok expiry => ((record.filter (·.isStale expiry)).map fun _ => (.forgetting, none)).toList
  | .updateConfig _ => []

def SoundIfAny (epc : String) (record : Option (Tag R)) : Prop :=
  ∀ t, record = some t → t.epc = epc ∧ t.Sound

variable {c : InventoryConfig R} {m : Mobility R} {epc : String} {record next : Option (Tag R)}
  {events : List Event}

theorem lives_taken (hr : SoundIfAny epc record) {readings : List (Sighting R)}
    (hs : ∀ s ∈ readings, s.Sound ∧ s.epc = epc)
    (h : takeAll m record readings = .ok (next, events)) :
    (record.getD (.new epc)).Lives (taken m record readings) (next.getD (.new epc))
      ∧ (taken m record readings).events = events
      ∧ (taken m record readings).readings = readings := by
  induction readings generalizing record events with
  | nil =>
    cases h
    exact ⟨.still _, rfl, rfl⟩
  | cons s rest ih =>
    obtain ⟨⟨hsound, rfl⟩, hrest⟩ := List.forall_mem_cons.1 hs
    have hrecord : (record.getD (.new s.epc)).epc = s.epc ∧ (record.getD (.new s.epc)).Sound := by
      cases record with
      | none => exact ⟨rfl, sound_new s.epc⟩
      | some t => exact hr t rfl
    obtain ⟨t, event, hsight, htakes⟩ := hrecord.2.sight m hsound
    have ht : SoundIfAny s.epc (some t) := by
      intro t' ht'
      obtain rfl := Option.some.inj ht'
      exact ⟨htakes.epc.trans hrecord.1, htakes.sound hrecord.2 hsound⟩
    simp only [takeAll, taken, hsight] at h ⊢
    cases hlater : takeAll m (some t) rest with
    | error e => simp [hlater] at h
    | ok result =>
      obtain ⟨last, later⟩ := result
      obtain ⟨rfl, rfl⟩ : last = next ∧ event.toList ++ later = events := by
        simpa [hlater] using h
      obtain ⟨hlives, hevents, hreadings⟩ := ih ht hrest hlater
      refine ⟨.read hsound htakes hlives, ?_, ?_⟩
      · rw [History.events_cons, hevents]
      · rw [History.readings_reading, hreadings]

theorem lives_incidents (hr : SoundIfAny epc record) {a : InventoryAction R}
    (h : Tag.act c epc record a = .ok (next, events)) :
    (record.getD (.new epc)).Lives (incidents c epc record a) (next.getD (.new epc))
      ∧ (incidents c epc record a).events = events
      ∧ (incidents c epc record a).readings = readingsIn c epc a := by
  cases a with
  | report device origin batch =>
    refine lives_taken hr (fun s hs => ?_) h
    obtain ⟨r, hread, hready⟩ := List.mem_filterMap.1 hs
    refine ⟨Reading.sighting_sound hready, ?_⟩
    obtain ⟨epc', hepc', rfl⟩ := Option.map_eq_some_iff.1 hready
    have hown : r.epc? = some epc := by simpa [readingsOf] using (List.mem_filter.1 hread).2
    exact Option.some.inj (hepc'.symm.trans hown)
  | sweepDeparted now =>
    obtain ⟨expiry, hexpiry, rfl, rfl⟩ := departs_of_act h
    obtain rfl := eq_sub_of_difference hexpiry
    simp only [incidents, hexpiry]
    cases record with
    | none => exact ⟨.still _, rfl, rfl⟩
    | some t =>
      simp only [Option.filter_some, Option.map_some]
      split
      · next hover =>
        exact ⟨.depart (Inventory.departedMillis_bounds c).1 hover (.still _), rfl, rfl⟩
      · exact ⟨.still t, rfl, rfl⟩
  | ageOut now =>
    obtain ⟨expiry, hexpiry, rfl, rfl⟩ := forgets_of_act h
    simp only [incidents, hexpiry]
    cases record with
    | none => exact ⟨.still _, rfl, rfl⟩
    | some t =>
      obtain ⟨rfl, -⟩ := hr t rfl
      simp only [Option.filter_some, Bool.not_eq_true', Bool.eq_false_iff, ite_not]
      split
      · next hstale => exact ⟨.forget hstale (.still _), rfl, rfl⟩
      · exact ⟨.still t, rfl, rfl⟩
  | updateConfig config =>
    obtain ⟨rfl, rfl⟩ := Prod.mk.inj (Except.ok.inj h)
    exact ⟨.still _, rfl, rfl⟩

end Tag

namespace Inventory

/-- What a run is to one tag, up to an action that fails. -/
def diary (epc : String) (inv : Inventory R) : List (InventoryAction R) → History R
  | [] => []
  | a :: rest =>
    Tag.incidents inv.config epc inv.tags[epc]? a ++
      match inv.act a with
      | .error _ => []
      | .ok (next, _) => diary epc next rest

omit [Level R] in
theorem Sound.soundIfAny {inv : Inventory R} (hi : inv.Sound) (epc : String) :
    Tag.SoundIfAny epc inv.tags[epc]? :=
  fun t ht => ⟨hi.keyed epc t ht, hi.tags epc t ht⟩

theorem Sound.diary {inv : Inventory R} (hi : inv.Sound) {actions : List (InventoryAction R)}
    (timely : ∀ a ∈ actions, a.Timely) :
    ∃ last events, inv.run actions = .ok (last, events) ∧ last.Sound
      ∧ ∀ epc, (inv.tag epc).Lives (inv.diary epc actions) (last.tag epc)
        ∧ (inv.diary epc actions).events = eventsOf epc events
        ∧ (inv.diary epc actions).readings = readingsInAll inv.config epc actions := by
  induction actions generalizing inv with
  | nil => exact ⟨inv, [], rfl, hi, fun epc => ⟨.still _, rfl, rfl⟩⟩
  | cons a rest ih =>
    obtain ⟨ha, hrest⟩ := List.forall_mem_cons.1 timely
    obtain ⟨next, events, hact, hnext, -⟩ := hi.act ha
    obtain ⟨last, later, hrun, hlast, hthen⟩ := ih hnext hrest
    obtain ⟨-, hconfig, hown⟩ := hi.keyed.act hact
    refine ⟨last, events ++ later, run_cons hact hrun, hlast, fun epc => ?_⟩
    obtain ⟨hlives, hevents, hreadings⟩ := Tag.lives_incidents (hi.soundIfAny epc) (hown epc)
    obtain ⟨hlives', hevents', hreadings'⟩ := hthen epc
    simp only [← Std.TreeMap.getD_eq_getD_getElem?] at hlives
    simp only [Inventory.diary, hact]
    refine ⟨hlives.trans hlives', ?_, ?_⟩
    · rw [History.events_append, hevents, hevents', eventsOf_append]
    · rw [History.readings_append, hreadings, hreadings', readingsInAll, hconfig]

/-- What is known of a run that was made. -/
theorem Sound.of_run {inv last : Inventory R} {actions : List (InventoryAction R)}
    {events : List Event} (hi : inv.Sound) (timely : ∀ a ∈ actions, a.Timely)
    (hrun : inv.run actions = .ok (last, events)) :
    last.Sound ∧ ∀ epc, (inv.tag epc).Lives (inv.diary epc actions) (last.tag epc) := by
  obtain ⟨last', events', hrun', hlast, hdiary⟩ := hi.diary timely
  obtain ⟨rfl, -⟩ := Prod.mk.inj (Except.ok.inj (hrun.symm.trans hrun'))
  exact ⟨hlast, fun epc => (hdiary epc).1⟩

end Inventory

end TagGateway
