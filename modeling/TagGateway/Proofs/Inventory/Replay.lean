import Mathlib.Data.List.Forall2
import TagGateway.Proofs.Inventory.History

set_option autoImplicit false

namespace TagGateway

inductive Whereabouts where
  | never
  | present (location : String)
  | departed (location : String)
  deriving DecidableEq, Repr

namespace Whereabouts

def hear : Whereabouts → Event → Option Whereabouts
  | never, .arrived _ _ _ location => some (present location)
  | departed _, .arrived _ _ _ location => some (present location)
  | present location, .moved _ _ _ old new =>
    if old = location ∧ new ≠ location then some (present new) else none
  | present location, .departed _ _ _ _ lastKnown =>
    if lastKnown = location then some (departed location) else none
  | _, _ => none

def hearAll (w : Whereabouts) (events : List Event) : Option Whereabouts := events.foldlM hear w

theorem hearAll_append (w : Whereabouts) (a b : List Event) :
    w.hearAll (a ++ b) = (w.hearAll a).bind (·.hearAll b) := List.foldlM_append

end Whereabouts

def Tag.Heard {R : Type} (t : Tag R) (w : Whereabouts) : Prop :=
  match t.state with
  | .present => w = .present t.location
  | .departed => w = .departed t.location
  | .unknown => w = .never ∨ ∃ location, w = .departed location

structure Inventory.Agrees {R : Type} (inv : Inventory R) (epc : String) (w : Whereabouts) :
    Prop where
  present : ∀ location : String, w = .present location ↔
    ∃ t, inv.tags[epc]? = some t ∧ t.state = .present ∧ t.location = location
  departed : ∀ t : Tag R, inv.tags[epc]? = some t → t.state = .departed → w = .departed t.location
  absent : (∀ t : Tag R, inv.tags[epc]? = some t → t.state = .unknown) →
    w = .never ∨ ∃ location, w = .departed location

def Event.destination? : Event → Option String
  | .arrived _ _ _ location => some location
  | .moved _ _ _ _ new => some new
  | .departed .. => none

/-- What a location is called: by its alias, if that is not empty, or else by its own text. -/
structure InventoryConfig.Calls {R : Type} (c : InventoryConfig R) (device : String)
    (antenna : UInt16) (location : String) : Prop where
  aliased : ∀ name, c.aliases[locationText device antenna]? = some name → name ≠ "" →
    location = name
  unaliased : (∀ name, c.aliases[locationText device antenna]? = some name → name = "") →
    location = locationText device antenna

theorem InventoryConfig.calls_locationName {R : Type} (c : InventoryConfig R) (device : String)
    (antenna : UInt16) : c.Calls device antenna (c.locationName device antenna) where
  aliased _ h hname := locationName_of_alias h hname
  unaliased := locationName_of_no_alias

/-- Whether an event can have come of a reading by a device. -/
def Event.CausedBy {R : Type} (c : InventoryConfig R) (device : String) (r : Reading) (e : Event) :
    Prop :=
  r.epc? = some e.epc ∧ ∃ antenna location, r.fields.antenna = some antenna
    ∧ c.Calls device antenna location ∧ e.destination? = some location

namespace Tag

variable {R : Type}

theorem heard_present {t : Tag R} (h : t.state = .present) : t.Heard (.present t.location) := by
  simp [Heard, h]

theorem Heard.eq_present {t : Tag R} {w : Whereabouts} (hw : t.Heard w) (h : t.state = .present) :
    w = .present t.location := by
  simpa [Heard, h] using hw

theorem Heard.eq_departed {t : Tag R} {w : Whereabouts} (hw : t.Heard w)
    (h : t.state = .departed) : w = .departed t.location := by
  simpa [Heard, h] using hw

theorem Heard.hear_arrived {t : Tag R} {w : Whereabouts} (hw : t.Heard w)
    (absent : t.state ≠ .present) (epc tid : String) (time : Int64) (location : String) :
    w.hear (.arrived epc tid time location) = some (.present location) := by
  cases h : t.state with
  | unknown =>
    rw [Heard, h] at hw
    obtain rfl | ⟨l, rfl⟩ := hw <;> rfl
  | present => exact absurd h absent
  | departed => rw [hw.eq_departed h]; rfl

variable [Level R]

theorem Takes.heard {t next : Tag R} {m : Mobility R} {s : Sighting R} {event : Option Event}
    {w : Whereabouts} (h : t.Takes m s next event) (hw : t.Heard w) :
    ∃ w', w.hearAll event.toList = some w' ∧ next.Heard w' := by
  cases h with
  | unplaced hp => exact ⟨w, rfl, hw⟩
  | @arrives place hp absent =>
    refine ⟨.present place, ?_, heard_present rfl⟩
    simp [Whereabouts.hearAll, hw.hear_arrived absent]
  | stays hp here kept =>
    obtain rfl := hw.eq_present here
    exact ⟨_, rfl, heard_present here⟩
  | @moves place hp here elsewhere won =>
    obtain rfl := hw.eq_present here
    refine ⟨.present place, ?_, heard_present here⟩
    simp [Whereabouts.hearAll, Whereabouts.hear, elsewhere]

theorem Lives.heard {t last : Tag R} {history : History R} (h : t.Lives history last)
    {w : Whereabouts} (hw : t.Heard w) :
    ∃ w', w.hearAll history.events = some w' ∧ last.Heard w' := by
  induction h generalizing w with
  | still t => exact ⟨w, rfl, hw⟩
  | @read t next last m s event rest sound takes later ih =>
    obtain ⟨w₁, hfirst, hw₁⟩ := takes.heard hw
    obtain ⟨w₂, hrest, hw₂⟩ := ih hw₁
    refine ⟨w₂, ?_, hw₂⟩
    rw [History.events_cons, Whereabouts.hearAll_append, hfirst]
    exact hrest
  | @depart t last now threshold rest positive overdue later ih =>
    have here : t.state = .present := by
      rw [isOverdue_iff] at overdue
      exact overdue.1
    obtain rfl := hw.eq_present here
    obtain ⟨w', hrest, hw'⟩ := ih (w := .departed t.location) rfl
    have hfirst : (Whereabouts.present t.location).hearAll [t.departure now]
        = some (.departed t.location) := by
      simp [Whereabouts.hearAll, Whereabouts.hear, departure]
    refine ⟨w', ?_, hw'⟩
    rw [History.events_cons, Whereabouts.hearAll_append, Option.toList_some, hfirst]
    exact hrest
  | @forget t last expiry rest stale later ih =>
    have gone : t.state = .departed := by
      rw [isStale_iff] at stale
      exact stale.1
    obtain rfl := hw.eq_departed gone
    -- No event tells of this: the listener stays at the departure, the record starts anew.
    obtain ⟨w', hrest, hw'⟩ := ih (w := .departed t.location) (.inr ⟨_, rfl⟩)
    exact ⟨w', hrest, hw'⟩

theorem Takes.destination {t next : Tag R} {m : Mobility R} {s : Sighting R} {e : Event}
    (h : t.Takes m s next (some e)) :
    ∃ place, s.place = some place ∧ e.destination? = some place := by
  cases h with
  | @arrives place hp absent => exact ⟨place, hp, rfl⟩
  | @moves place hp here elsewhere won => exact ⟨place, hp, rfl⟩

end Tag

namespace Inventory

variable {R : Type}

theorem agrees_of_heard {inv : Inventory R} {epc : String} {w : Whereabouts}
    (h : (inv.tag epc).Heard w) : inv.Agrees epc w where
  present location := by
    constructor
    · rintro rfl
      cases ht : inv.tags[epc]? with
      | none =>
        rw [tag_of_none ht] at h
        simp [Tag.Heard] at h
      | some t =>
        rw [tag_of_getElem? ht] at h
        cases hs : t.state <;> simp [Tag.Heard, hs] at h
        exact ⟨t, rfl, hs, h.symm⟩
    · rintro ⟨t, ht, hs, rfl⟩
      rw [tag_of_getElem? ht] at h
      exact h.eq_present hs
  departed t ht hs := by
    rw [tag_of_getElem? ht] at h
    exact h.eq_departed hs
  absent hu := by
    have hstate : (inv.tag epc).state = .unknown := by
      cases ht : inv.tags[epc]? with
      | none => rw [tag_of_none ht]; rfl
      | some t => rw [tag_of_getElem? ht]; exact hu t ht
    simpa [Tag.Heard, hstate] using h

variable [Level R]

/-- The events of a batch come of its readings, one of each at most. -/
theorem Reads.causedBy {inv last : Inventory R} {c : InventoryConfig R} {device : String}
    {origin : Int64} {offset : Int} {batch : List Reading} {outcomes : List (Option Event)}
    (h : Reads (·.sighting? c device origin offset) inv batch last outcomes) (hi : inv.Sound) :
    List.Forall₂ (fun r outcome => ∀ e ∈ outcome, e.CausedBy c device r) batch outcomes := by
  induction h with
  | done inv => exact .nil
  | skip hr rest ih => exact .cons (by simp) (ih hi)
  | @take inv next last r s batch event outcomes hr step rest ih =>
    obtain ⟨hnext, htakes, -⟩ := hi.of_sight (Reading.sighting_sound hr) step
    refine .cons (fun e he => ?_) (ih hnext)
    obtain rfl : event = some e := he
    obtain ⟨epc, hepc, rfl⟩ := Option.map_eq_some_iff.1 hr
    obtain ⟨place, hplace, hdestination⟩ := htakes.destination
    obtain ⟨antenna, hantenna, rfl⟩ := Option.map_eq_some_iff.1 hplace
    refine ⟨?_, antenna, _, hantenna, c.calls_locationName device antenna, hdestination⟩
    rw [hepc, htakes.event_epc, (hi.tag _).1]

/-- Any run from an empty inventory succeeds. The events of each tag make sense one after the
other, and tell in the end where the inventory has the tag; and whatever batch comes next, its
events come of its readings in their order, at most one of each and about its tag, and name the
location of the reading's antenna. -/
theorem hearAll_run (config : InventoryConfig R) (actions : List (InventoryAction R))
    (timely : ∀ a ∈ actions, a.Timely) :
    ∃ inv events, (Inventory.new config).run actions = .ok (inv, events)
      ∧ (∀ epc, ∃ w, Whereabouts.never.hearAll (eventsOf epc events) = some w ∧ inv.Agrees epc w)
      ∧ ∀ device origin batch, ∃ last outcomes,
        Reads (inv.ready device origin batch) inv batch last outcomes
        ∧ inv.report device origin batch = (last, .ok outcomes.reduceOption)
        ∧ List.Forall₂ (fun r outcome => ∀ e ∈ outcome, e.CausedBy inv.config device r)
          batch outcomes := by
  obtain ⟨inv, events, hrun, hsound, hhistory⟩ := (sound_new config).run timely
  refine ⟨inv, events, hrun, fun epc => ?_, fun device origin batch => ?_⟩
  · obtain ⟨history, hlives, hevents⟩ := hhistory epc
    rw [tag_new] at hlives
    obtain ⟨w, hw, hheard⟩ := hlives.heard (w := .never) (.inl rfl)
    exact ⟨w, hevents ▸ hw, agrees_of_heard hheard⟩
  · obtain ⟨last, outcomes, hreads, -⟩ :=
      hsound.reads (inv.ready device origin batch) ready_sound batch
    exact ⟨last, outcomes, hreads, report_of_reads hreads, hreads.causedBy hsound⟩

/-- A tag arrives at a location with an alias, departs, is forgotten and arrives anew at one
without. -/
theorem hearAll_run_return :
    let config : InventoryConfig Float :=
      { InventoryConfig.default with aliases := .ofList [("dock_1", "Gate"), ("dock_2", "")] }
    let reading (antenna : UInt16) : Reading :=
      { shortEpc := some ⟨⟨[1]⟩⟩, fields := { antenna := some antenna } }
    let actions : List (InventoryAction Float) :=
      [.report "dock" 0 [reading 1], .sweepDeparted 1000000, .ageOut 2000000000000,
        .report "dock" 0 [reading 2]]
    (∀ a ∈ actions, a.Timely)
      ∧ ((Inventory.new config).run actions).map (·.2)
        = .ok [.arrived "01" "" 0 "Gate", .departed "01" "" 1000000 0 "Gate",
            .arrived "01" "" 0 "dock_2"]
      ∧ ∃ inv events, (Inventory.new config).run actions = .ok (inv, events)
        ∧ ∀ epc, ∃ w, Whereabouts.never.hearAll (eventsOf epc events) = some w
          ∧ inv.Agrees epc w := by
  intro config reading actions
  have timely : ∀ a ∈ actions, a.Timely := by simp [actions]
  refine ⟨timely, by decide +kernel, ?_⟩
  obtain ⟨inv, events, hrun, hheard, -⟩ := hearAll_run config actions timely
  exact ⟨inv, events, hrun, hheard⟩

end Inventory

end TagGateway
