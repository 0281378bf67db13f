import TagGateway.Proofs.Inventory.Digest
import TagGateway.Proofs.Inventory.Windows

set_option autoImplicit false

namespace TagGateway

structure Location where
  device : String
  antenna : UInt16
  deriving DecidableEq, Repr

def Location.text (l : Location) : String := locationText l.device l.antenna

section Text

theorem append_cons_inj {α : Type} {a : α} {xs xs' zs zs' : List α} (h : a ∉ zs) (h' : a ∉ zs')
    (heq : xs ++ a :: zs = xs' ++ a :: zs') : xs = xs' ∧ zs = zs' := by
  rcases List.append_eq_append_iff.1 heq with ⟨middle, rfl, hrest⟩ | ⟨middle, rfl, hrest⟩
  · cases middle with
    | nil => exact ⟨(List.append_nil _).symm, (List.cons.inj hrest).2⟩
    | cons b middle =>
      obtain ⟨-, rfl⟩ := List.cons.inj hrest
      exact absurd (by simp) h
  · cases middle with
    | nil => exact ⟨List.append_nil _, (List.cons.inj hrest).2.symm⟩
    | cons b middle =>
      obtain ⟨-, rfl⟩ := List.cons.inj hrest
      exact absurd (by simp) h'

theorem underscore_not_mem_toDigits (n : Nat) : '_' ∉ Nat.toDigits 10 n := by
  intro hmem
  have hdigit := Nat.isDigit_of_mem_toDigits (by decide) (by decide) hmem
  exact absurd hdigit (by decide)

theorem toList_locationText (device : String) (antenna : UInt16) :
    (locationText device antenna).toList
      = device.toList ++ '_' :: Nat.toDigits 10 antenna.toNat := by
  have hnumber : (toString antenna.toNat).toList = Nat.toDigits 10 antenna.toNat :=
    Nat.toList_repr
  rw [locationText, String.toList_append, String.toList_append, hnumber, List.append_assoc]
  rfl

theorem locationText_inj {device device' : String} {antenna antenna' : UInt16} :
    locationText device antenna = locationText device' antenna'
      ↔ device = device' ∧ antenna = antenna' := by
  constructor
  · intro h
    have htext := congrArg String.toList h
    rw [toList_locationText, toList_locationText] at htext
    obtain ⟨hdevice, hdigits⟩ := append_cons_inj (underscore_not_mem_toDigits _)
      (underscore_not_mem_toDigits _) htext
    have hantenna : antenna.toNat = antenna'.toNat := by
      rw [← Nat.ofDigitChars_ten_toDigits (n := antenna.toNat), hdigits,
        Nat.ofDigitChars_ten_toDigits]
    exact ⟨String.toList_inj.1 hdevice, UInt16.toNat_inj.1 hantenna⟩
  · rintro ⟨rfl, rfl⟩
    rfl

theorem Location.text_inj {l l' : Location} : l.text = l'.text ↔ l = l' := by
  rw [text, text, locationText_inj, Location.mk.injEq]

end Text

def InventoryConfig.Unaliased {R : Type} (c : InventoryConfig R) : Prop := c.aliases.isEmpty = true

theorem InventoryConfig.Unaliased.locationName {R : Type} {c : InventoryConfig R}
    (h : c.Unaliased) (device : String) (antenna : UInt16) :
    c.locationName device antenna = locationText device antenna := by
  refine InventoryConfig.locationName_of_no_alias fun name hname => ?_
  rw [Std.TreeMap.getElem?_of_isEmpty h] at hname
  cases hname

variable {R : Type}

section Traced

/-- A reading of a tag, ready to take effect, and where it was made, if its reader said that. -/
structure Traced (R : Type) where
  source : Option Location
  sighting : Sighting R

def readingsBy (l : Location) (traced : List (Traced R)) : List (Sighting R) :=
  (traced.filter (·.source = some l)).map (·.sighting)

theorem readingsAt_text {traced : List (Traced R)}
    (h : ∀ x ∈ traced, x.sighting.place = x.source.map Location.text) (l : Location) :
    readingsAt l.text (traced.map (·.sighting)) = readingsBy l traced := by
  rw [readingsAt, List.filter_map, readingsBy]
  refine congrArg _ (List.filter_congr fun x hx => ?_)
  cases hsource : x.source with
  | none => simp [h x hx, hsource]
  | some l' => simp [h x hx, hsource, Location.text_inj]

variable [Level R]

def tracedIn (c : InventoryConfig R) (epc : String) : InventoryAction R → List (Traced R)
  | .report device origin batch =>
    (readingsOf epc batch).filterMap fun r =>
      (r.sighting? c device origin (Inventory.batchOffset c origin batch)).map fun sighting =>
        { source := r.fields.antenna.map fun antenna => { device, antenna }, sighting }
  | .sweepDeparted _ | .ageOut _ | .updateConfig _ => []

def tracedInAll (c : InventoryConfig R) (epc : String) :
    List (InventoryAction R) → List (Traced R)
  | [] => []
  | a :: rest => tracedIn c epc a ++ tracedInAll (c.after a) epc rest

def InventoryAction.Unaliased : InventoryAction R → Prop
  | .updateConfig config => config.Unaliased
  | .report .. | .sweepDeparted _ | .ageOut _ => True

variable {c : InventoryConfig R} {epc : String} {a : InventoryAction R}
  {actions : List (InventoryAction R)}

theorem InventoryConfig.Unaliased.after (h : c.Unaliased) (ha : a.Unaliased) :
    (c.after a).Unaliased := by
  cases a with
  | updateConfig config =>
    simp only [InventoryConfig.after]
    split
    · exact ha
    · exact h
  | _ => exact h

theorem sightings_tracedIn (c : InventoryConfig R) (epc : String) (a : InventoryAction R) :
    (tracedIn c epc a).map (·.sighting) = readingsIn c epc a := by
  cases a with
  | report device origin batch =>
    simp [tracedIn, readingsIn, List.map_filterMap, Function.comp_def]
  | _ => rfl

theorem sightings_tracedInAll (c : InventoryConfig R) (epc : String)
    (actions : List (InventoryAction R)) :
    (tracedInAll c epc actions).map (·.sighting) = readingsInAll c epc actions := by
  induction actions generalizing c with
  | nil => rfl
  | cons a rest ih =>
    rw [tracedInAll, readingsInAll, List.map_append, sightings_tracedIn, ih]

theorem place_of_tracedIn (h : c.Unaliased) :
    ∀ x ∈ tracedIn c epc a, x.sighting.place = x.source.map Location.text := by
  intro x hx
  cases a with
  | report device origin batch =>
    obtain ⟨r, -, hready⟩ := List.mem_filterMap.1 hx
    obtain ⟨s, hs, rfl⟩ := Option.map_eq_some_iff.1 hready
    obtain ⟨-, -, rfl⟩ := Option.map_eq_some_iff.1 hs
    have hname : c.locationName device = locationText device :=
      funext fun antenna => h.locationName device antenna
    simp [hname, Location.text, Function.comp_def]
  | _ => cases hx

theorem place_of_tracedInAll (epc : String) (h : c.Unaliased)
    (unaliased : ∀ a ∈ actions, a.Unaliased) :
    ∀ x ∈ tracedInAll c epc actions, x.sighting.place = x.source.map Location.text := by
  induction actions generalizing c with
  | nil => nofun
  | cons a rest ih =>
    obtain ⟨ha, hrest⟩ := List.forall_mem_cons.1 unaliased
    exact List.forall_mem_append.2 ⟨place_of_tracedIn h, ih (h.after ha) hrest⟩

end Traced

section Located

def Sighting.Located (s : Sighting R) : Prop :=
  ∀ place, s.place = some place → ∃ l : Location, place = l.text

def Tag.Located (t : Tag R) : Prop :=
  ∀ place : String, place ∈ t.stats → ∃ l : Location, place = l.text

def Event.Located : Event → Prop
  | .arrived _ _ _ place | .departed _ _ _ _ place => ∃ l : Location, place = l.text
  | .moved _ _ _ old new => ∃ l l' : Location, l ≠ l' ∧ old = l.text ∧ new = l'.text

namespace Tag

variable [Level R] {t next last : Tag R} {m : Mobility R} {s : Sighting R} {event : Option Event}
  {history : History R}

omit [Level R] in
theorem located_of_isEmpty (h : t.stats.isEmpty) : t.Located :=
  fun _ hmem => absurd hmem (Std.TreeMap.not_mem_of_isEmpty h)

theorem Located.heard (h : t.Located) (hs : s.Located) {place : String}
    (hp : s.place = some place) : ((t.observe s).record place s).Located := by
  intro other hother
  rcases Std.TreeMap.mem_insert.1 hother with hsame | hold
  · rw [← Std.compare_eq_iff_eq.1 hsame]
    exact hs place hp
  · exact h other hold

theorem Takes.located (takes : t.Takes m s next event) (ht : t.Sound) (h : t.Located)
    (hs : s.Located) : next.Located ∧ ∀ e ∈ event, e.Located := by
  cases takes with
  | unplaced hp => exact ⟨h, nofun⟩
  | arrives hp absent =>
    refine ⟨h.heard hs hp, fun e he => ?_⟩
    cases he
    exact hs _ hp
  | stays hp here kept => exact ⟨h.heard hs hp, nofun⟩
  | moves hp here elsewhere won =>
    refine ⟨h.heard hs hp, fun e he => ?_⟩
    cases he
    obtain ⟨l, hold⟩ := h t.location (ht.present here).2
    obtain ⟨l', hnew⟩ := hs _ hp
    refine ⟨l, l', ?_, hold, hnew⟩
    rintro rfl
    exact elsewhere (hnew.trans hold.symm)

theorem Lives.located (lives : t.Lives history last) (ht : t.Sound) (h : t.Located)
    (hs : ∀ s ∈ history.readings, s.Located) :
    last.Located ∧ ∀ e ∈ history.events, e.Located := by
  induction lives with
  | still t => exact ⟨h, nofun⟩
  | @read _ next _ _ s event rest sound takes later ih =>
    obtain ⟨hfirst, hrest⟩ := List.forall_mem_cons.1 hs
    obtain ⟨hnext, hevent⟩ := takes.located ht h hfirst
    obtain ⟨hlast, hlater⟩ := ih (takes.sound ht sound) hnext hrest
    rw [History.events_cons]
    exact ⟨hlast, List.forall_mem_append.2
      ⟨fun e he => hevent e (Option.mem_toList.1 he), hlater⟩⟩
  | @depart t _ now _ _ positive overdue later ih =>
    have here : t.state = .present := by
      rw [isOverdue_iff] at overdue
      exact overdue.1
    obtain ⟨hlast, hlater⟩ := ih (ht.depart positive overdue) (located_of_isEmpty rfl) hs
    exact ⟨hlast, List.forall_mem_cons.2 ⟨h t.location (ht.present here).2, hlater⟩⟩
  | @forget t _ _ _ stale later ih => exact ih (sound_new t.epc) (located_of_isEmpty rfl) hs

end Tag

end Located

variable [Level R]

/-- What a tag's record has of the readings since it departed last: each location its own. -/
structure Tag.KeepsApart (t : Tag R) (recent : List (Traced R)) : Prop where
  heard : ∀ l : Location, t.stats[l.text]? = none ↔ readingsBy l recent = []
  stats : ∀ (l : Location) (p : PlaceStats R), t.stats[l.text]? = some p →
    p.Digests (readingsBy l recent)
  places : t.Located

omit [Level R] in
theorem Tag.Digests.keepsApart {t : Tag R} {history : History R} (h : t.Digests history)
    {recent : List (Traced R)} (hrecent : recent.map (·.sighting) = history.sinceDeparted.readings)
    (hplaces : ∀ x ∈ recent, x.sighting.place = x.source.map Location.text) (located : t.Located) :
    t.KeepsApart recent where
  heard l := by
    rw [h.heard, ← hrecent, readingsAt_text hplaces]
  stats l p hp := by
    rw [← readingsAt_text hplaces, hrecent]
    exact h.stats l.text p hp
  places := located

omit [Level R] in
theorem History.readings_sinceDeparted (history : History R) :
    ∃ earlier, history.readings = earlier ++ history.sinceDeparted.readings := by
  have hsuffix : history.sinceDeparted <:+ history :=
    (List.rtakeWhile_suffix _ _).trans (List.rtakeWhile_suffix _ _)
  obtain ⟨earlier, hsplit⟩ := hsuffix
  refine ⟨History.readings earlier, ?_⟩
  rw [← History.readings_append, hsplit]

theorem Tag.getElem?_sight_of_ne {t : Tag R} {s : Sighting R} {place : String}
    (h : s.place ≠ some place) (m : Mobility R) :
    (t.sight m s).1.stats[place]? = t.stats[place]? := by
  unfold Tag.sight
  split
  · rfl
  · next other hother =>
    have hne : other ≠ place := by
      rintro rfl
      exact h hother
    have hrecord : ((t.observe s).record other s).stats[place]? = t.stats[place]? := by
      rw [getElem?_record, if_neg hne]
      rfl
    dsimp only
    split
    · exact hrecord
    · dsimp only
      rw [stats_settle]
      exact hrecord

namespace Inventory

variable {inv next : Inventory R} {epc : String} {actions : List (InventoryAction R)}

theorem getElem?_sight_of_elsewhere {place : String} {s : Sighting R}
    (h : s.epc = epc → s.place ≠ some place) (inv : Inventory R) :
    ((inv.sight s).1.tag epc).stats[place]? = (inv.tag epc).stats[place]? := by
  have hview := sight_tags inv s epc
  by_cases hepc : epc = s.epc
  · subst hepc
    rw [if_pos rfl] at hview
    rw [tag_of_getElem? hview]
    exact Tag.getElem?_sight_of_ne (h rfl) _
  · rw [if_neg hepc] at hview
    rw [tag_congr hview]

theorem getElem?_report_of_elsewhere (h : inv.config.Unaliased) {device : String} {origin : Int64}
    {batch : List Reading} {l : Location}
    (elsewhere : ∀ r ∈ batch, r.epc? = some epc → ∀ antenna, r.fields.antenna = some antenna →
      ({ device, antenna } : Location) ≠ l) :
    ((inv.report device origin batch).1.tag epc).stats[l.text]?
      = (inv.tag epc).stats[l.text]? := by
  refine sightAll_keeps (P := fun next => (next.tag epc).stats[l.text]? = _)
    (fun s hs next hnext => (getElem?_sight_of_elsewhere (fun hepc hplace => ?_) next).trans hnext)
    rfl
  obtain ⟨r, hr, hready⟩ := List.mem_filterMap.1 hs
  obtain ⟨epc', hread, rfl⟩ := Option.map_eq_some_iff.1 hready
  obtain rfl : epc' = epc := hepc
  obtain ⟨antenna, hantenna, hname⟩ := Option.map_eq_some_iff.1 hplace
  rw [h.locationName] at hname
  exact elsewhere r hr hread antenna hantenna (Location.text_inj.1 hname)

/-- The inventories there are where no location ever has an alias: those that readings, sweeps,
configurations and restores lead to from empty ones. A restore takes the snapshot of such an
inventory. -/
inductive Unaliased : Inventory R → Prop where
  | new {config : InventoryConfig R} (unaliased : config.Unaliased) : Unaliased (.new config)
  | act {inv next : Inventory R} {a : InventoryAction R} {events : List Event}
    (before : Unaliased inv) (timely : a.Timely) (unaliased : a.Unaliased)
    (step : inv.act a = .ok (next, events)) : Unaliased next
  | restore {inv source : Inventory R} (before : Unaliased inv) (taken : Unaliased source) :
    Unaliased (inv.restore source.snapshot)

theorem Unaliased.reachable (h : inv.Unaliased) : inv.Reachable := by
  induction h with
  | new unaliased => exact .new _
  | act before timely unaliased step ih => exact ih.act timely step
  | restore before taken ih ihsource => exact ih.restore ihsource

theorem Unaliased.config (h : inv.Unaliased) : inv.config.Unaliased := by
  induction h with
  | new unaliased => exact unaliased
  | act before timely unaliased step ih =>
    rw [(before.reachable.sound.keyed.act step).2.1]
    exact ih.after unaliased
  | restore before taken ih ihsource => exact ih

def Located (inv : Inventory R) : Prop := ∀ epc, (inv.tag epc).Located

theorem Sound.located_act (hi : inv.Sound) (located : inv.Located) (h : inv.config.Unaliased)
    {a : InventoryAction R} {events : List Event} (step : inv.act a = .ok (next, events)) :
    next.Located ∧ ∀ e ∈ events, e.Located := by
  have hown (epc : String) : (next.tag epc).Located ∧ ∀ e ∈ eventsOf epc events, e.Located := by
    obtain ⟨hlives, hevents, hreadings⟩ :=
      Tag.lives_incidents (hi.soundIfAny epc) ((hi.keyed.act step).2.2 epc)
    simp only [← Std.TreeMap.getD_eq_getD_getElem?] at hlives
    rw [← hevents]
    refine hlives.located (hi.tag epc).2 (located epc) fun s hs => ?_
    rw [hreadings, ← sightings_tracedIn] at hs
    obtain ⟨x, hx, rfl⟩ := List.mem_map.1 hs
    intro place hplace
    rw [place_of_tracedIn h x hx] at hplace
    obtain ⟨l, -, rfl⟩ := Option.map_eq_some_iff.1 hplace
    exact ⟨l, rfl⟩
  refine ⟨fun epc => (hown epc).1, fun e he => ?_⟩
  exact (hown e.epc).2 e (List.mem_filter.2 ⟨he, by simp⟩)

theorem Located.restore (h : inv.Located) {source : Inventory R} (hsource : source.Located)
    (keyed : source.Keyed) : (inv.restore source.snapshot).Located := by
  intro epc
  have hkeyed : ∀ (epc : String) (t : Tag R), source.tags[epc]? = some t → t.snapshot.epc = epc :=
    keyed
  have hview : (inv.restore source.snapshot).tags[epc]?
      = (source.tags[epc]?.map fun t => Tag.ofRecord t.snapshot).or inv.tags[epc]? :=
    restore_map_tags inv hkeyed epc
  cases hthere : source.tags[epc]? with
  | none =>
    rw [hthere, Option.map_none, Option.none_or] at hview
    exact tag_congr hview ▸ h epc
  | some t =>
    rw [hthere, Option.map_some, Option.some_or] at hview
    rw [tag_of_getElem? hview]
    intro place hplace
    have hmem : place ∈ t.stats :=
      (t.recalls_snapshot.mem_stats_iff place).1 (by simpa using hplace)
    have hlocated := hsource epc
    rw [tag_of_getElem? hthere] at hlocated
    exact hlocated place hmem

theorem Unaliased.located (h : inv.Unaliased) : inv.Located := by
  induction h with
  | new unaliased =>
    intro epc
    rw [tag_new]
    exact Tag.located_of_isEmpty rfl
  | act before timely unaliased step ih =>
    exact (before.reachable.sound.located_act ih before.config step).1
  | restore before taken ih ihsource => exact ih.restore ihsource taken.reachable.sound.keyed

theorem Unaliased.run (h : inv.Unaliased) (timely : ∀ a ∈ actions, a.Timely)
    (unaliased : ∀ a ∈ actions, a.Unaliased) :
    ∃ last events, inv.run actions = .ok (last, events) ∧ last.Unaliased
      ∧ ∀ e ∈ events, e.Located := by
  induction actions generalizing inv with
  | nil => exact ⟨inv, [], rfl, h, nofun⟩
  | cons a rest ih =>
    obtain ⟨ha, hrest⟩ := List.forall_mem_cons.1 timely
    obtain ⟨hbare, hbares⟩ := List.forall_mem_cons.1 unaliased
    obtain ⟨next, events, hact, -⟩ := h.reachable.sound.act ha
    obtain ⟨last, later, hrun, hlast, htold⟩ := ih (h.act ha hbare hact) hrest hbares
    have hevents := (h.reachable.sound.located_act h.located h.config hact).2
    exact ⟨last, events ++ later, run_cons hact hrun, hlast,
      List.forall_mem_append.2 ⟨hevents, htold⟩⟩

/-- The record of a tag after a run has of each location that location's readings since the tag
departed last. -/
theorem keepsApart_of_run {config : InventoryConfig R} (h : config.Unaliased)
    (timely : ∀ a ∈ actions, a.Timely) (unaliased : ∀ a ∈ actions, a.Unaliased)
    {events : List Event} (hrun : (Inventory.new config).run actions = .ok (inv, events))
    {t : Tag R} (ht : inv.tags[epc]? = some t) :
    ∃ earlier recent, tracedInAll config epc actions = earlier ++ recent
      ∧ recent.map (·.sighting)
        = ((Inventory.new config).diary epc actions).sinceDeparted.readings
      ∧ t.KeepsApart recent := by
  obtain ⟨last, told, hrun', hlast, -⟩ := (Unaliased.new h).run timely unaliased
  obtain ⟨rfl, rfl⟩ := Prod.mk.inj (Except.ok.inj (hrun.symm.trans hrun'))
  obtain ⟨last, told, hrun', -, hdiary⟩ := (sound_new config).diary timely
  have hreadings := (hdiary epc).2.2
  obtain ⟨past, hpast⟩ :=
    ((Inventory.new config).diary epc actions).readings_sinceDeparted
  have hsplit : (tracedInAll config epc actions).map (·.sighting)
      = past ++ ((Inventory.new config).diary epc actions).sinceDeparted.readings := by
    rw [sightings_tracedInAll, ← hpast, hreadings]
    rfl
  obtain ⟨earlier, recent, htraced, -, hrecent⟩ := List.map_eq_append_iff.1 hsplit
  have hplaces := place_of_tracedInAll epc h unaliased
  rw [htraced] at hplaces
  refine ⟨earlier, recent, htraced, hrecent,
    (digests_of_run timely hrun ht).keepsApart hrecent
      (fun x hx => hplaces x (List.mem_append_right _ hx)) ?_⟩
  rw [← tag_of_getElem? ht]
  exact hlast.located epc

/-- No two locations share a text. A location is never nameless, and goes by its text unless it has
an alias. So where none ever has, what a location knows of a tag changes with its own readings
alone; a run leaves of each tag what each location read of it since it departed last, and no other
places than locations; and what is told of tags, also after restores, is told of locations, each
move from one to another. -/
theorem locations_apart (R : Type) [Level R] :
    (∀ (device device' : String) (antenna antenna' : UInt16),
      locationText device antenna = locationText device' antenna'
        ↔ device = device' ∧ antenna = antenna')
    ∧ (∀ (c : InventoryConfig R) (device : String) (antenna : UInt16),
      c.locationName device antenna ≠ ""
      ∧ ((∀ name, c.aliases[locationText device antenna]? = some name → name = "") →
        c.locationName device antenna = locationText device antenna))
    ∧ (∀ (inv : Inventory R) (epc device : String) (origin : Int64) (batch : List Reading)
        (l : Location), inv.config.Unaliased →
      (∀ r ∈ batch, r.epc? = some epc → ∀ antenna, r.fields.antenna = some antenna →
        ({ device, antenna } : Location) ≠ l) →
      ((inv.report device origin batch).1.tag epc).stats[l.text]?
        = (inv.tag epc).stats[l.text]?)
    ∧ (∀ (config : InventoryConfig R) (actions : List (InventoryAction R)), config.Unaliased →
      (∀ a ∈ actions, a.Timely) → (∀ a ∈ actions, a.Unaliased) →
      ∃ inv events, (Inventory.new config).run actions = .ok (inv, events)
        ∧ ∀ epc, ((Inventory.new config).diary epc actions).events = eventsOf epc events
          ∧ ∀ t, inv.tags[epc]? = some t →
            ∃ earlier recent, tracedInAll config epc actions = earlier ++ recent
              ∧ recent.map (·.sighting)
                = ((Inventory.new config).diary epc actions).sinceDeparted.readings
              ∧ t.KeepsApart recent)
    ∧ ∀ (inv : Inventory R) (actions : List (InventoryAction R)), inv.Unaliased →
      (∀ a ∈ actions, a.Timely) → (∀ a ∈ actions, a.Unaliased) →
      ∃ last events, inv.run actions = .ok (last, events) ∧ last.Unaliased
        ∧ ∀ e ∈ events, e.Located := by
  refine ⟨fun device device' antenna antenna' => locationText_inj, fun c device antenna =>
    ⟨locationName_ne_empty c device antenna, InventoryConfig.locationName_of_no_alias⟩,
    fun inv epc device origin batch l h elsewhere => getElem?_report_of_elsewhere h elsewhere,
    fun config actions h timely unaliased => ?_,
    fun inv actions h timely unaliased => h.run timely unaliased⟩
  obtain ⟨inv, events, hrun, -, hdiary⟩ := (sound_new config).diary timely
  exact ⟨inv, events, hrun, fun epc =>
    ⟨(hdiary epc).2.1, fun t ht => keepsApart_of_run h timely unaliased hrun ht⟩⟩

/-- A reader whose name is the text of another one's location: a tag moves from the one to the
other. -/
theorem locations_apart_underscore :
    let weak : Reading :=
      { shortEpc := some ⟨⟨[1]⟩⟩, fields := { antenna := some 1, peakRssi := some (-70) } }
    let strong : Reading :=
      { shortEpc := some ⟨⟨[1]⟩⟩, fields := { antenna := some 1, peakRssi := some (-30) } }
    let first : Inventory Float := .new .default
    let actions : List (InventoryAction Float) :=
      [.report "dock_1" 0 [weak], .report "dock" 0 [strong], .report "dock" 0 [strong]]
    let sources := (tracedInAll first.config "01" actions).map (·.source)
    (first.run actions).map (·.2)
        = .ok [.arrived "01" "" 0 "dock_1_1", .moved "01" "" 0 "dock_1_1" "dock_1"]
      ∧ first.config.locationName "dock_1" 1 = "dock_1_1"
      ∧ sources = [some ⟨"dock_1", 1⟩, some ⟨"dock", 1⟩, some ⟨"dock", 1⟩]
      ∧ ((first.report "dock_1" 0 [weak]).1.tag "01").stats["dock_1"]? = none
      ∧ ∃ inv events t recent, first.run actions = .ok (inv, events) ∧ inv.Unaliased
        ∧ (∀ e ∈ events, e.Located) ∧ inv.tags["01"]? = some t ∧ t.KeepsApart recent := by
  intro weak strong first actions sources
  have timely : ∀ a ∈ actions, a.Timely := by simp [actions]
  have unaliased : ∀ a ∈ actions, a.Unaliased := by simp [actions, InventoryAction.Unaliased]
  have hconfig : first.config.Unaliased := rfl
  have hthere : ((first.run actions).map (·.1.tags["01"]?.isSome)) = .ok true := by decide +kernel
  obtain ⟨-, hnames, helsewhere, hkept, hruns⟩ := locations_apart Float
  obtain ⟨inv, events, hrun, hrecords⟩ := hkept first.config actions hconfig timely unaliased
  obtain ⟨last, told, hrun', hlast, hlocated⟩ := hruns first actions (.new hconfig) timely unaliased
  obtain ⟨rfl, rfl⟩ := Prod.mk.inj (Except.ok.inj (hrun.symm.trans hrun'))
  have hrun : first.run actions = .ok (inv, events) := hrun
  rw [hrun] at hthere
  obtain ⟨t, ht⟩ := Option.isSome_iff_exists.1 (Except.ok.inj hthere)
  obtain ⟨-, recent, -, -, hapart⟩ := (hrecords "01").2 t ht
  refine ⟨by decide +kernel, (hnames first.config "dock_1" 1).2 (by simp [first, Inventory.new,
    InventoryConfig.default]), by decide +kernel, ?_,
    inv, events, t, recent, hrun, hlast, hlocated, ht, hapart⟩
  exact helsewhere first "01" "dock_1" 0 [weak] ⟨"dock", 1⟩ hconfig fun _ _ _ _ _ => by simp

end Inventory

end TagGateway
