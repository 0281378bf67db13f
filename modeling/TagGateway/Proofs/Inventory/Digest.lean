import Mathlib.Order.Bounds.Basic
import TagGateway.Proofs.Device.Parameters
import TagGateway.Proofs.Inventory.Evidence
import TagGateway.Proofs.Inventory.Noninterference
import TagGateway.Proofs.Inventory.Ring

set_option autoImplicit false

namespace TagGateway

section Latest

/-- The latest of some times, of which those before the year 1970 do not count. -/
def IsLatest (times : List Int64) (time : Int64) : Prop :=
  IsGreatest (insert 0 {t | t ∈ times}) time

variable {times times' : List Int64} {time time' : Int64}

theorem isLatest_iff :
    IsLatest times time ↔ (time = 0 ∨ time ∈ times) ∧ 0 ≤ time ∧ ∀ t ∈ times, t ≤ time := by
  simp [IsLatest, IsGreatest, upperBounds]

theorem isLatest_nil : IsLatest [] 0 := isLatest_iff.2 ⟨.inl rfl, by decide, nofun⟩

theorem le_laterOf_left (a b : Int64) : a ≤ laterOf a b := by
  rw [Int64.le_iff_toInt_le, toInt_laterOf]
  exact Int.le_max_left ..

theorem le_laterOf_right (a b : Int64) : b ≤ laterOf a b := by
  rw [Int64.le_iff_toInt_le, toInt_laterOf]
  exact Int.le_max_right ..

theorem laterOf_eq_or (a b : Int64) : laterOf a b = a ∨ laterOf a b = b := by
  unfold laterOf
  split
  · exact .inr rfl
  · exact .inl rfl

theorem IsLatest.concat (h : IsLatest times time) (t : Int64) :
    IsLatest (times ++ [t]) (laterOf time t) := by
  obtain ⟨hmem, hnonneg, hle⟩ := isLatest_iff.1 h
  refine isLatest_iff.2 ⟨?_, Int64.le_trans hnonneg (le_laterOf_left time t), fun u hu => ?_⟩
  · rcases laterOf_eq_or time t with hlater | hlater
    · rw [hlater]
      exact hmem.imp_right (List.mem_append_left _)
    · rw [hlater]
      exact .inr (List.mem_append_right _ List.mem_cons_self)
  · rcases List.mem_append.1 hu with hu | hu
    · exact Int64.le_trans (hle u hu) (le_laterOf_left time t)
    · exact List.mem_singleton.1 hu ▸ le_laterOf_right time t

theorem IsLatest.eq_of_perm (h : IsLatest times time) (h' : IsLatest times' time')
    (perm : times.Perm times') : time = time' := by
  have hset : ({t | t ∈ times} : Set Int64) = {t | t ∈ times'} :=
    Set.ext fun t => perm.mem_iff
  unfold IsLatest at h
  rw [hset] at h
  exact Int64.le_antisymm (h'.2 h.1) (h.2 h'.1)

end Latest

variable {R : Type}

def Incident.isForgetting : Incident R → Bool
  | .forgetting => true
  | .reading _ | .departure _ => false

namespace Event

def isDeparture : Event → Bool
  | departed .. => true
  | arrived .. | moved .. => false

def readTime? : Event → Option Int64
  | arrived _ _ time _ | moved _ _ time _ _ => some time
  | departed .. => none

end Event

namespace History

def sinceForgotten (history : History R) : History R :=
  history.rtakeWhile fun (incident, _) => !incident.isForgetting

def sinceDeparted (history : History R) : History R :=
  history.sinceForgotten.rtakeWhile fun (_, event) => !event.any Event.isDeparture

def Kept (history : History R) : Prop := ∀ entry ∈ history, entry.1.isForgetting = false

def Ordered (history : History R) : Prop :=
  ∀ before stretch after : History R, history = before ++ stretch ++ after → stretch.Kept →
    (stretch.events.filterMap Event.readTime?).Pairwise (· ≤ ·)

variable {incident : Incident R} {event : Option Event}

theorem sinceForgotten_concat (past : History R) (kept : incident.isForgetting = false)
    (event : Option Event) :
    (past ++ [(incident, event)]).sinceForgotten = past.sinceForgotten ++ [(incident, event)] :=
  List.rtakeWhile_concat_pos _ _ _ (by simp [kept])

theorem sinceForgotten_forgetting (past : History R) (event : Option Event) :
    (past ++ [(Incident.forgetting, event)]).sinceForgotten = [] :=
  List.rtakeWhile_concat_neg _ _ _ (by simp [Incident.isForgetting])

theorem sinceForgotten_append {later : History R} (past : History R) (kept : later.Kept) :
    (past ++ later).sinceForgotten = past.sinceForgotten ++ later := by
  induction later using List.reverseRecOn with
  | nil => rw [List.append_nil, List.append_nil]
  | append_singleton later entry ih =>
    obtain ⟨hlater, hentry⟩ := List.forall_mem_append.1 kept
    rw [← List.append_assoc, sinceForgotten_concat _ (hentry _ List.mem_cons_self), ih hlater,
      List.append_assoc]

theorem sinceDeparted_concat (past : History R) (kept : incident.isForgetting = false)
    (here : event.any Event.isDeparture = false) :
    (past ++ [(incident, event)]).sinceDeparted = past.sinceDeparted ++ [(incident, event)] := by
  rw [sinceDeparted, sinceForgotten_concat past kept]
  exact List.rtakeWhile_concat_pos _ _ _ (by simp [here])

theorem sinceDeparted_departure (past : History R) (kept : incident.isForgetting = false)
    (gone : event.any Event.isDeparture = true) :
    (past ++ [(incident, event)]).sinceDeparted = [] := by
  rw [sinceDeparted, sinceForgotten_concat past kept]
  exact List.rtakeWhile_concat_neg _ _ _ (by simp [gone])

end History

variable [Level R]

/-- What a location has of its readings: their latest time, and the last twenty samples among
them. -/
structure PlaceStats.Digests (p : PlaceStats R) (readings : List (Sighting R)) : Prop where
  lastRead : IsLatest (readings.map (·.time)) p.lastRead
  samples : p.samples.toList = (readings.filterMap (·.strength)).rtake 20

theorem PlaceStats.digests_digest (readings : List (Sighting R)) :
    (digest readings).Digests readings := by
  induction readings using List.reverseRecOn with
  | nil => exact ⟨isLatest_nil, rfl⟩
  | append_singleton readings s ih =>
    rw [digest_concat]
    constructor
    · rw [List.map_append]
      exact ih.lastRead.concat s.time
    · rw [List.filterMap_append]
      cases hs : s.strength with
      | none => simpa [hs] using ih.samples
      | some x =>
        have hsamples : ((digest readings).update (some x) s.time).samples
            = (digest readings).samples.add x := rfl
        have hone : [s].filterMap (·.strength) = [x] := by simp [hs]
        have hcapacity : sampleCapacity = 20 := rfl
        rw [hsamples, hone, Window.toList_add, rtake_concat _ _ (by decide), count_digest,
          capacity_digest, ih.samples, hcapacity]
        split <;> rfl

namespace Tag

/-- What a record has of a tag's history: the latest time of the readings since the record was made,
and what each location has of its own since the tag departed. -/
structure Digests (t : Tag R) (history : History R) : Prop where
  lastRead : IsLatest (history.sinceForgotten.readings.map (·.time)) t.lastRead
  heard : ∀ place : String, t.stats[place]? = none
    ↔ readingsAt place history.sinceDeparted.readings = []
  stats : ∀ (place : String) (p : PlaceStats R), t.stats[place]? = some p →
    p.Digests (readingsAt place history.sinceDeparted.readings)

structure Follows (t : Tag R) (past : History R) : Prop where
  lastRead : IsLatest (past.sinceForgotten.readings.map (·.time)) t.lastRead
  stats : ∀ place : String, t.stats[place]? = statsOf? place past.sinceDeparted.readings

variable {t next last : Tag R} {past history : History R} {m : Mobility R} {s : Sighting R}
  {event : Option Event}

theorem Follows.digests (h : t.Follows past) : t.Digests past where
  lastRead := h.lastRead
  heard place := by
    rw [h.stats, statsOf?]
    split <;> simp_all
  stats place p hp := by
    rw [h.stats, statsOf?] at hp
    split at hp
    · cases hp
    · obtain rfl := Option.some.inj hp
      exact PlaceStats.digests_digest _

theorem Takes.lastRead_eq (takes : t.Takes m s next event) :
    next.lastRead = laterOf t.lastRead s.time := by
  cases takes <;> rfl

theorem Takes.isDeparture (takes : t.Takes m s next event) :
    event.any Event.isDeparture = false := by
  cases takes <;> rfl

theorem Takes.readTimes (takes : t.Takes m s next event) :
    event.toList.filterMap Event.readTime? = []
      ∨ event.toList.filterMap Event.readTime? = [next.lastRead] := by
  cases takes with
  | unplaced hp => exact .inl rfl
  | arrives hp absent => exact .inr rfl
  | stays hp here kept => exact .inl rfl
  | moves hp here elsewhere won => exact .inr rfl

theorem Takes.getElem?_stats (takes : t.Takes m s next event) {readings : List (Sighting R)}
    (h : ∀ place : String, t.stats[place]? = statsOf? place readings) (place : String) :
    next.stats[place]? = statsOf? place (readings ++ [s]) := by
  cases takes with
  | unplaced hp =>
    rw [statsOf?_concat, hp, if_neg nofun]
    exact h place
  | arrives hp absent => exact getElem?_heard t hp h place
  | stays hp here kept => exact getElem?_heard t hp h place
  | moves hp here elsewhere won => exact getElem?_heard t hp h place

theorem Takes.follows (takes : t.Takes m s next event) (h : t.Follows past) :
    next.Follows (past ++ [(.reading s, event)]) := by
  constructor
  · rw [History.sinceForgotten_concat past rfl, History.readings_concat, List.map_append,
      takes.lastRead_eq]
    exact h.lastRead.concat s.time
  · rw [History.sinceDeparted_concat past rfl takes.isDeparture, History.readings_concat]
    exact takes.getElem?_stats h.stats

theorem Follows.depart (h : t.Follows past) (now : Int64) :
    (t.depart now).Follows (past ++ [(.departure now, some (t.departure now))]) := by
  constructor
  · rw [History.sinceForgotten_concat past rfl, History.readings_append, List.map_append]
    exact (List.append_nil _).symm ▸ h.lastRead
  · intro place
    rw [History.sinceDeparted_departure past rfl rfl]
    exact Std.TreeMap.getElem?_emptyc

theorem Follows.forget (epc : String) (past : History R) :
    (Tag.new epc : Tag R).Follows (past ++ [(.forgetting, none)]) := by
  constructor
  · rw [History.sinceForgotten_forgetting]
    exact isLatest_nil
  · intro place
    rw [History.sinceDeparted, History.sinceForgotten_forgetting]
    exact Std.TreeMap.getElem?_emptyc

theorem Lives.follows (lives : t.Lives history last) (h : t.Follows past) :
    last.Follows (past ++ history) := by
  induction lives generalizing past with
  | still t => rwa [List.append_nil]
  | read sound takes later ih =>
    rw [List.append_cons]
    exact ih (takes.follows h)
  | @depart t _ now _ _ positive overdue later ih =>
    rw [List.append_cons]
    exact ih (h.depart now)
  | @forget t _ _ _ stale later ih =>
    rw [List.append_cons]
    exact ih (.forget t.epc past)

theorem follows_new (epc : String) : (Tag.new epc : Tag R).Follows [] where
  lastRead := isLatest_nil
  stats _ := Std.TreeMap.getElem?_emptyc

theorem Lives.pairwise_readTimes (lives : t.Lives history last) (kept : history.Kept) :
    t.lastRead ≤ last.lastRead
      ∧ (t.lastRead :: history.events.filterMap Event.readTime?).Pairwise (· ≤ ·) := by
  induction lives with
  | still t => exact ⟨Int64.le_refl _, List.pairwise_singleton ..⟩
  | @read t next _ _ s event rest sound takes later ih =>
    obtain ⟨hle, htimes⟩ := ih (List.forall_mem_cons.1 kept).2
    have hnext : t.lastRead ≤ next.lastRead := takes.lastRead_eq ▸ le_laterOf_left ..
    have hboth : (t.lastRead :: next.lastRead
        :: rest.events.filterMap Event.readTime?).Pairwise (· ≤ ·) := by
      refine List.pairwise_cons.2 ⟨fun time htime => ?_, htimes⟩
      rcases List.mem_cons.1 htime with rfl | htime
      · exact hnext
      · exact Int64.le_trans hnext ((List.pairwise_cons.1 htimes).1 time htime)
    refine ⟨Int64.le_trans hnext hle, ?_⟩
    rw [History.events_cons, List.filterMap_append]
    rcases takes.readTimes with htold | htold
    · rw [htold]
      exact hboth.sublist ((List.sublist_cons_self ..).cons_cons _)
    · rw [htold]
      exact hboth
  | depart positive overdue later ih => exact ih (List.forall_mem_cons.1 kept).2
  | forget stale later ih => cases kept _ List.mem_cons_self

theorem Lives.ordered (lives : t.Lives history last) : history.Ordered := by
  intro before stretch after hsplit kept
  subst hsplit
  obtain ⟨middle, hbefore, -⟩ := lives.split
  obtain ⟨first, -, hstretch⟩ := hbefore.split
  exact (List.pairwise_cons.1 (hstretch.pairwise_readTimes kept).2).2

/-- There is a record of a tag if it was read since it was forgotten last. -/
def Known (record : Option (Tag R)) (past : History R) : Prop :=
  record = none ↔ past.sinceForgotten.readings = []

variable {c : InventoryConfig R} {epc : String} {record after : Option (Tag R)}
  {events : List Event}

theorem kept_taken (m : Mobility R) (record : Option (Tag R)) (readings : List (Sighting R)) :
    (taken m record readings).Kept := by
  induction readings generalizing record with
  | nil => nofun
  | cons s rest ih =>
    unfold taken
    split
    · nofun
    · exact List.forall_mem_cons.2 ⟨rfl, ih _⟩

theorem takeAll_eq_none {readings : List (Sighting R)}
    (h : takeAll m record readings = .ok (after, events)) :
    after = none ↔ record = none ∧ readings = [] := by
  induction readings generalizing record events with
  | nil =>
    cases h
    simp
  | cons s rest ih =>
    unfold takeAll at h
    split at h
    · cases h
    · split at h
      · cases h
      · next hlater =>
        obtain ⟨rfl, -⟩ := Prod.mk.inj (Except.ok.inj h)
        simp [ih hlater]

omit [Level R] in
theorem Known.append (h : Known record past) (kept : history.Kept)
    (hafter : after = none ↔ record = none ∧ history.readings = []) :
    Known after (past ++ history) := by
  unfold Known at *
  rw [History.sinceForgotten_append past kept, History.readings_append, List.append_eq_nil_iff,
    hafter, h]

theorem Known.act (h : Known record past) (hr : SoundIfAny epc record) {a : InventoryAction R}
    (hact : Tag.act c epc record a = .ok (after, events)) :
    Known after (past ++ incidents c epc record a) := by
  have hreadings := (lives_incidents hr hact).2.2
  cases a with
  | report device origin batch =>
    refine h.append (kept_taken c.mobility record _) ?_
    rw [hreadings]
    exact takeAll_eq_none hact
  | sweepDeparted now =>
    obtain ⟨expiry, hexpiry, rfl, -⟩ := departs_of_act hact
    refine h.append ?_ (by simp [hreadings, readingsIn])
    simp only [incidents, hexpiry]
    intro entry hentry
    obtain ⟨t, -, rfl⟩ := Option.map_eq_some_iff.1 (Option.mem_toList.1 hentry)
    rfl
  | ageOut now =>
    obtain ⟨expiry, hexpiry, rfl, -⟩ := forgets_of_act hact
    simp only [incidents, hexpiry]
    cases record with
    | none => simpa using h
    | some t =>
      simp only [Option.filter_some]
      cases t.isStale expiry with
      | true =>
        refine ⟨fun _ => ?_, fun _ => rfl⟩
        exact congrArg History.readings (History.sinceForgotten_forgetting past none)
      | false =>
        show Known (some t) (past ++ [])
        rwa [List.append_nil]
  | updateConfig config =>
    obtain ⟨rfl, -⟩ := Prod.mk.inj (Except.ok.inj hact)
    simpa [incidents] using h

end Tag

/-- A reading takes effect as strong as the vendor's value says, which is in hundredths, or for want
of that as the standard's does. -/
structure Sighting.IsOf (s : Sighting R) (r : Reading) : Prop where
  epc : r.epc? = some s.epc
  vendor : ∀ n, Impinj.FirstPeak r.custom n → s.strength = some (Level.ratio n 100)
  standard : (∀ n, ¬Impinj.FirstPeak r.custom n) →
    s.strength = r.fields.peakRssi.map fun dbm => Level.ofInt dbm.toInt

theorem Reading.isOf_sighting {r : Reading} {c : InventoryConfig R} {device : String}
    {origin : Int64} {offset : Int} {s : Sighting R}
    (h : r.sighting? c device origin offset = some s) : s.IsOf r := by
  obtain ⟨epc, hepc, rfl⟩ := Option.map_eq_some_iff.1 h
  refine ⟨hepc, fun n hn => ?_, fun hnone => ?_⟩
  · rw [← Impinj.peakRssi?_eq_some_iff] at hn
    simp [strength?, hn]
  · have hnone : Impinj.peakRssi? r.custom = none :=
      Option.eq_none_iff_forall_ne_some.2 fun n hn => hnone n (Impinj.peakRssi?_eq_some_iff.1 hn)
    simp [strength?, hnone]

theorem exists_of_mem_readingsInAll {config : InventoryConfig R} {epc : String}
    {actions : List (InventoryAction R)} {s : Sighting R}
    (h : s ∈ readingsInAll config epc actions) :
    ∃ device origin batch r, .report device origin batch ∈ actions ∧ r ∈ batch ∧ s.IsOf r := by
  induction actions generalizing config with
  | nil => cases h
  | cons a rest ih =>
    rcases List.mem_append.1 h with hfirst | hlater
    · cases a with
      | report device origin batch =>
        obtain ⟨r, hread, hready⟩ := List.mem_filterMap.1 hfirst
        exact ⟨device, origin, batch, r, List.mem_cons_self, (List.mem_filter.1 hread).1,
          Reading.isOf_sighting hready⟩
      | sweepDeparted now => cases hfirst
      | ageOut now => cases hfirst
      | updateConfig config' => cases hfirst
    · obtain ⟨device, origin, batch, r, hmem, hread⟩ := ih hlater
      exact ⟨device, origin, batch, r, List.mem_cons_of_mem _ hmem, hread⟩

namespace Inventory

variable {config : InventoryConfig R} {inv middle last : Inventory R}
  {actions : List (InventoryAction R)} {told : List (List Event)} {epc : String}

theorem Course.diary_append (h : inv.Course actions told middle) (epc : String)
    (rest : List (InventoryAction R)) :
    inv.diary epc (actions ++ rest) = inv.diary epc actions ++ middle.diary epc rest := by
  induction h with
  | done inv => rfl
  | act step later ih => simp only [List.cons_append, diary, step, ih, List.append_assoc]

theorem Course.known (h : inv.Course actions told last) (hi : inv.Sound)
    (timely : ∀ a ∈ actions, a.Timely) {past : History R}
    (known : Tag.Known inv.tags[epc]? past) :
    Tag.Known last.tags[epc]? (past ++ inv.diary epc actions) := by
  induction h generalizing past with
  | done inv => rwa [diary, List.append_nil]
  | @act inv next last a rest events told step later ih =>
    obtain ⟨ha, hrest⟩ := List.forall_mem_cons.1 timely
    have hown := (hi.keyed.act step).2.2 epc
    simp only [diary, step]
    rw [← List.append_assoc]
    exact ih (hi.of_act ha step) hrest (known.act (hi.soundIfAny epc) hown)

theorem Course.lastRead_le (h : inv.Course actions told last) (hi : inv.Sound)
    (timely : ∀ a ∈ actions, a.Timely) (kept : (inv.diary epc actions).Kept) {past : History R}
    (known : Tag.Known inv.tags[epc]? past) {t : Tag R} (ht : inv.tags[epc]? = some t) :
    ∃ t', last.tags[epc]? = some t' ∧ t.lastRead ≤ t'.lastRead := by
  have hlives := (hi.of_run timely (run_eq_ok_iff.2 ⟨told, h, rfl⟩)).2 epc
  have hle := (hlives.pairwise_readTimes kept).1
  rw [tag_of_getElem? ht] at hle
  cases hlast : last.tags[epc]? with
  | none =>
    have hnone := (h.known hi timely known).1 hlast
    rw [History.sinceForgotten_append past kept, History.readings_append] at hnone
    have := known.2 (List.append_eq_nil_iff.1 hnone).1
    rw [ht] at this
    cases this
  | some t' =>
    rw [tag_of_getElem? hlast] at hle
    exact ⟨t', rfl, hle⟩

/-- What a run from an empty inventory makes of the record of one tag. It is there if the tag was
read since it was forgotten last, and it is the digest of the tag's diary. While the tag is not
forgotten the time of its record does not go back, nor do those of its events; and that time is the
same after any other run with the same times, in whatever order. -/
structure Recorded (config : InventoryConfig R) (actions : List (InventoryAction R)) (epc : String)
    (inv : Inventory R) : Prop where
  eq_none_iff : inv.tags[epc]? = none
    ↔ ((Inventory.new config).diary epc actions).sinceForgotten.readings = []
  digests : ∀ t, inv.tags[epc]? = some t → t.Digests ((Inventory.new config).diary epc actions)
  ordered : ((Inventory.new config).diary epc actions).Ordered
  monotone : ∀ first rest, actions = first ++ rest → ∃ middle told,
    (Inventory.new config).run first = .ok (middle, told)
      ∧ (Inventory.new config).diary epc actions
        = (Inventory.new config).diary epc first ++ middle.diary epc rest
      ∧ ((middle.diary epc rest).Kept → ∀ t, middle.tags[epc]? = some t →
        ∃ t', inv.tags[epc]? = some t' ∧ t.lastRead ≤ t'.lastRead)
  order_free : ∀ (config' : InventoryConfig R) (actions' : List (InventoryAction R))
      (inv' : Inventory R) (events' : List Event), (∀ a ∈ actions', a.Timely) →
    (Inventory.new config').run actions' = .ok (inv', events') →
    (((Inventory.new config).diary epc actions).sinceForgotten.readings.map (·.time)).Perm
      (((Inventory.new config').diary epc actions').sinceForgotten.readings.map (·.time)) →
    ∀ t t', inv.tags[epc]? = some t → inv'.tags[epc]? = some t' → t.lastRead = t'.lastRead

theorem digests_of_run (timely : ∀ a ∈ actions, a.Timely) {events : List Event}
    (hrun : (Inventory.new config).run actions = .ok (inv, events)) {t : Tag R}
    (ht : inv.tags[epc]? = some t) : t.Digests ((Inventory.new config).diary epc actions) := by
  have hlives := ((sound_new config).of_run timely hrun).2 epc
  rw [tag_new, tag_of_getElem? ht] at hlives
  exact (hlives.follows (Tag.follows_new epc)).digests

theorem known_of_run (timely : ∀ a ∈ actions, a.Timely) {events : List Event}
    (hrun : (Inventory.new config).run actions = .ok (inv, events)) (epc : String) :
    Tag.Known inv.tags[epc]? ((Inventory.new config).diary epc actions) := by
  obtain ⟨told, hcourse, -⟩ := run_eq_ok_iff.1 hrun
  have hnew : Tag.Known (Inventory.new config).tags[epc]? ([] : History R) := by
    simp [Tag.Known, new, History.sinceForgotten, History.readings]
  exact hcourse.known (sound_new config) timely hnew

theorem recorded_of_run (timely : ∀ a ∈ actions, a.Timely) {events : List Event}
    (hrun : (Inventory.new config).run actions = .ok (inv, events)) (epc : String) :
    Recorded config actions epc inv where
  eq_none_iff := known_of_run timely hrun epc
  digests t ht := digests_of_run timely hrun ht
  ordered := (((sound_new config).of_run timely hrun).2 epc).ordered
  monotone first rest hsplit := by
    subst hsplit
    obtain ⟨hfirst, hrest⟩ := List.forall_mem_append.1 timely
    obtain ⟨told, hcourse, -⟩ := run_eq_ok_iff.1 hrun
    obtain ⟨middle, before, after, hbefore, hafter, -⟩ := hcourse.split
    have hmiddle := run_eq_ok_iff.2 ⟨before, hbefore, rfl⟩
    have hsound := ((sound_new config).of_run hfirst hmiddle).1
    exact ⟨middle, _, hmiddle, hbefore.diary_append epc rest, fun kept t ht =>
      hafter.lastRead_le hsound hrest kept (known_of_run hfirst hmiddle epc) ht⟩
  order_free config' actions' inv' events' timely' hrun' perm t t' ht ht' :=
    (digests_of_run timely hrun ht).lastRead.eq_of_perm (digests_of_run timely' hrun' ht').lastRead
      perm

/-- Any run from an empty inventory succeeds, and leaves of each tag the digest of its history: the
readings of the run that are the tag's, made ready by the configuration of their time, each as
strong as the vendor's value says, or for want of that the standard's. -/
theorem records_digest (config : InventoryConfig R) (actions : List (InventoryAction R))
    (timely : ∀ a ∈ actions, a.Timely) :
    ∃ inv events, (Inventory.new config).run actions = .ok (inv, events)
      ∧ ∀ epc, ((Inventory.new config).diary epc actions).events = eventsOf epc events
        ∧ ((Inventory.new config).diary epc actions).readings = readingsInAll config epc actions
        ∧ (∀ s ∈ readingsInAll config epc actions, ∃ device origin batch r,
          .report device origin batch ∈ actions ∧ r ∈ batch ∧ s.IsOf r)
        ∧ Recorded config actions epc inv := by
  obtain ⟨inv, events, hrun, -, hdiary⟩ := (sound_new config).diary timely
  refine ⟨inv, events, hrun, fun epc => ?_⟩
  obtain ⟨-, hevents, hreadings⟩ := hdiary epc
  exact ⟨hevents, hreadings, fun s => exists_of_mem_readingsInAll, recorded_of_run timely hrun epc⟩

/-- A tag departs and is read again, by a reader whose time is earlier: the record keeps its time,
and the new location goes by its own. -/
theorem records_digest_back :
    let reading (antenna : UInt16) (dbm : Int8) : Reading :=
      { shortEpc := some ⟨⟨[1]⟩⟩, fields := { antenna := some antenna, peakRssi := some dbm } }
    let actions : List (InventoryAction Float) :=
      [.report "dock" 5000000000 [reading 1 (-70)], .sweepDeparted 1000000,
        .report "dock" 3000000000 [reading 2 (-30)]]
    let diary := (Inventory.new .default).diary "01" actions
    (∀ a ∈ actions, a.Timely)
      ∧ diary.sinceForgotten.readings.map (·.time) = [5000, 3000]
      ∧ diary.events.filterMap Event.readTime? = [5000, 5000]
      ∧ ∃ inv events t p, (Inventory.new .default).run actions = .ok (inv, events)
        ∧ inv.tags["01"]? = some t ∧ t.lastRead = 5000
        ∧ t.stats["dock_2"]? = some p ∧ p.lastRead = 3000 ∧ p.samples.count = 1 := by
  intro reading actions diary
  have timely : ∀ a ∈ actions, a.Timely := by simp [actions]
  have htimes : diary.sinceForgotten.readings.map (·.time) = [5000, 3000] := by decide +kernel
  have hthere : (readingsAt "dock_2" diary.sinceDeparted.readings).map (·.time) = [3000] := by
    decide +kernel
  have hstrengths : ((readingsAt "dock_2" diary.sinceDeparted.readings).filterMap
      (·.strength)).length = 1 := by decide +kernel
  obtain ⟨inv, events, hrun, hall⟩ := records_digest .default actions timely
  obtain ⟨-, -, -, hrecorded⟩ := hall "01"
  have hread : inv.tags["01"]? ≠ none := fun hnone => by
    rw [hrecorded.eq_none_iff.1 hnone] at htimes
    cases htimes
  obtain ⟨t, ht⟩ := Option.ne_none_iff_exists'.1 hread
  have hdigests := hrecorded.digests t ht
  have hheard : t.stats["dock_2"]? ≠ none := fun hnone => by
    rw [(hdigests.heard "dock_2").1 hnone] at hthere
    cases hthere
  obtain ⟨p, hp⟩ := Option.ne_none_iff_exists'.1 hheard
  have hplace := hdigests.stats "dock_2" p hp
  have hlatest : IsLatest [5000, 3000] 5000 := (isLatest_nil.concat 5000).concat 3000
  have hlatest' : IsLatest [3000] 3000 := isLatest_nil.concat 3000
  refine ⟨timely, htimes, by decide +kernel, inv, events, t, p, hrun, ht, ?_, hp, ?_, ?_⟩
  · exact (htimes ▸ hdigests.lastRead).eq_of_perm hlatest (.refl _)
  · exact (hthere ▸ hplace.lastRead).eq_of_perm hlatest' (.refl _)
  · rw [← Window.length_toList, hplace.samples, List.rtake, List.length_drop, hstrengths]

end Inventory

end TagGateway
