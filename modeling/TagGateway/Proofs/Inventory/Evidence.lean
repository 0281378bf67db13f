import Mathlib.Data.List.Induction
import TagGateway.Proofs.Inventory.Diary

set_option autoImplicit false

namespace TagGateway

variable {R : Type}

section Readings

def readingsAt (place : String) (readings : List (Sighting R)) : List (Sighting R) :=
  readings.filter (·.place = some place)

def strengthsAt (place : String) (readings : List (Sighting R)) : List R :=
  (readingsAt place readings).filterMap (·.strength)

theorem readingsAt_concat (place : String) (readings : List (Sighting R)) (s : Sighting R) :
    readingsAt place (readings ++ [s])
      = readingsAt place readings ++ if s.place = some place then [s] else [] := by
  by_cases h : s.place = some place <;> simp [readingsAt, h]

theorem strengthsAt_concat (place : String) (readings : List (Sighting R)) (s : Sighting R) :
    strengthsAt place (readings ++ [s])
      = strengthsAt place readings
        ++ if s.place = some place then s.strength.toList else [] := by
  rw [strengthsAt, readingsAt_concat, List.filterMap_append]
  refine congrArg _ ?_
  split
  · cases h : s.strength <;> simp [h]
  · rfl

theorem exists_of_strengthsAt {place : String} {readings : List (Sighting R)}
    (h : strengthsAt place readings ≠ []) : ∃ s ∈ readings, s.place = some place := by
  obtain ⟨x, hx⟩ := List.exists_mem_of_ne_nil _ h
  obtain ⟨s, hs, -⟩ := List.mem_filterMap.1 hx
  obtain ⟨hmem, hplace⟩ := List.mem_filter.1 hs
  exact ⟨s, hmem, by simpa using hplace⟩

variable [Level R]

/-- What a location makes of the readings that it had. -/
def PlaceStats.digest (readings : List (Sighting R)) : PlaceStats R :=
  readings.foldl (fun stats s => stats.update s.strength s.time) .empty

def statsOf? (place : String) (readings : List (Sighting R)) : Option (PlaceStats R) :=
  if (readingsAt place readings).isEmpty then none
  else some (.digest (readingsAt place readings))

namespace PlaceStats

@[simp] theorem digest_concat (readings : List (Sighting R)) (s : Sighting R) :
    digest (readings ++ [s]) = (digest readings).update s.strength s.time := by
  simp [digest, List.foldl_append]

theorem capacity_digest (readings : List (Sighting R)) :
    (digest readings).samples.capacity = sampleCapacity := by
  induction readings using List.reverseRecOn with
  | nil => rfl
  | append_singleton readings s ih =>
    rw [digest_concat]
    cases hs : s.strength with
    | none => exact ih
    | some x => simpa using ih

theorem count_digest (readings : List (Sighting R)) :
    (digest readings).samples.count
      = min (readings.filterMap (·.strength)).length sampleCapacity := by
  induction readings using List.reverseRecOn with
  | nil => rfl
  | append_singleton readings s ih =>
    have hcapacity := capacity_digest readings
    rw [digest_concat]
    cases hs : s.strength with
    | none => simpa [hs] using ih
    | some x =>
      simp only [samples_update_some, Window.count_add, hcapacity, ih, List.filterMap_append, hs,
        List.filterMap_cons, List.filterMap_nil, List.length_append, List.length_singleton]
      omega

end PlaceStats

theorem getD_statsOf? (place : String) (readings : List (Sighting R)) :
    (statsOf? place readings).getD .empty = .digest (readingsAt place readings) := by
  unfold statsOf?
  split
  · next h => rw [List.isEmpty_iff.1 h]; rfl
  · rfl

theorem statsOf?_concat (place : String) (readings : List (Sighting R)) (s : Sighting R) :
    statsOf? place (readings ++ [s])
      = if s.place = some place then
          some (((statsOf? place readings).getD .empty).update s.strength s.time)
        else statsOf? place readings := by
  by_cases h : s.place = some place
  · rw [if_pos h, getD_statsOf?, ← PlaceStats.digest_concat, statsOf?, readingsAt_concat, if_pos h]
    simp
  · rw [if_neg h, statsOf?, readingsAt_concat, if_neg h, List.append_nil]
    rfl

theorem count_of_statsOf? {place : String} {readings : List (Sighting R)} {p : PlaceStats R}
    (h : statsOf? place readings = some p) :
    p.samples.count = min (strengthsAt place readings).length sampleCapacity := by
  unfold statsOf? at h
  split at h
  · cases h
  · obtain rfl := Option.some.inj h
    exact PlaceStats.count_digest _

theorem strengthsAt_of_statsOf? {place : String} {readings : List (Sighting R)}
    (h : statsOf? place readings = none) : strengthsAt place readings = [] := by
  unfold statsOf? at h
  split at h
  · next hempty => rw [strengthsAt, List.isEmpty_iff.1 hempty]; rfl
  · cases h

end Readings

section Arrival

/-- The last arrival of a history, and all that came after it. -/
def SinceArrival (past since : History R) : Prop :=
  ∃ before arrival later, past = before ++ since ∧ since = arrival :: later
    ∧ arrival.2.any Event.isArrival = true
    ∧ ∀ entry ∈ later, entry.2.any Event.isArrival = false

variable {past since : History R}

theorem SinceArrival.arrive (past : History R) {entry : Incident R × Option Event}
    (h : entry.2.any Event.isArrival = true) : SinceArrival (past ++ [entry]) [entry] :=
  ⟨past, entry, [], rfl, rfl, h, nofun⟩

theorem SinceArrival.concat (h : SinceArrival past since) {entry : Incident R × Option Event}
    (hentry : entry.2.any Event.isArrival = false) :
    SinceArrival (past ++ [entry]) (since ++ [entry]) := by
  obtain ⟨before, arrival, later, rfl, rfl, harrival, hlater⟩ := h
  refine ⟨before, arrival, later ++ [entry], by simp, rfl, harrival, fun e he => ?_⟩
  rcases List.mem_append.1 he with he | he
  · exact hlater e he
  · exact List.mem_singleton.1 he ▸ hentry

end Arrival

variable [Level R]

namespace Tag

/-- While a tag is present its locations know it by the readings since its arrival. -/
def Remembers (t : Tag R) (past : History R) : Prop :=
  t.state = .present → ∃ since, SinceArrival past since
    ∧ ∀ place : String, t.stats[place]? = statsOf? place since.readings

variable {t next last : Tag R} {past : History R}

theorem getElem?_heard (t : Tag R) {s : Sighting R} {place : String} (hp : s.place = some place)
    {readings : List (Sighting R)}
    (h : ∀ place : String, t.stats[place]? = statsOf? place readings) (other : String) :
    ((t.observe s).record place s).stats[other]? = statsOf? other (readings ++ [s]) := by
  have hstats : (t.observe s).stats = t.stats := rfl
  rw [getElem?_record, statsOf?_concat, hp, Std.TreeMap.getD_eq_getD_getElem?, hstats]
  by_cases hother : place = other
  · subst hother
    rw [if_pos rfl, if_pos rfl, h]
  · rw [if_neg hother, if_neg (by simpa using hother), h]

theorem Remembers.heard (h : t.Remembers past) (here : t.state = .present) {s : Sighting R}
    {place : String} (hp : s.place = some place) {event : Option Event}
    (hevent : event.any Event.isArrival = false) :
    ∃ since, SinceArrival (past ++ [(.reading s, event)]) since
      ∧ ∀ other : String,
        ((t.observe s).record place s).stats[other]? = statsOf? other since.readings := by
  obtain ⟨since, hsince, hstats⟩ := h here
  refine ⟨since ++ [(.reading s, event)], hsince.concat hevent, fun other => ?_⟩
  rw [History.readings_concat]
  exact getElem?_heard t hp hstats other

theorem Takes.remembers {m : Mobility R} {s : Sighting R} {event : Option Event}
    (takes : t.Takes m s next event) (ht : t.Sound) (h : t.Remembers past) :
    next.Remembers (past ++ [(.reading s, event)]) := by
  intro hnext
  cases takes with
  | unplaced hp =>
    obtain ⟨since, hsince, hstats⟩ := h hnext
    refine ⟨since ++ [(.reading s, none)], hsince.concat rfl, fun place => ?_⟩
    rw [History.readings_concat, statsOf?_concat, hp, if_neg nofun]
    exact hstats place
  | @arrives place hp absent =>
    -- Whatever was read before, nothing of it is left of a tag that was not there.
    refine ⟨_, .arrive past rfl, fun other => ?_⟩
    have hnone : ∀ place : String, t.stats[place]? = statsOf? place ([] : List (Sighting R)) :=
      fun place => Std.TreeMap.getElem?_of_isEmpty (ht.isEmpty_of_absent absent)
    exact getElem?_heard t hp hnone other
  | stays hp here kept => exact h.heard here hp rfl
  | moves hp here elsewhere won => exact h.heard here hp rfl

theorem Lives.remembers {history : History R} (lives : t.Lives history last) (ht : t.Sound)
    (h : t.Remembers past) : last.Sound ∧ last.Remembers (past ++ history) := by
  induction lives generalizing past with
  | still t => exact ⟨ht, by rwa [List.append_nil]⟩
  | read sound takes later ih =>
    rw [List.append_cons]
    exact ih (takes.sound ht sound) (takes.remembers ht h)
  | depart positive overdue later ih =>
    rw [List.append_cons]
    exact ih (ht.depart positive overdue) nofun
  | forget stale later ih =>
    rw [List.append_cons]
    exact ih (sound_new _) nofun

theorem Lives.split {first rest : History R} (h : t.Lives (first ++ rest) last) :
    ∃ middle, t.Lives first middle ∧ middle.Lives rest last := by
  induction first generalizing t with
  | nil => exact ⟨t, .still t, h⟩
  | cons entry first ih =>
    cases h with
    | read sound takes later =>
      obtain ⟨middle, hfirst, hrest⟩ := ih later
      exact ⟨middle, .read sound takes hfirst, hrest⟩
    | depart positive overdue later =>
      obtain ⟨middle, hfirst, hrest⟩ := ih later
      exact ⟨middle, .depart positive overdue hfirst, hrest⟩
    | forget stale later =>
      obtain ⟨middle, hfirst, hrest⟩ := ih later
      exact ⟨middle, .forget stale hfirst, hrest⟩

theorem samples_of_shouldAssign {place : String} {time : Int64} {m : Mobility R}
    (won : t.shouldAssign place time m = .ok true) (located : t.location ≠ "")
    (elsewhere : place ≠ t.location) :
    (∀ p, t.stats[t.location]? = some p → p.samples.count = 0)
      ∨ ∃ p, t.stats[place]? = some p ∧ 2 ≤ p.samples.count := by
  unfold shouldAssign at won
  rw [if_neg (not_or.2 ⟨located, Ne.symm elsewhere⟩)] at won
  split at won
  · next hnone =>
    refine .inl fun p hp => (Window.mean?_eq_none_iff _).1 ?_
    simpa [hp, PlaceStats.mean?] using hnone
  · split at won
    · cases won
    · next challenger hchallenger =>
      obtain ⟨p, hp, -⟩ := Option.bind_eq_some_iff.1 hchallenger
      obtain ⟨hstats, hcount⟩ := Option.filter_eq_some_iff.1 hp
      exact .inr ⟨p, hstats, by simpa using hcount⟩

end Tag

def Incident.StaysAt (place : String) : Incident R → Prop
  | .reading s => s.place = none ∨ s.place = some place
  | .departure _ => False
  | .forgetting => True

/-- What a move rests on. It comes of a reading at the new location; and of the readings since the
last arrival, this one among them, none at the old location said how strong it was, or two at the
new location did. So the first of them at a new location moves no tag away from a sample. -/
def History.Supports (before : History R) (cause : Incident R) (old new : String) : Prop :=
  ∃ s since, cause = .reading s ∧ s.place = some new ∧ SinceArrival before since
    ∧ (strengthsAt old (since.readings ++ [s]) = []
      ∨ 2 ≤ (strengthsAt new (since.readings ++ [s])).length)
    ∧ (strengthsAt old since.readings ≠ [] → ∃ earlier ∈ since.readings, earlier.place = some new)

/-- A history whose moves rest on what happened before. Readings at one location, without a
departure between them, tell one thing at most. -/
structure History.Grounded (history : History R) : Prop where
  moves : ∀ (before : History R) (cause : Incident R) (epc tid : String) (time : Int64)
      (old new : String) (after : History R),
    history = before ++ (cause, some (.moved epc tid time old new)) :: after →
    before.Supports cause old new
  stretches : ∀ (before stretch after : History R) (place : String),
    history = before ++ stretch ++ after → (∀ entry ∈ stretch, entry.1.StaysAt place) →
    stretch.events.length ≤ 1

namespace Tag

variable {t next last : Tag R} {history : History R}

theorem evidence_of_shouldAssign {s : Sighting R} {m : Mobility R} {place : String}
    {readings : List (Sighting R)} (hp : s.place = some place) (located : t.location ≠ "")
    (elsewhere : place ≠ t.location)
    (hstats : ∀ place : String, t.stats[place]? = statsOf? place readings)
    (won : ((t.observe s).record place s).shouldAssign place s.time m = .ok true) :
    strengthsAt t.location (readings ++ [s]) = []
      ∨ 2 ≤ (strengthsAt place (readings ++ [s])).length := by
  have hheard := getElem?_heard t hp hstats
  rcases samples_of_shouldAssign won located elsewhere with hold | ⟨p, hnew, hcount⟩
  · refine .inl ?_
    have hview := hheard t.location
    cases hknown : statsOf? t.location (readings ++ [s]) with
    | none => exact strengthsAt_of_statsOf? hknown
    | some p =>
      have hzero := (count_of_statsOf? hknown).symm.trans (hold p (hview.trans hknown))
      have hpositive : 0 < sampleCapacity := by decide
      exact List.length_eq_zero_iff.1 (by omega)
  · have := count_of_statsOf? ((hheard place).symm.trans hnew)
    exact .inr (by omega)

theorem Lives.supports {epc about tid : String} {time : Int64} {old new : String}
    {before after : History R} {cause : Incident R}
    (h : (Tag.new epc).Lives (before ++ (cause, some (.moved about tid time old new)) :: after)
      last) : before.Supports cause old new := by
  obtain ⟨t, hbefore, hrest⟩ := h.split
  have hnew : (Tag.new epc : Tag R).Remembers [] := nofun
  obtain ⟨hsound, hremembers⟩ := hbefore.remembers (sound_new epc) hnew
  cases hrest with
  | @read _ _ _ m s _ _ sound takes later =>
    cases takes with
    | moves hp here elsewhere won =>
      obtain ⟨since, hsince, hstats⟩ := hremembers here
      have hevidence :=
        evidence_of_shouldAssign hp (hsound.present here).1 elsewhere hstats won
      refine ⟨s, since, rfl, hp, hsince, hevidence, fun hsample => ?_⟩
      -- One of the two samples may be that of the reading itself, but no more than one.
      have htwo : 2 ≤ (strengthsAt new (since.readings ++ [s])).length := by
        refine hevidence.resolve_left fun hnone => hsample ?_
        rw [strengthsAt_concat] at hnone
        exact (List.append_eq_nil_iff.1 hnone).1
      refine exists_of_strengthsAt fun hnone => ?_
      rw [strengthsAt_concat, hnone, if_pos hp] at htwo
      cases hs : s.strength <;> simp [hs] at htwo

theorem Lives.events_of_stays {place : String} (h : t.Lives history last)
    (hstays : ∀ entry ∈ history, entry.1.StaysAt place) :
    (t.state = .present → t.location = place → history.events = [])
      ∧ history.events.length ≤ 1 := by
  induction h with
  | still t => exact ⟨fun _ _ => rfl, Nat.zero_le _⟩
  | read sound takes later ih =>
    obtain ⟨hplace, hrest⟩ := List.forall_mem_cons.1 hstays
    have hlater := ih hrest
    cases takes with
    | unplaced hp => exact hlater
    | arrives hp absent =>
      obtain rfl : _ = place := by simpa [Incident.StaysAt, hp] using hplace
      refine ⟨fun here => absurd here absent, ?_⟩
      rw [History.events_cons, hlater.1 rfl rfl]
      exact Nat.le_refl 1
    | stays hp here kept => exact hlater
    | moves hp here elsewhere won =>
      obtain rfl : _ = place := by simpa [Incident.StaysAt, hp] using hplace
      refine ⟨fun _ hlocation => absurd hlocation.symm elsewhere, ?_⟩
      rw [History.events_cons, hlater.1 here rfl]
      exact Nat.le_refl 1
  | depart positive overdue later ih => exact (hstays _ List.mem_cons_self).elim
  | forget stale later ih =>
    obtain ⟨-, hrest⟩ := List.forall_mem_cons.1 hstays
    refine ⟨fun here => ?_, (ih hrest).2⟩
    simp [isStale_iff, here] at stale

theorem Lives.grounded {epc : String} (h : (Tag.new epc).Lives history last) :
    history.Grounded where
  moves before cause about tid time old new after hsplit := by
    subst hsplit
    exact h.supports
  stretches before stretch after place hsplit hstays := by
    subst hsplit
    obtain ⟨t, hbefore, -⟩ := h.split
    obtain ⟨middle, -, hstretch⟩ := hbefore.split
    exact (hstretch.events_of_stays hstays).2

end Tag

namespace Inventory

/-- Any run from an empty inventory succeeds, and each of its moves is grounded in readings of the
run: those of the tag in question, made ready by the configuration of their time. -/
theorem moves_grounded (config : InventoryConfig R) (actions : List (InventoryAction R))
    (timely : ∀ a ∈ actions, a.Timely) :
    ∃ inv events, (Inventory.new config).run actions = .ok (inv, events)
      ∧ ∀ epc, ((Inventory.new config).diary epc actions).events = eventsOf epc events
        ∧ ((Inventory.new config).diary epc actions).readings = readingsInAll config epc actions
        ∧ ((Inventory.new config).diary epc actions).Grounded := by
  obtain ⟨inv, events, hrun, -, hdiary⟩ := (sound_new config).diary timely
  refine ⟨inv, events, hrun, fun epc => ?_⟩
  obtain ⟨hlives, hevents, hreadings⟩ := hdiary epc
  rw [tag_new] at hlives
  exact ⟨hevents, hreadings, hlives.grounded⟩

/-- Two strong readings at the second antenna move a tag, not one. -/
theorem moves_grounded_second :
    let weak : Reading :=
      { shortEpc := some ⟨⟨[1]⟩⟩, fields := { antenna := some 1, peakRssi := some (-70) } }
    let strong : Reading :=
      { shortEpc := some ⟨⟨[1]⟩⟩, fields := { antenna := some 2, peakRssi := some (-30) } }
    let actions : List (InventoryAction Float) :=
      [.report "dock" 0 [weak], .report "dock" 0 [strong], .report "dock" 0 [strong]]
    (∀ a ∈ actions, a.Timely)
      ∧ ((Inventory.new .default).diary "01" actions).map Prod.snd
        = [some (.arrived "01" "" 0 "dock_1"), none,
            some (.moved "01" "" 0 "dock_1" "dock_2")]
      ∧ ((Inventory.new .default).diary "01" actions).Grounded := by
  intro weak strong actions
  have timely : ∀ a ∈ actions, a.Timely := by simp [actions]
  obtain ⟨inv, events, -, hdiary⟩ := moves_grounded .default actions timely
  exact ⟨timely, by decide +kernel, (hdiary "01").2.2⟩

end Inventory

end TagGateway
