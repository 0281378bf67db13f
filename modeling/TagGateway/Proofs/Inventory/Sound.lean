import TagGateway.Proofs.Inventory.Run

/-!
What holds of every record that a run reaches. A tag is located exactly while it is present, its
locations know of no time later than the tag's own, and no time is so far off that a difference of
two of them overflows. Main statements: a reading has one of four effects on a sound record, and
every action on a sound inventory succeeds and leaves it sound.
-/

set_option autoImplicit false

namespace TagGateway

/-- No reading takes effect later than this, and none as long before the year 1970. -/
def farthestMillis : Int := 0x8000000000000000 / 1000

@[simp] theorem toInt_laterOf (a b : Int64) : (laterOf a b).toInt = max a.toInt b.toInt := by
  unfold laterOf
  split <;> rename_i h <;> rw [Int64.lt_iff_toInt_lt] at h <;> omega

theorem tdiv_bounds {n d : Int} (hd : 1000 ≤ d) (hn : fitsWord n = true) :
    -farthestMillis ≤ n.tdiv d ∧ n.tdiv d ≤ farthestMillis := by
  have hw := fitsWord_iff.1 hn
  have habs : (n.tdiv d).natAbs ≤ n.natAbs / 1000 := by
    rw [Int.natAbs_tdiv]
    exact Nat.div_le_div_left (by omega) (by decide)
  unfold farthestMillis
  omega

theorem toInt_ofInt_tdiv {n d : Int} (hd : 1000 ≤ d) (hn : fitsWord n = true) :
    (Int64.ofInt (n.tdiv d)).toInt = n.tdiv d := by
  have h := tdiv_bounds hd hn
  unfold farthestMillis at h
  exact Int64.toInt_ofInt_of_le (by omega) (by omega)

theorem fitsWord_toInt (a : Int64) : fitsWord a.toInt = true :=
  fitsWord_iff.2 ⟨a.le_toInt, a.toInt_lt⟩

theorem effectiveMillis_bounds (origin : Int64) (offset : Int) (r : Reading) :
    -farthestMillis ≤ (effectiveMillis origin offset r).toInt
      ∧ (effectiveMillis origin offset r).toInt ≤ farthestMillis := by
  unfold effectiveMillis
  cases r.seenMicros? with
  | some t =>
    have hw := fitsWord_clampWord (t + offset)
    simp only [toInt_ofInt_tdiv (Int.le_refl _) hw]
    exact tdiv_bounds (Int.le_refl _) hw
  | none =>
    have hw := fitsWord_toInt origin
    simp only [originMillis, toInt_ofInt_tdiv (show (1000 : Int) ≤ 1000000 by decide) hw]
    exact tdiv_bounds (by decide) hw

theorem locationName_ne_empty {R : Type} (c : InventoryConfig R) (device : String)
    (antenna : UInt16) : c.locationName device antenna ≠ "" := by
  have htext : locationText device antenna ≠ "" := by
    intro h
    have := congrArg String.length h
    simp [locationText] at this
  unfold InventoryConfig.locationName
  split
  · split
    · exact htext
    · assumption
  · exact htext

variable {R : Type}

/-- What holds of a reading ready to take effect. -/
structure Sighting.Sound (s : Sighting R) : Prop where
  place_ne : s.place ≠ some ""
  time_ge : -farthestMillis ≤ s.time.toInt
  time_le : s.time.toInt ≤ farthestMillis

structure PlaceStats.Sound (s : PlaceStats R) (lastRead : Int64) : Prop where
  nonneg : 0 ≤ s.lastRead.toInt
  le : s.lastRead.toInt ≤ lastRead.toInt
  capacity : s.samples.capacity = sampleCapacity

structure Tag.Timed (t : Tag R) : Prop where
  nonneg : 0 ≤ t.lastRead.toInt
  le : t.lastRead.toInt ≤ farthestMillis
  arrived_le : t.lastArrived.toInt ≤ t.lastRead.toInt
  place_ne : t.stats[""]? = none
  stats : ∀ (place : String) (s : PlaceStats R), t.stats[place]? = some s → s.Sound t.lastRead

structure Tag.Sound (t : Tag R) : Prop extends t.Timed where
  unknown : t.state = .unknown →
    t.location = "" ∧ t.stats.isEmpty ∧ t.lastArrived = 0 ∧ t.lastDeparted = 0
  present : t.state = .present → t.location ≠ "" ∧ t.location ∈ t.stats
  departed : t.state = .departed →
    t.location ≠ "" ∧ t.stats.isEmpty ∧ t.lastArrived.toInt < t.lastDeparted.toInt

theorem Tag.sound_new (epc : String) : (Tag.new epc : Tag R).Sound where
  nonneg := by simp
  le := by simp [farthestMillis]
  arrived_le := by simp
  place_ne := by simp
  stats := by simp
  unknown := by simp
  present := by simp
  departed := by simp

theorem Tag.Timed.observe {t : Tag R} {s : Sighting R} (ht : t.Timed) (hs : s.Sound) :
    (t.observe s).Timed where
  nonneg := by
    have := ht.nonneg
    simp only [lastRead_observe, toInt_laterOf]
    omega
  le := by
    have := ht.le
    have := hs.time_le
    simp only [lastRead_observe, toInt_laterOf]
    omega
  arrived_le := by
    have := ht.arrived_le
    simp only [lastArrived_observe, lastRead_observe, toInt_laterOf]
    omega
  place_ne := ht.place_ne
  stats place p hp := by
    have hold := ht.stats place p hp
    have := hold.le
    refine { hold with le := ?_ }
    simp only [lastRead_observe, toInt_laterOf]
    omega

namespace Tag

theorem Sound.isEmpty_of_absent {t : Tag R} (ht : t.Sound) (absent : t.state ≠ .present) :
    t.stats.isEmpty := by
  cases h : t.state with
  | unknown => exact (ht.unknown h).2.1
  | present => exact absurd h absent
  | departed => exact (ht.departed h).2.1

theorem Sound.depart {t : Tag R} {now : Int64} {threshold : Int} (ht : t.Sound)
    (h0 : 0 ≤ threshold) (h : t.isOverdue (now.toInt - threshold)) : (t.depart now).Sound := by
  obtain ⟨here, overdue⟩ := isOverdue_iff.1 h
  have hloc := (ht.present here).1
  have := ht.arrived_le
  exact
    { nonneg := ht.nonneg
      le := ht.le
      arrived_le := ht.arrived_le
      place_ne := by simp
      stats := by simp
      unknown := nofun
      present := nofun
      departed := fun _ => ⟨hloc, by simp, by
        simp only [lastArrived_depart, lastDeparted_depart]
        omega⟩ }

theorem settle_absent {t : Tag R} (absent : t.state ≠ .present) (place : String) :
    t.settle place
      = ({ t with location := place, state := .present, lastArrived := t.lastRead },
         some (.arrived t.epc t.tid t.lastRead place)) := by
  unfold settle
  cases h : t.state with
  | unknown => rfl
  | present => exact absurd h absent
  | departed => rfl

theorem settle_same {t : Tag R} (here : t.state = .present) : t.settle t.location = (t, none) := by
  obtain ⟨epc, tid, location, lastRead, lastArrived, lastDeparted, state, stats⟩ := t
  cases here
  simp [settle]

theorem settle_other {t : Tag R} {place : String} (here : t.state = .present)
    (located : t.location ≠ "") (elsewhere : place ≠ t.location) :
    t.settle place
      = ({ t with location := place },
         some (.moved t.epc t.tid t.lastRead t.location place)) := by
  obtain ⟨epc, tid, location, lastRead, lastArrived, lastDeparted, state, stats⟩ := t
  cases here
  simp [settle, located, elsewhere]

end Tag

variable [Level R]

theorem PlaceStats.sound_empty {lastRead : Int64} (h : 0 ≤ lastRead.toInt) :
    (PlaceStats.empty : PlaceStats R).Sound lastRead where
  nonneg := by simp
  le := by simpa using h
  capacity := rfl

theorem PlaceStats.Sound.update {p : PlaceStats R} {lastRead : Int64} (hp : p.Sound lastRead)
    (strength : Option R) {time : Int64} (ht : time.toInt ≤ lastRead.toInt) :
    (p.update strength time).Sound lastRead where
  nonneg := by
    have := hp.nonneg
    simp only [lastRead_update, toInt_laterOf]
    omega
  le := by
    have := hp.le
    simp only [lastRead_update, toInt_laterOf]
    omega
  capacity := by
    cases strength with
    | none => exact hp.capacity
    | some x => simpa using hp.capacity

namespace Tag

@[simp] theorem getElem?_record (t : Tag R) (place other : String) (s : Sighting R) :
    (t.record place s).stats[other]?
      = if place = other then some ((t.stats.getD place .empty).update s.strength s.time)
        else t.stats[other]? := by
  simp [record, Std.TreeMap.getElem?_insert]

theorem Timed.record {t : Tag R} {s : Sighting R} {place : String} (ht : t.Timed)
    (hplace : place ≠ "") (htime : s.time.toInt ≤ t.lastRead.toInt) :
    (t.record place s).Timed where
  nonneg := ht.nonneg
  le := ht.le
  arrived_le := ht.arrived_le
  place_ne := by rw [getElem?_record, if_neg hplace]; exact ht.place_ne
  stats other p hp := by
    rw [getElem?_record] at hp
    split at hp
    · have hold : (t.stats.getD place .empty).Sound t.lastRead := by
        rw [Std.TreeMap.getD_eq_getD_getElem?]
        cases h : t.stats[place]? with
        | none => exact PlaceStats.sound_empty ht.nonneg
        | some q => exact ht.stats place q h
      obtain rfl := Option.some.inj hp
      exact hold.update s.strength htime
    · exact ht.stats other p hp

theorem Timed.heard {t : Tag R} {s : Sighting R} {place : String} (ht : t.Timed) (hs : s.Sound)
    (hp : s.place = some place) : place ≠ "" ∧ ((t.observe s).record place s).Timed := by
  have hplace : place ≠ "" := fun h => hs.place_ne (h ▸ hp)
  refine ⟨hplace, (ht.observe hs).record hplace ?_⟩
  simp only [lastRead_observe, toInt_laterOf]
  omega

/-- What a reading makes of a record, and the event that comes of it. -/
inductive Takes (t : Tag R) (m : Mobility R) (s : Sighting R) : Tag R → Option Event → Prop where
  | unplaced (h : s.place = none) : t.Takes m s (t.observe s) none
  | arrives {place : String} (h : s.place = some place) (absent : t.state ≠ .present) :
    t.Takes m s
      { (t.observe s).record place s with
        location := place, state := .present, lastArrived := laterOf t.lastRead s.time }
      (some (.arrived t.epc (s.tid.getD t.tid) (laterOf t.lastRead s.time) place))
  | stays {place : String} (h : s.place = some place) (here : t.state = .present)
    (kept : place = t.location
      ∨ ((t.observe s).record place s).shouldAssign place s.time m = .ok false) :
    t.Takes m s ((t.observe s).record place s) none
  | moves {place : String} (h : s.place = some place) (here : t.state = .present)
    (elsewhere : place ≠ t.location)
    (won : ((t.observe s).record place s).shouldAssign place s.time m = .ok true) :
    t.Takes m s { (t.observe s).record place s with location := place }
      (some (.moved t.epc (s.tid.getD t.tid) (laterOf t.lastRead s.time) t.location place))

theorem fitsWord_elapsed {reference lastRead : Int} (hl : -farthestMillis ≤ reference)
    (hu : reference ≤ farthestMillis) (h0 : 0 ≤ lastRead) (hr : lastRead ≤ farthestMillis) :
    fitsWord (reference - lastRead) = true := by
  rw [fitsWord_iff]
  unfold farthestMillis at *
  omega

theorem weight_ok {m : Mobility R} {reference lastRead : Int} (hl : -farthestMillis ≤ reference)
    (hu : reference ≤ farthestMillis) (h0 : 0 ≤ lastRead) (hr : lastRead ≤ farthestMillis) :
    m.weight reference lastRead = .ok (m.weightAfter (reference - lastRead)) := by
  simp [Mobility.weight, difference_eq_ok (fitsWord_elapsed hl hu h0 hr)]

theorem shouldAssign_ok {t : Tag R} {place : String} {time : Int64} (m : Mobility R)
    (ht : t.Timed) (hl : -farthestMillis ≤ time.toInt) (hu : time.toInt ≤ farthestMillis) :
    ∃ assign, t.shouldAssign place time m = .ok assign := by
  unfold shouldAssign
  split
  · exact ⟨_, rfl⟩
  · split
    · exact ⟨_, rfl⟩
    · next mean lastRead hold =>
      split
      · exact ⟨_, rfl⟩
      · obtain ⟨p, hp, hmean⟩ := Option.bind_eq_some_iff.1 hold
        obtain ⟨x, -, hx⟩ := Option.map_eq_some_iff.1 hmean
        obtain ⟨-, rfl⟩ := Prod.mk.inj hx
        have hs := ht.stats _ p hp
        have hle := ht.le
        have hple := hs.le
        rw [weight_ok hl hu hs.nonneg (by omega)]
        exact ⟨_, rfl⟩

theorem shouldAssign_absent {t : Tag R} {place : String} {time : Int64} {m : Mobility R}
    (h : t.location ≠ place → t.stats[t.location]? = none) :
    t.shouldAssign place time m = .ok true := by
  unfold shouldAssign
  by_cases hp : t.location = place
  · simp [hp]
  · simp [hp, h hp]

theorem sight_placed {t : Tag R} {m : Mobility R} {s : Sighting R} {place : String}
    {assign : Bool} (hp : s.place = some place)
    (ha : ((t.observe s).record place s).shouldAssign place s.time m = .ok assign) :
    t.sight m s
      = ((((t.observe s).record place s).settle (if assign then place else t.location)).1,
         .ok (((t.observe s).record place s).settle (if assign then place else t.location)).2) := by
  simp only [sight, hp, ha]
  rfl

/-- A reading of a sound record succeeds, and has one of the four effects. -/
theorem Sound.sight {t : Tag R} {s : Sighting R} (m : Mobility R) (ht : t.Sound) (hs : s.Sound) :
    ∃ t' event, t.sight m s = (t', .ok event) ∧ t.Takes m s t' event := by
  cases hp : s.place with
  | none => exact ⟨_, _, by simp [Tag.sight, hp], .unplaced hp⟩
  | some place =>
    have ⟨_, hr⟩ := ht.toTimed.heard hs hp
    have hstate : ((t.observe s).record place s).state = t.state := rfl
    by_cases here : t.state = .present
    · obtain ⟨assign, ha⟩ := shouldAssign_ok m hr hs.time_ge hs.time_le
      have hsame : ((t.observe s).record place s).settle t.location
          = ((t.observe s).record place s, none) := settle_same (hstate.trans here)
      rw [sight_placed hp ha]
      by_cases hl : place = t.location
      · have hloc : (if assign then place else t.location) = t.location := by simp [hl]
        exact ⟨_, _, by rw [hloc, hsame], .stays hp here (.inl hl)⟩
      · cases assign with
        | false => exact ⟨_, _, by rw [if_neg (by simp), hsame], .stays hp here (.inr ha)⟩
        | true =>
          have hset := settle_other (hstate.trans here) (ht.present here).1 hl
          exact ⟨_, _, by rw [if_pos rfl, hset]; rfl, .moves hp here hl ha⟩
    · -- A tag that is not present has no samples to hold it back, so there is no contest.
      have ha : ((t.observe s).record place s).shouldAssign place s.time m = .ok true := by
        refine shouldAssign_absent fun h => ?_
        rw [getElem?_record, if_neg (Ne.symm h)]
        exact Std.TreeMap.getElem?_of_isEmpty (ht.isEmpty_of_absent here)
      have hset := settle_absent (t := (t.observe s).record place s) here place
      exact ⟨_, _, by rw [sight_placed hp ha, if_pos rfl, hset]; rfl, .arrives hp here⟩

@[simp] theorem mem_record (t : Tag R) (place : String) (s : Sighting R) :
    place ∈ (t.record place s).stats := by
  simp [record]

theorem Takes.epc {t t' : Tag R} {m : Mobility R} {s : Sighting R} {event : Option Event}
    (h : t.Takes m s t' event) : t'.epc = t.epc := by
  cases h <;> rfl

theorem Takes.sound {t t' : Tag R} {m : Mobility R} {s : Sighting R} {event : Option Event}
    (ht : t.Sound) (hs : s.Sound) (h : t.Takes m s t' event) : t'.Sound := by
  cases h with
  | unplaced hp =>
    have hobs := ht.toTimed.observe hs
    exact { hobs with unknown := ht.unknown, present := ht.present, departed := ht.departed }
  | @arrives place hp absent =>
    have ⟨hplace, hr⟩ := ht.toTimed.heard hs hp
    exact
      { hr with
        arrived_le := Int.le_refl _
        unknown := nofun
        present := fun _ => ⟨hplace, mem_record _ place s⟩
        departed := nofun }
  | stays hp here kept =>
    have ⟨hplace, hr⟩ := ht.toTimed.heard hs hp
    refine
      { hr with
        unknown := fun h => absurd (here.symm.trans h) nofun
        present := fun _ => ⟨(ht.present here).1, ?_⟩
        departed := fun h => absurd (here.symm.trans h) nofun }
    exact Std.TreeMap.mem_insert.2 (.inr (ht.present here).2)
  | @moves place hp here elsewhere won =>
    have ⟨hplace, hr⟩ := ht.toTimed.heard hs hp
    exact
      { hr with
        unknown := fun h => absurd (here.symm.trans h) nofun
        present := fun _ => ⟨hplace, mem_record _ place s⟩
        departed := fun h => absurd (here.symm.trans h) nofun }

end Tag

theorem Reading.sighting_sound {r : Reading} {c : InventoryConfig R} {device : String}
    {origin : Int64} {offset : Int} {s : Sighting R}
    (h : r.sighting? c device origin offset = some s) : s.Sound := by
  obtain ⟨epc, -, rfl⟩ := Option.map_eq_some_iff.1 h
  have hbounds := effectiveMillis_bounds origin offset r
  refine { place_ne := fun hp => ?_, time_ge := hbounds.1, time_le := hbounds.2 }
  obtain ⟨antenna, -, hname⟩ := Option.map_eq_some_iff.1 hp
  exact locationName_ne_empty c device antenna hname

def Inventory.Keyed (inv : Inventory R) : Prop :=
  ∀ (epc : String) (t : Tag R), inv.tags[epc]? = some t → t.epc = epc

/-- Each record is sound, and kept under its own EPC. -/
structure Inventory.Sound (inv : Inventory R) : Prop where
  keyed : inv.Keyed
  tags : ∀ (epc : String) (t : Tag R), inv.tags[epc]? = some t → t.Sound

namespace Inventory

omit [Level R] in
theorem keyed_new (config : InventoryConfig R) : (Inventory.new config).Keyed := by
  simp [Keyed]

omit [Level R] in
theorem Keyed.tag {inv : Inventory R} (hi : inv.Keyed) (epc : String) :
    (inv.tag epc).epc = epc := by
  cases h : inv.tags[epc]? with
  | none => rw [tag_of_none h]; rfl
  | some t => rw [tag_of_getElem? h]; exact hi epc t h

omit [Level R] in
theorem Keyed.of_records {inv next : Inventory R} (hi : inv.Keyed)
    (h : ∀ (epc : String) (u : Tag R), next.tags[epc]? = some u →
      ∃ t, inv.tags[epc]? = some t ∧ u.epc = t.epc) : next.Keyed := by
  intro epc u hu
  obtain ⟨t, ht, hepc⟩ := h epc u hu
  exact hepc.trans (hi epc t ht)

omit [Level R] in
theorem sound_new (config : InventoryConfig R) : (Inventory.new config).Sound where
  keyed := keyed_new config
  tags := by simp

omit [Level R] in
theorem Sound.tag {inv : Inventory R} (hi : inv.Sound) (epc : String) :
    (inv.tag epc).epc = epc ∧ (inv.tag epc).Sound := by
  refine ⟨hi.keyed.tag epc, ?_⟩
  cases h : inv.tags[epc]? with
  | none => rw [tag_of_none h]; exact Tag.sound_new epc
  | some t => rw [tag_of_getElem? h]; exact hi.tags epc t h

omit [Level R] in
theorem Sound.of_records {inv next : Inventory R} (hi : inv.Sound)
    (h : ∀ (epc : String) (u : Tag R), next.tags[epc]? = some u →
      ∃ t, inv.tags[epc]? = some t ∧ u.epc = t.epc ∧ (t.Sound → u.Sound)) : next.Sound where
  keyed := hi.keyed.of_records fun epc u hu =>
    have ⟨t, ht, hepc, _⟩ := h epc u hu
    ⟨t, ht, hepc⟩
  tags epc u hu := by
    obtain ⟨t, ht, -, hsound⟩ := h epc u hu
    exact hsound (hi.tags epc t ht)

theorem Sound.sight {inv : Inventory R} {s : Sighting R} (hi : inv.Sound) (hs : s.Sound) :
    ∃ next event, inv.sight s = (next, .ok event) ∧ next.Sound ∧ next.config = inv.config
      ∧ (inv.tag s.epc).Takes inv.config.mobility s (next.tag s.epc) event
      ∧ ∀ epc, epc ≠ s.epc → next.tag epc = inv.tag epc := by
  have ⟨hkey, ht⟩ := hi.tag s.epc
  obtain ⟨t, event, hsight, htakes⟩ := ht.sight inv.config.mobility hs
  have hview := sight_tags inv s
  rw [hsight] at hview
  have hown : (inv.sight s).1.tag s.epc = t := tag_of_getElem? (by simp [hview])
  refine ⟨(inv.sight s).1, event, ?_, ?_, rfl, hown ▸ htakes, fun epc hne => ?_⟩
  · have houtcome : (inv.sight s).2 = .ok event := congrArg Prod.snd hsight
    exact Prod.ext rfl houtcome
  · constructor
    · intro epc u hu
      by_cases he : epc = s.epc
      · obtain rfl : t = u := by simpa [hview, he] using hu
        rw [htakes.epc, hkey, he]
      · exact hi.keyed epc u (by simpa [hview, he] using hu)
    · intro epc u hu
      by_cases he : epc = s.epc
      · obtain rfl : t = u := by simpa [hview, he] using hu
        exact htakes.sound ht hs
      · exact hi.tags epc u (by simpa [hview, he] using hu)
  · simp [Inventory.tag, Std.TreeMap.getD_eq_getD_getElem?, hview, hne]

theorem Sound.of_sight {inv next : Inventory R} {s : Sighting R} {event : Option Event}
    (hi : inv.Sound) (hs : s.Sound) (step : inv.sight s = (next, .ok event)) :
    next.Sound ∧ (inv.tag s.epc).Takes inv.config.mobility s (next.tag s.epc) event
      ∧ ∀ epc, epc ≠ s.epc → next.tag epc = inv.tag epc := by
  obtain ⟨next', event', hstep, hnext, -, htakes, hothers⟩ := hi.sight hs
  obtain ⟨rfl, hevent⟩ := Prod.mk.inj (step.symm.trans hstep)
  obtain rfl := Except.ok.inj hevent
  exact ⟨hnext, htakes, hothers⟩

theorem ready_sound {inv : Inventory R} {device : String} {origin : Int64}
    {batch : List Reading} (r : Reading) (s : Sighting R)
    (h : inv.ready device origin batch r = some s) : s.Sound := Reading.sighting_sound h

theorem Sound.reads {inv : Inventory R} (hi : inv.Sound)
    (ready : Reading → Option (Sighting R)) (hready : ∀ r s, ready r = some s → s.Sound)
    (batch : List Reading) :
    ∃ last outcomes, Reads ready inv batch last outcomes ∧ last.Sound
      ∧ last.config = inv.config := by
  induction batch generalizing inv with
  | nil => exact ⟨inv, [], .done inv, hi, rfl⟩
  | cons r batch ih =>
    cases hr : ready r with
    | none =>
      obtain ⟨last, outcomes, hreads, hlast, hconfig⟩ := ih hi
      exact ⟨last, none :: outcomes, .skip hr hreads, hlast, hconfig⟩
    | some s =>
      obtain ⟨next, event, hstep, hnext, hsame, -, -⟩ := hi.sight (hready r s hr)
      obtain ⟨last, outcomes, hreads, hlast, hconfig⟩ := ih hnext
      exact ⟨last, event :: outcomes, .take hr hstep hreads, hlast, hconfig.trans hsame⟩

end Inventory

end TagGateway
