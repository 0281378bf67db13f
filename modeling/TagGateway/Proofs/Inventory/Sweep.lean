import Mathlib.Data.Set.Card
import TagGateway.Proofs.Inventory.Windows
import TagGateway.Proofs.Results

set_option autoImplicit false

namespace TagGateway

theorem ncard_keys {V : Type} (m : Std.TreeMap String V) : {k : String | k ∈ m}.ncard = m.size := by
  have hkeys : {k : String | k ∈ m} = ↑m.keys.toFinset := by
    ext k
    simp
  rw [hkeys, Set.ncard_coe_finset, List.toFinset_card_of_nodup m.nodup_keys, m.length_keys]

theorem count_epc (events : List Event) (epc : String) :
    (events.map Event.epc).count epc = (eventsOf epc events).length := by
  induction events with
  | nil => rfl
  | cons e rest ih => by_cases he : e.epc = epc <;> simp_all [eventsOf]

variable {R : Type} [Level R]

/-- Whether a record tells all of a tag: of each location also the mean of its samples and how many
there are. -/
structure TagRecord.Tells (r : TagRecord R) (t : Tag R) : Prop extends r.Recalls t where
  samples : ∀ (place : String) (p : PlaceRecord R) (s : PlaceStats R), r.stats[place]? = some p →
    t.stats[place]? = some s →
      p.mean = s.samples.mean? ∧ p.count.toNat = s.samples.toList.length

/-- The records of an inventory: one for each tag, in the order of their EPCs. -/
structure Inventory.ListedBy (inv : Inventory R) (records : List (TagRecord R)) : Prop where
  ordered : (records.map TagRecord.epc).Pairwise (· < ·)
  tells : ∀ r ∈ records, ∃ t, inv.tags[r.epc]? = some t ∧ r.Tells t
  complete : ∀ (epc : String) (t : Tag R), inv.tags[epc]? = some t → ∃ r ∈ records, r.epc = epc

theorem Tag.tells_snapshot {t : Tag R} (h : t.Windows (·.capacity = sampleCapacity)) :
    t.snapshot.Tells t where
  toRecalls := t.recalls_snapshot
  samples place p s hp hs := by
    obtain rfl : s.record = p := by simpa [hs] using hp
    have hcount : s.samples.count ≤ sampleCapacity := h place s hs ▸ s.samples.length_le
    refine ⟨rfl, ?_⟩
    rw [Window.length_toList, PlaceStats.record, UInt64.toNat_ofNat', Nat.mod_eq_of_lt]
    exact Nat.lt_of_le_of_lt hcount (by decide)

theorem Inventory.listedBy_snapshot {inv : Inventory R} (h : inv.Built) :
    inv.ListedBy inv.snapshot := by
  have hmem {p : String × Tag R} : p ∈ inv.tags.toList ↔ inv.tags[p.1]? = some p.2 :=
    Std.TreeMap.mem_toList_iff_getElem?_eq_some
  have hwindows := h.windows (P := (·.capacity = sampleCapacity))
    ⟨rfl, fun w x hw => (w.capacity_add x).trans hw⟩
  have hepcs : inv.snapshot.map TagRecord.epc = inv.tags.keys := by
    rw [snapshot, List.map_map, ← Std.TreeMap.map_fst_toList_eq_keys]
    exact List.map_congr_left fun p hp => h.keyed p.1 p.2 (hmem.1 hp)
  refine ⟨?_, fun r hr => ?_, fun epc t ht => ?_⟩
  · rw [hepcs]
    exact inv.tags.ordered_keys.imp compareOfLessAndEq_eq_lt.1
  · obtain ⟨p, hp, rfl⟩ := List.mem_map.1 hr
    have ht := hmem.1 hp
    have hepc : p.2.snapshot.epc = p.1 := h.keyed p.1 p.2 ht
    exact ⟨p.2, hepc ▸ ht, Tag.tells_snapshot (hwindows p.1 p.2 ht)⟩
  · exact ⟨t.snapshot, List.mem_map.2 ⟨(epc, t), hmem.2 ht, rfl⟩, h.keyed epc t ht⟩

namespace Tag

def undated (t : Tag R) : Tag R := { t with lastDeparted := 0 }

variable {t : Tag R} {now : Int64} {expiry expiry' : Int}

omit [Level R] in
theorem isOverdue_mono (h : expiry ≤ expiry') (overdue : t.isOverdue expiry = true) :
    t.isOverdue expiry' = true := by
  rw [isOverdue_iff] at *
  exact ⟨overdue.1, Int.lt_of_lt_of_le overdue.2 h⟩

omit [Level R] in
theorem isOverdue_depart (t : Tag R) (now : Int64) (expiry : Int) :
    (t.depart now).isOverdue expiry = false := by
  simp [isOverdue]

end Tag

namespace Inventory

/-- What a sweep is to do at a time. A tag that is present and was read last before the threshold
departs, and this is told once; nothing else changes and nothing else is told. The records that come
along exactly then are those of all tags afterwards. -/
structure Departs (inv : Inventory R) (now : Int64) (next : Inventory R) (events : List Event)
    (records : Option (List (TagRecord R))) : Prop where
  config : next.config = inv.config
  overdue : ∀ (epc : String) (t : Tag R), inv.tags[epc]? = some t → t.state = .present →
    t.lastRead.toInt < now.toInt - inv.config.departedMillis →
      eventsOf epc events = [.departed epc t.tid now t.lastRead t.location]
      ∧ next.tags[epc]? = some { t with state := .departed, lastDeparted := now, stats := ∅ }
  kept : ∀ epc : String, (∀ t, inv.tags[epc]? = some t → t.state = .present →
    now.toInt - inv.config.departedMillis ≤ t.lastRead.toInt) →
      eventsOf epc events = [] ∧ next.tags[epc]? = inv.tags[epc]?
  told : records = none ↔ events = []
  listed : ∀ rs, records = some rs → next.ListedBy rs

/-- What the other sweep is to do. A tag that departed and was read last before the threshold is
forgotten, and these are counted; nothing else changes. The records that come along exactly if there
are any to count are those of the tags that are left. -/
structure Forgets (inv : Inventory R) (now : Int64) (next : Inventory R) (count : Nat)
    (records : Option (List (TagRecord R))) : Prop where
  config : next.config = inv.config
  tags : ∀ (epc : String) (t : Tag R), next.tags[epc]? = some t ↔ inv.tags[epc]? = some t
    ∧ ¬(t.state = .departed ∧ t.lastRead.toInt < now.toInt - inv.config.ageOutMillis)
  counted : count = {epc : String | ∃ t : Tag R, inv.tags[epc]? = some t ∧ t.state = .departed
    ∧ t.lastRead.toInt < now.toInt - inv.config.ageOutMillis}.ncard
  told : records = none ↔ count = 0
  listed : ∀ rs, records = some rs → next.ListedBy rs

variable {inv next : Inventory R} {now later : Int64} {events : List Event}
  {records : Option (List (TagRecord R))}

theorem records_of_sweepDeparted (h : inv.sweepDeparted now = .ok (next, events, records)) :
    records = if events = [] then none else some next.snapshot := by
  obtain ⟨expiry, -, h⟩ := bind_eq_ok.1 h
  dsimp only at h
  split at h
  · cases h
    rfl
  · next hsome =>
    cases h
    simp_all

theorem Built.sweepDeparted (h : inv.Built)
    (hsweep : inv.sweepDeparted now = .ok (next, events, records)) : next.Built :=
  h.act (a := .sweepDeparted now) (by rw [Inventory.act, hsweep])

theorem Built.ageOut (h : inv.Built) {count : Nat}
    (hsweep : inv.ageOut now = .ok (next, count, records)) : next.Built :=
  h.act (a := .ageOut now) (by rw [Inventory.act, hsweep])

theorem departs_of_sweepDeparted (h : inv.Built) (timely : 0 ≤ now.toInt) :
    ∃ next events records, inv.sweepDeparted now = .ok (next, events, records)
      ∧ inv.Departs now next events records := by
  have hi := h.keyed
  obtain ⟨next, records, hsweep, hconfig, hview⟩ := inv.sweepDeparted_spec timely
  have hevents := hi.eventsOf_departures (·.isOverdue (now.toInt - inv.config.departedMillis)) now
  have hrecords := records_of_sweepDeparted hsweep
  refine ⟨next, _, records, hsweep, hconfig, ?_, ?_, by rw [hrecords]; simp, fun rs hrs => ?_⟩
  · intro epc t ht hstate hread
    have hdue : t.isOverdue (now.toInt - inv.config.departedMillis) = true :=
      Tag.isOverdue_iff.2 ⟨hstate, hread⟩
    rw [hevents, hview, ht]
    simp [hdue, Option.filter, Tag.departure, Tag.depart, hi epc t ht]
  · intro epc hkept
    rw [hevents, hview]
    cases ht : inv.tags[epc]? with
    | none => simp
    | some t =>
      have hdue : t.isOverdue (now.toInt - inv.config.departedMillis) = false := by
        rw [Bool.eq_false_iff, ne_eq, Tag.isOverdue_iff]
        rintro ⟨hstate, hread⟩
        exact Int.not_lt.2 (hkept t ht hstate) hread
      simp [hdue, Option.filter]
  · obtain ⟨-, rfl⟩ : _ ∧ next.snapshot = rs := by simpa [hrecords] using hrs
    exact listedBy_snapshot (h.sweepDeparted hsweep)

theorem sweepDeparted_quiet (timely : 0 ≤ now.toInt)
    (h : ∀ (epc : String) (t : Tag R), inv.tags[epc]? = some t →
      t.isOverdue (now.toInt - inv.config.departedMillis) = false) :
    inv.sweepDeparted now = .ok (inv, [], none) := by
  have hexpiry := difference_eq_ok (fitsWord_expiry timely (departedMillis_bounds inv.config))
  have hnone : inv.tags.toList.filter
      (·.2.isOverdue (now.toInt - inv.config.departedMillis)) = [] := by
    refine List.filter_eq_nil_iff.2 fun p hp => ?_
    simp [h p.1 p.2 (Std.TreeMap.mem_toList_iff_getElem?_eq_some.1 hp)]
  simp [sweepDeparted, hexpiry, hnone]

theorem Departs.tag (h : inv.Departs now next events records) (epc : String) :
    (inv.tags[epc]? = none ∧ eventsOf epc events = [] ∧ next.tags[epc]? = none)
      ∨ (∃ t, inv.tags[epc]? = some t
        ∧ t.isOverdue (now.toInt - inv.config.departedMillis) = true
        ∧ (eventsOf epc events).length = 1 ∧ next.tags[epc]? = some (t.depart now))
      ∨ ∃ t, inv.tags[epc]? = some t
        ∧ t.isOverdue (now.toInt - inv.config.departedMillis) = false
        ∧ eventsOf epc events = [] ∧ next.tags[epc]? = some t := by
  cases ht : inv.tags[epc]? with
  | none =>
    obtain ⟨hevents, hnext⟩ := h.kept epc (by simp [ht])
    exact .inl ⟨rfl, hevents, hnext.trans ht⟩
  | some t =>
    refine .inr ?_
    cases hdue : t.isOverdue (now.toInt - inv.config.departedMillis) with
    | true =>
      obtain ⟨hstate, hread⟩ := Tag.isOverdue_iff.1 hdue
      obtain ⟨hevents, hnext⟩ := h.overdue epc t ht hstate hread
      exact .inl ⟨t, rfl, hdue, by rw [hevents]; rfl, hnext⟩
    | false =>
      have hnot : ¬(t.state = .present
          ∧ t.lastRead.toInt < now.toInt - inv.config.departedMillis) := fun h =>
        Bool.eq_false_iff.1 hdue (Tag.isOverdue_iff.2 h)
      obtain ⟨hevents, hnext⟩ := h.kept epc fun u hu hstate => by
        obtain rfl : t = u := Option.some.inj (ht.symm.trans hu)
        exact Int.not_lt.1 fun hread => hnot ⟨hstate, hread⟩
      exact .inr ⟨t, rfl, hdue, hevents, hnext.trans ht⟩

/-- A second sweep at the same time finds nothing to do. -/
theorem Departs.again (h : inv.Departs now next events records) (timely : 0 ≤ now.toInt) :
    next.sweepDeparted now = .ok (next, [], none) := by
  refine sweepDeparted_quiet timely fun epc u hu => ?_
  rw [h.config]
  obtain ⟨-, -, hnext⟩ | ⟨t, -, -, -, hnext⟩ | ⟨t, -, hdue, -, hnext⟩ := h.tag epc
  · cases hu.symm.trans hnext
  · obtain rfl := Option.some.inj (hu.symm.trans hnext)
    exact t.isOverdue_depart now _
  · obtain rfl := Option.some.inj (hu.symm.trans hnext)
    exact hdue

section Twice

variable {last alone : Inventory R} {after events' : List Event}
  {records' records'' : Option (List (TagRecord R))}

theorem Departs.twice (h : inv.Departs now next events records)
    (h' : next.Departs later last after records')
    (halone : inv.Departs later alone events' records'')
    (hle : now.toInt ≤ later.toInt) (epc : String) :
    (eventsOf epc events).length + (eventsOf epc after).length = (eventsOf epc events').length
      ∧ last.tags[epc]?.map Tag.undated = alone.tags[epc]?.map Tag.undated := by
  have hmono {t : Tag R} := Tag.isOverdue_mono (t := t)
    (show now.toInt - inv.config.departedMillis ≤ later.toInt - inv.config.departedMillis by omega)
  have hsecond := h'.tag epc
  rw [h.config] at hsecond
  have hboth := halone.tag epc
  obtain ⟨hnone, hevents, hnext⟩ | ⟨t, ht, hdue, hevents, hnext⟩ | ⟨t, ht, hdue, hevents, hnext⟩ :=
    h.tag epc
  · simp_all
  · -- The tag is gone when the second sweep comes, and overdue at that time too.
    have := hmono hdue
    have := t.isOverdue_depart now (later.toInt - inv.config.departedMillis)
    simp_all [Tag.undated, Tag.depart]
  · cases hlater : t.isOverdue (later.toInt - inv.config.departedMillis) <;> simp_all

end Twice

theorem count_of_ageOut {count : Nat} (h : inv.ageOut now = .ok (next, count, records)) :
    count = (inv.tags.filter fun _ t => t.isStale (now.toInt - inv.config.ageOutMillis)).size
      ∧ records = if count = 0 then none else some next.snapshot := by
  obtain ⟨expiry, hexpiry, h⟩ := bind_eq_ok.1 h
  obtain rfl := eq_sub_of_difference hexpiry
  have hsize := size_filter_add inv.tags (·.isStale (now.toInt - inv.config.ageOutMillis))
  dsimp only at h
  split at h
  · next hzero =>
    cases h
    exact ⟨by omega, rfl⟩
  · next hsome =>
    cases h
    exact ⟨by omega, by rw [if_neg hsome]⟩

theorem forgets_of_ageOut (h : inv.Built) (timely : 0 ≤ now.toInt) :
    ∃ next count records, inv.ageOut now = .ok (next, count, records)
      ∧ inv.Forgets now next count records := by
  obtain ⟨next, count, records, hsweep, hconfig, hview⟩ := inv.ageOut_spec timely
  obtain ⟨hcount, hrecords⟩ := count_of_ageOut hsweep
  refine ⟨next, count, records, hsweep, hconfig, fun epc t => ?_, ?_, by rw [hrecords]; simp,
    fun rs hrs => ?_⟩
  · rw [hview, Option.filter_eq_some_iff]
    simp [← Tag.isStale_iff]
  · rw [hcount, ← ncard_keys]
    congr 1
    ext epc
    simp only [Set.mem_ofPred_eq, Std.TreeMap.mem_iff_isSome_getElem?,
      Std.TreeMap.getElem?_filter', Option.isSome_iff_exists, Option.filter_eq_some_iff,
      Tag.isStale_iff]
  · obtain ⟨-, rfl⟩ : _ ∧ next.snapshot = rs := by simpa [hrecords] using hrs
    exact listedBy_snapshot (h.ageOut hsweep)

/-- The sweeps are exact. The first lets depart the tags that are present and were read too long
ago, and no others; it tells of each of them once, and gives the records of all tags as they are
afterwards exactly if there is something to tell. Made again at the same time it does nothing, and
made in two steps it lets the same tags depart as made at once. The second forgets the tags that
departed and were read too long ago, and no others; it counts them, and gives the records that are
left exactly if there are any to count. -/
theorem sweeps_exact (h : inv.Built) (timely : 0 ≤ now.toInt) :
    (∃ next events records, inv.sweepDeparted now = .ok (next, events, records)
      ∧ inv.Departs now next events records
      ∧ next.sweepDeparted now = .ok (next, [], none)
      ∧ ∀ later : Int64, now.toInt ≤ later.toInt →
        ∃ last after records' alone events' records'',
          next.sweepDeparted later = .ok (last, after, records')
          ∧ inv.sweepDeparted later = .ok (alone, events', records'')
          ∧ ((events ++ after).map Event.epc).Perm (events'.map Event.epc)
          ∧ ∀ epc : String,
            last.tags[epc]?.map Tag.undated = alone.tags[epc]?.map Tag.undated)
    ∧ ∃ next count records, inv.ageOut now = .ok (next, count, records)
      ∧ inv.Forgets now next count records := by
  obtain ⟨next, events, records, hsweep, hdeparts⟩ := departs_of_sweepDeparted h timely
  refine ⟨⟨next, events, records, hsweep, hdeparts, hdeparts.again timely, fun later hle => ?_⟩,
    forgets_of_ageOut h timely⟩
  have timely' : 0 ≤ later.toInt := Int.le_trans timely hle
  obtain ⟨last, after, records', hsecond, hafter⟩ :=
    departs_of_sweepDeparted (h.sweepDeparted hsweep) timely'
  obtain ⟨alone, events', records'', hall, halone⟩ := departs_of_sweepDeparted h timely'
  have htwice := hdeparts.twice hafter halone hle
  refine ⟨last, after, records', alone, events', records'', hsecond, hall, ?_,
    fun epc => (htwice epc).2⟩
  refine List.perm_iff_count.2 fun epc => ?_
  rw [count_epc, count_epc, eventsOf_append, List.length_append]
  exact (htwice epc).1

/-- One tag is overdue and another was read exactly at the threshold: that one departs with the next
sweep, and only the first of the two is then forgotten. -/
theorem sweeps_exact_threshold :
    let reading (tag : UInt8) (seen : UInt64) : Reading :=
      { shortEpc := some ⟨⟨[tag]⟩⟩, fields := { antenna := some 1, lastSeenUtc := some seen } }
    let config : InventoryConfig Float :=
      { InventoryConfig.default with
        departedSeconds := 30, ageOutHours := 1, adjustByOrigin := false }
    let inv : Inventory Float :=
      ((Inventory.new config).report "dock" 0 [reading 1 1000000000, reading 2 1031000000]).1
    inv.Built ∧ ∃ next records last records',
      inv.sweepDeparted 1061000
        = .ok (next, [.departed "01" "" 1061000 1000000 "dock_1"], some records)
      ∧ inv.Departs 1061000 next [.departed "01" "" 1061000 1000000 "dock_1"] (some records)
      ∧ records.map (·.epc) = ["01", "02"]
      ∧ next.sweepDeparted 1061000 = .ok (next, [], none)
      ∧ next.sweepDeparted 1061001
        = .ok (last, [.departed "02" "" 1061001 1031000 "dock_1"], records')
      ∧ ∃ left records'', last.ageOut 4631000 = .ok (left, 1, records'')
        ∧ last.Forgets 4631000 left 1 records'' := by
  intro reading config inv
  have hinv : inv.Built := .report (.new config) "dock" 0 _
  have hfirst : (inv.sweepDeparted 1061000).map (fun out => (out.2.1, out.2.2.map fun records =>
      records.map (·.epc)))
      = .ok ([.departed "01" "" 1061000 1000000 "dock_1"], some ["01", "02"]) := by
    decide +kernel
  have hsecond : ((inv.sweepDeparted 1061000).bind (·.1.sweepDeparted 1061001)).map (·.2.1)
      = .ok [.departed "02" "" 1061001 1031000 "dock_1"] := by decide +kernel
  have hthird : (((inv.sweepDeparted 1061000).bind (·.1.sweepDeparted 1061001)).bind
      (·.1.ageOut 4631000)).map (·.2.1) = .ok 1 := by decide +kernel
  obtain ⟨next, events, records, hsweep, hdeparts, hagain, hlater⟩ :=
    (sweeps_exact hinv (show 0 ≤ (1061000 : Int64).toInt by decide)).1
  obtain ⟨last, after, records', -, -, -, hsweep', -⟩ := hlater 1061001 (by decide)
  simp only [hsweep, hsweep', Except.bind, ok_map, Except.ok.injEq] at hfirst hsecond hthird
  obtain ⟨rfl, hlisted⟩ := Prod.mk.inj hfirst
  obtain ⟨rs, hrs, hepcs⟩ := Option.map_eq_some_iff.1 hlisted
  obtain rfl : records = some rs := hrs
  subst hsecond
  have hlast : last.Built := (hinv.sweepDeparted hsweep).sweepDeparted hsweep'
  obtain ⟨left, count, records'', hage, hforgets⟩ :=
    (sweeps_exact hlast (show 0 ≤ (4631000 : Int64).toInt by decide)).2
  rw [hage] at hthird
  obtain rfl : count = 1 := Except.ok.inj hthird
  exact ⟨hinv, next, rs, last, records', hsweep, hdeparts, hepcs, hagain, hsweep', left, records'',
    hage, hforgets⟩

end Inventory

end TagGateway
