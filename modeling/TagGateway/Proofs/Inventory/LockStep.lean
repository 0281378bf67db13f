import Mathlib.Data.List.Forall2
import TagGateway.Proofs.Inventory.History

/-!
Two inventories that were told the same and agree on all but where their tags are. Main statements:
whatever is done to both, they go on agreeing and report the same arrivals and departures, and from
its next arrival on a tag has one and the same record in both.
-/

set_option autoImplicit false

namespace TagGateway

/-- What there is to tell of a tag but its place: which tag it is, whether it is there, and when. -/
structure Lifecycle where
  epc : String
  tid : String
  state : TagState
  lastRead : Int64
  lastArrived : Int64
  lastDeparted : Int64
  deriving DecidableEq, Repr

/-- What a departure tells but the place: EPC, TID, time and last reading. -/
def Event.departure? : Event → Option (String × String × Int64 × Int64)
  | .departed epc tid time lastRead _ => some (epc, tid, time, lastRead)
  | _ => none

variable {R : Type}

namespace Tag

def lifecycle (t : Tag R) : Lifecycle :=
  { epc := t.epc, tid := t.tid, state := t.state, lastRead := t.lastRead
    lastArrived := t.lastArrived, lastDeparted := t.lastDeparted }

theorem isOverdue_congr {t u : Tag R} (h : t.lifecycle = u.lifecycle) (expiry : Int) :
    t.isOverdue expiry = u.isOverdue expiry := by
  simp only [lifecycle, Lifecycle.mk.injEq] at h
  simp [isOverdue, h]

theorem isStale_congr {t u : Tag R} (h : t.lifecycle = u.lifecycle) (expiry : Int) :
    t.isStale expiry = u.isStale expiry := by
  simp only [lifecycle, Lifecycle.mk.injEq] at h
  simp [isStale, h]

theorem lifecycle_depart {t u : Tag R} (h : t.lifecycle = u.lifecycle) (now : Int64) :
    (t.depart now).lifecycle = (u.depart now).lifecycle := by
  simp only [lifecycle, Lifecycle.mk.injEq] at h
  simp [lifecycle, depart, h]

theorem departure?_departure {t u : Tag R} (h : t.lifecycle = u.lifecycle) (now : Int64) :
    (t.departure now).departure? = (u.departure now).departure? := by
  simp only [lifecycle, Lifecycle.mk.injEq] at h
  simp [departure, Event.departure?, h]

theorem map_lifecycle_map {a b : Option (Tag R)} (h : a.map lifecycle = b.map lifecycle)
    {f : Tag R → Tag R}
    (hf : ∀ t u : Tag R, t.lifecycle = u.lifecycle → (f t).lifecycle = (f u).lifecycle) :
    (a.map f).map lifecycle = (b.map f).map lifecycle := by
  cases a with
  | none =>
    obtain rfl : b = none := Option.map_eq_none_iff.1 h.symm
    rfl
  | some t =>
    obtain ⟨u, rfl, hu⟩ := Option.map_eq_some_iff.1 h.symm
    simp [hf t u hu.symm]

theorem map_lifecycle_filter {a b : Option (Tag R)} (h : a.map lifecycle = b.map lifecycle)
    {keep : Tag R → Bool}
    (hkeep : ∀ t u : Tag R, t.lifecycle = u.lifecycle → keep t = keep u) :
    (a.filter keep).map lifecycle = (b.filter keep).map lifecycle := by
  cases a with
  | none =>
    obtain rfl : b = none := Option.map_eq_none_iff.1 h.symm
    rfl
  | some t =>
    obtain ⟨u, rfl, hu⟩ := Option.map_eq_some_iff.1 h.symm
    have hsame := hkeep t u hu.symm
    cases hk : keep u with
    | false => simp [Option.filter, hsame, hk]
    | true => simp [Option.filter, hsame, hk, hu]

theorem departures_congr {ps qs : List (String × Tag R)}
    (h : ps.map (·.2.lifecycle) = qs.map (·.2.lifecycle)) (expiry : Int) (now : Int64) :
    ((ps.filter (·.2.isOverdue expiry)).map (·.2.departure now)).map Event.departure?
      = ((qs.filter (·.2.isOverdue expiry)).map (·.2.departure now)).map Event.departure? := by
  induction ps generalizing qs with
  | nil =>
    obtain rfl : qs = [] := List.map_eq_nil_iff.1 h.symm
    rfl
  | cons p ps ih =>
    cases qs with
    | nil => simp at h
    | cons q qs =>
      obtain ⟨hhead, htail⟩ := List.cons.inj h
      have hover := isOverdue_congr hhead expiry
      have hrest := ih htail
      cases hq : q.2.isOverdue expiry with
      | false => simpa [hover, hq] using hrest
      | true => simpa [hover, hq, departure?_departure hhead now] using hrest

variable [Level R]

/-- Of a tag that is not there nothing is kept that could tell the two records apart once it
arrives. Of one that is there only the contest between its locations may. -/
theorem Takes.lockStep {t u t' u' : Tag R} {m : Mobility R} {s : Sighting R}
    {event event' : Option Event} (ht : t.Sound) (hu : u.Sound) (h : t.lifecycle = u.lifecycle)
    (htakes : t.Takes m s t' event) (hutakes : u.Takes m s u' event') :
    t'.lifecycle = u'.lifecycle ∧ event.filter Event.isArrival = event'.filter Event.isArrival
      ∧ ((∃ e ∈ event, e.isArrival) → t' = u') := by
  have hstats (absent : t.state ≠ .present) : t.stats = ∅ ∧ u.stats = ∅ := by
    have hstate : t.state = u.state := congrArg Lifecycle.state h
    exact ⟨eq_empty_of_isEmpty (ht.isEmpty_of_absent absent),
      eq_empty_of_isEmpty (hu.isEmpty_of_absent (hstate ▸ absent))⟩
  obtain ⟨epc, tid, location, lastRead, lastArrived, lastDeparted, state, stats⟩ := t
  obtain ⟨epc', tid', location', lastRead', lastArrived', lastDeparted', state', stats'⟩ := u
  simp only [lifecycle, Lifecycle.mk.injEq] at h
  obtain ⟨rfl, rfl, rfl, rfl, rfl, rfl⟩ := h
  cases htakes with
  | unplaced hp =>
    cases hutakes with
    | unplaced => exact ⟨rfl, rfl, by simp⟩
    | arrives hp' => simp [hp] at hp'
    | stays hp' => simp [hp] at hp'
    | moves hp' => simp [hp] at hp'
  | arrives hp absent =>
    cases hutakes with
    | unplaced hp' => simp [hp] at hp'
    | arrives hp' =>
      obtain rfl := Option.some.inj (hp.symm.trans hp')
      obtain ⟨rfl, rfl⟩ := hstats absent
      exact ⟨rfl, rfl, fun _ => rfl⟩
    | stays _ here => exact absurd here absent
    | moves _ here => exact absurd here absent
  | stays hp here =>
    cases hutakes with
    | unplaced hp' => simp [hp] at hp'
    | arrives _ absent => exact absurd here absent
    | stays => exact ⟨rfl, rfl, by simp⟩
    | moves => exact ⟨rfl, rfl, by simp⟩
  | moves hp here =>
    cases hutakes with
    | unplaced hp' => simp [hp] at hp'
    | arrives _ absent => exact absurd here absent
    | stays => exact ⟨rfl, rfl, by simp [Event.isArrival]⟩
    | moves => exact ⟨rfl, rfl, by simp [Event.isArrival]⟩

end Tag

variable [Level R]

/-- Two sound inventories with one configuration that agree on all but where their tags are. -/
structure Inventory.Twin (p q : Inventory R) : Prop where
  config : p.config = q.config
  lifecycles : ∀ epc : String, p.tags[epc]?.map Tag.lifecycle = q.tags[epc]?.map Tag.lifecycle
  left : p.Sound
  right : q.Sound

namespace Inventory.Twin

variable {p q : Inventory R}

omit [Level R] in
theorem tag (h : p.Twin q) (epc : String) : (p.tag epc).lifecycle = (q.tag epc).lifecycle := by
  have hmap := h.lifecycles epc
  cases hp : p.tags[epc]? with
  | none =>
    rw [hp, Option.map_none] at hmap
    rw [tag_of_none hp, tag_of_none (Option.map_eq_none_iff.1 hmap.symm)]
  | some t =>
    rw [hp, Option.map_some] at hmap
    obtain ⟨u, hq, hu⟩ := Option.map_eq_some_iff.1 hmap.symm
    rw [tag_of_getElem? hp, tag_of_getElem? hq, hu]

theorem sight (h : p.Twin q) {s : Sighting R} (hs : s.Sound) :
    ∃ p' q' event event', p.sight s = (p', .ok event) ∧ q.sight s = (q', .ok event')
      ∧ p'.Twin q' ∧ event.filter Event.isArrival = event'.filter Event.isArrival
      ∧ ∀ epc : String,
          (p.tags[epc]? = q.tags[epc]? ∨ ∃ e ∈ event, e.epc = epc ∧ e.isArrival) →
          p'.tags[epc]? = q'.tags[epc]? := by
  obtain ⟨p', event, hp, hpsound, hpconfig, hptakes, -⟩ := h.left.sight hs
  obtain ⟨q', event', hq, hqsound, hqconfig, hqtakes, -⟩ := h.right.sight hs
  rw [← h.config] at hqtakes
  obtain ⟨hlife, harrivals, hsame⟩ :=
    hptakes.lockStep (h.left.tag _).2 (h.right.tag _).2 (h.tag _) hqtakes
  have hpview : ∀ epc : String, p'.tags[epc]?
      = if epc = s.epc then some ((p.tag s.epc).sight p.config.mobility s).1
        else p.tags[epc]? := by
    intro epc
    rw [← sight_tags, hp]
  have hqview : ∀ epc : String, q'.tags[epc]?
      = if epc = s.epc then some ((q.tag s.epc).sight q.config.mobility s).1
        else q.tags[epc]? := by
    intro epc
    rw [← sight_tags, hq]
  have hpown : p'.tags[s.epc]? = some (p'.tag s.epc) := by
    rw [tag_of_getElem? ((hpview s.epc).trans (if_pos rfl)), hpview, if_pos rfl]
  have hqown : q'.tags[s.epc]? = some (q'.tag s.epc) := by
    rw [tag_of_getElem? ((hqview s.epc).trans (if_pos rfl)), hqview, if_pos rfl]
  refine ⟨p', q', event, event', hp, hq, ?_, harrivals, fun epc hor => ?_⟩
  · refine { config := hpconfig.trans (h.config.trans hqconfig.symm)
             lifecycles := fun epc => ?_, left := hpsound, right := hqsound }
    by_cases he : epc = s.epc
    · rw [he, hpown, hqown, Option.map_some, Option.map_some, hlife]
    · rw [hpview, hqview, if_neg he, if_neg he]
      exact h.lifecycles epc
  · by_cases he : epc = s.epc
    · subst he
      obtain heq | ⟨e, hmem, -, harrival⟩ := hor
      · -- One record, one configuration: a reading makes the same of both.
        have htag : p.tag s.epc = q.tag s.epc := by
          simp [Inventory.tag, Std.TreeMap.getD_eq_getD_getElem?, heq]
        rw [hpview, hqview, if_pos rfl, if_pos rfl, htag, h.config]
      · rw [hpown, hqown, hsame ⟨e, hmem, harrival⟩]
    · rw [hpview, hqview, if_neg he, if_neg he]
      obtain heq | ⟨e, hmem, hepc, -⟩ := hor
      · exact heq
      · obtain rfl : event = some e := hmem
        exact absurd (hepc.symm.trans (hptakes.event_epc.trans (h.left.tag _).1)) he

theorem reads (h : p.Twin q) (ready : Reading → Option (Sighting R))
    (hready : ∀ r s, ready r = some s → s.Sound) (batch : List Reading) :
    ∃ p' q' outcomes outcomes', Reads ready p batch p' outcomes
      ∧ Reads ready q batch q' outcomes' ∧ p'.Twin q'
      ∧ List.Forall₂ (fun o o' => o.filter Event.isArrival = o'.filter Event.isArrival)
          outcomes outcomes'
      ∧ ∀ epc : String,
          (p.tags[epc]? = q.tags[epc]?
            ∨ ∃ e ∈ outcomes.reduceOption, e.epc = epc ∧ e.isArrival) →
          p'.tags[epc]? = q'.tags[epc]? := by
  induction batch generalizing p q with
  | nil =>
    refine ⟨p, q, [], [], .done p, .done q, h, .nil, fun epc hor => hor.resolve_right ?_⟩
    rintro ⟨e, hmem, -⟩
    exact absurd hmem List.not_mem_nil
  | cons r batch ih =>
    cases hr : ready r with
    | none =>
      obtain ⟨p', q', outcomes, outcomes', hp, hq, htwin, harrivals, hsame⟩ := ih h
      refine ⟨p', q', none :: outcomes, none :: outcomes', .skip hr hp, .skip hr hq, htwin,
        .cons rfl harrivals, fun epc => ?_⟩
      simpa using hsame epc
    | some s =>
      obtain ⟨p₁, q₁, event, event', hpstep, hqstep, htwin, harrival, hfirst⟩ :=
        h.sight (hready r s hr)
      obtain ⟨p', q', outcomes, outcomes', hp, hq, hlast, harrivals, hsame⟩ := ih htwin
      refine ⟨p', q', event :: outcomes, event' :: outcomes', .take hr hpstep hp,
        .take hr hqstep hq, hlast, .cons harrival harrivals, fun epc hor => hsame epc ?_⟩
      rw [reduceOption_cons] at hor
      obtain heq | ⟨e, hmem, hrest⟩ := hor
      · exact .inl (hfirst epc (.inl heq))
      · obtain hmem | hmem := List.mem_append.1 hmem
        · exact .inl (hfirst epc (.inr ⟨e, Option.mem_toList.1 hmem, hrest⟩))
        · exact .inr ⟨e, hmem, hrest⟩

theorem ready_eq (h : p.Twin q) (device : String) (origin : Int64) (batch : List Reading) :
    q.ready device origin batch = p.ready device origin batch := by
  unfold Inventory.ready
  rw [h.config]

theorem sweepDeparted (h : p.Twin q) {now : Int64} (hnow : 0 ≤ now.toInt) :
    ∃ p' q' events events' kept kept', p.sweepDeparted now = .ok (p', events, kept)
      ∧ q.sweepDeparted now = .ok (q', events', kept') ∧ p'.Twin q'
      ∧ events.map Event.departure? = events'.map Event.departure?
      ∧ ∀ epc : String, p.tags[epc]? = q.tags[epc]? → p'.tags[epc]? = q'.tags[epc]? := by
  obtain ⟨p', events, hpact, hpsound, -⟩ := h.left.act (a := .sweepDeparted now) hnow
  obtain ⟨q', events', hqact, hqsound, -⟩ := h.right.act (a := .sweepDeparted now) hnow
  obtain ⟨p₁, kept, hp, hpconfig, hpview⟩ := p.sweepDeparted_spec hnow
  obtain ⟨q₁, kept', hq, hqconfig, hqview⟩ := q.sweepDeparted_spec hnow
  obtain ⟨rfl, -⟩ : p₁ = p' ∧ _ := by simpa [Inventory.act, hp] using hpact
  obtain ⟨rfl, -⟩ : q₁ = q' ∧ _ := by simpa [Inventory.act, hq] using hqact
  rw [← h.config] at hqview hq
  generalize now.toInt - p.config.departedMillis = expiry at hp hq hpview hqview
  refine ⟨p₁, q₁, _, _, kept, kept', hp, hq, ?_, ?_, fun epc heq => ?_⟩
  · refine { config := hpconfig.trans (h.config.trans hqconfig.symm)
             lifecycles := fun epc => ?_, left := hpsound, right := hqsound }
    rw [hpview, hqview]
    refine Tag.map_lifecycle_map (h.lifecycles epc) fun t u hu => ?_
    rw [Tag.isOverdue_congr hu expiry]
    split
    · exact Tag.lifecycle_depart hu now
    · exact hu
  · exact Tag.departures_congr (map_toList_congr h.lifecycles) expiry now
  · rw [hpview, hqview, heq]

theorem ageOut (h : p.Twin q) {now : Int64} (hnow : 0 ≤ now.toInt) :
    ∃ p' q' count count' kept kept', p.ageOut now = .ok (p', count, kept)
      ∧ q.ageOut now = .ok (q', count', kept') ∧ p'.Twin q'
      ∧ ∀ epc : String, p.tags[epc]? = q.tags[epc]? → p'.tags[epc]? = q'.tags[epc]? := by
  obtain ⟨p', events, hpact, hpsound, -⟩ := h.left.act (a := .ageOut now) hnow
  obtain ⟨q', events', hqact, hqsound, -⟩ := h.right.act (a := .ageOut now) hnow
  obtain ⟨p₁, count, kept, hp, hpconfig, hpview⟩ := p.ageOut_spec hnow
  obtain ⟨q₁, count', kept', hq, hqconfig, hqview⟩ := q.ageOut_spec hnow
  obtain ⟨rfl, -⟩ : p₁ = p' ∧ _ := by simpa [Inventory.act, hp] using hpact
  obtain ⟨rfl, -⟩ : q₁ = q' ∧ _ := by simpa [Inventory.act, hq] using hqact
  rw [← h.config] at hqview
  refine ⟨p₁, q₁, count, count', kept, kept', hp, hq, ?_, fun epc heq => ?_⟩
  · refine { config := hpconfig.trans (h.config.trans hqconfig.symm)
             lifecycles := fun epc => ?_, left := hpsound, right := hqsound }
    rw [hpview, hqview]
    refine Tag.map_lifecycle_filter (h.lifecycles epc) fun t u hu => ?_
    rw [Tag.isStale_congr hu]
  · rw [hpview, hqview, heq]

omit [Level R] in
theorem mem_iff (h : p.Twin q) (epc : String) : epc ∈ p.tags ↔ epc ∈ q.tags := by
  have hmap := congrArg Option.isSome (h.lifecycles epc)
  rw [Option.isSome_map, Option.isSome_map] at hmap
  rw [Std.TreeMap.mem_iff_isSome_getElem?, Std.TreeMap.mem_iff_isSome_getElem?, hmap]

theorem updateConfig (h : p.Twin q) (config : InventoryConfig R) :
    ∃ p' q', p.act (.updateConfig config) = .ok (p', [])
      ∧ q.act (.updateConfig config) = .ok (q', []) ∧ p'.Twin q'
      ∧ ∀ epc : String, p.tags[epc]? = q.tags[epc]? → p'.tags[epc]? = q'.tags[epc]? := by
  have hsound {inv : Inventory R} (hi : inv.Sound) :
      ({ inv with config := config } : Inventory R).Sound :=
    hi.of_records fun epc u hu => ⟨u, hu, rfl, id⟩
  simp only [Inventory.act, Inventory.updateConfig]
  cases config.validate with
  | error fault => exact ⟨p, q, rfl, rfl, h, fun epc => id⟩
  | ok =>
    exact ⟨_, _, rfl, rfl,
      { config := rfl, lifecycles := h.lifecycles, left := hsound h.left, right := hsound h.right },
      fun epc => id⟩

/-- Whatever is done to both, they stay twins, and a tag that has one record in both or arrives has
one record in both. -/
theorem act (h : p.Twin q) {a : InventoryAction R} (ha : a.Timely) :
    ∃ p' q' events events', p.act a = .ok (p', events) ∧ q.act a = .ok (q', events')
      ∧ p'.Twin q'
      ∧ ∀ epc : String,
          (p.tags[epc]? = q.tags[epc]? ∨ ∃ e ∈ events, e.epc = epc ∧ e.isArrival) →
          p'.tags[epc]? = q'.tags[epc]? := by
  cases a with
  | report device origin batch =>
    obtain ⟨p', q', outcomes, outcomes', hp, hq, htwin, -, hsame⟩ :=
      h.reads (p.ready device origin batch) ready_sound batch
    refine ⟨p', q', outcomes.reduceOption, outcomes'.reduceOption, ?_, ?_, htwin, hsame⟩
    · rw [Inventory.act, report_of_reads hp]
    · rw [← h.ready_eq] at hq
      rw [Inventory.act, report_of_reads hq]
  | sweepDeparted now =>
    obtain ⟨p', q', events, events', kept, kept', hp, hq, htwin, -, hsame⟩ := h.sweepDeparted ha
    refine ⟨p', q', events, events', by rw [Inventory.act, hp], by rw [Inventory.act, hq], htwin,
      fun epc hor => hsame epc (hor.resolve_right ?_)⟩
    rintro ⟨e, hmem, -, harrival⟩
    obtain ⟨p₁, kept₁, hspec, -⟩ := p.sweepDeparted_spec ha
    obtain ⟨-, rfl, -⟩ : _ ∧ _ = events ∧ _ := by simpa [hspec] using hp
    obtain ⟨pair, -, rfl⟩ := List.mem_map.1 hmem
    simp [Tag.departure, Event.isArrival] at harrival
  | ageOut now =>
    obtain ⟨p', q', count, count', kept, kept', hp, hq, htwin, hsame⟩ := h.ageOut ha
    exact ⟨p', q', [], [], by rw [Inventory.act, hp], by rw [Inventory.act, hq], htwin,
      fun epc hor => hsame epc (hor.resolve_right (by simp))⟩
  | updateConfig config =>
    obtain ⟨p', q', hp, hq, htwin, hsame⟩ := h.updateConfig config
    exact ⟨p', q', [], [], hp, hq, htwin, fun epc hor => hsame epc (hor.resolve_right (by simp))⟩

theorem run (h : p.Twin q) {actions : List (InventoryAction R)}
    (timely : ∀ a ∈ actions, a.Timely) :
    ∃ p' q' events events', p.run actions = .ok (p', events) ∧ q.run actions = .ok (q', events')
      ∧ p'.Twin q'
      ∧ ∀ epc : String,
          (p.tags[epc]? = q.tags[epc]? ∨ ∃ e ∈ events, e.epc = epc ∧ e.isArrival) →
          p'.tags[epc]? = q'.tags[epc]? := by
  induction actions generalizing p q with
  | nil =>
    exact ⟨p, q, [], [], run_nil p, run_nil q, h, fun epc hor => hor.resolve_right (by simp)⟩
  | cons a rest ih =>
    obtain ⟨ha, hrest⟩ := List.forall_mem_cons.1 timely
    obtain ⟨p₁, q₁, events, events', hp, hq, htwin, hfirst⟩ := h.act ha
    obtain ⟨p', q', later, later', hprun, hqrun, hlast, hthen⟩ := ih htwin hrest
    refine ⟨p', q', events ++ later, events' ++ later', run_cons hp hprun, run_cons hq hqrun,
      hlast, fun epc hor => hthen epc ?_⟩
    obtain heq | ⟨e, hmem, hrest⟩ := hor
    · exact .inl (hfirst epc (.inl heq))
    · obtain hmem | hmem := List.mem_append.1 hmem
      · exact .inl (hfirst epc (.inr ⟨e, hmem, hrest⟩))
      · exact .inr ⟨e, hmem, hrest⟩

end Inventory.Twin

/-- Two inventories that tell of the same lifecycles, and whose next batch or sweep tells of the
same arrivals, at the same readings, of the same departures and of the same tags forgotten. -/
structure Inventory.LockStep (p q : Inventory R) : Prop where
  lifecycles : ∀ epc : String, p.tags[epc]?.map Tag.lifecycle = q.tags[epc]?.map Tag.lifecycle
  report : ∀ (device : String) (origin : Int64) (batch : List Reading),
    ∃ p' q' outcomes outcomes',
      Reads (p.ready device origin batch) p batch p' outcomes
      ∧ p.report device origin batch = (p', .ok outcomes.reduceOption)
      ∧ Reads (q.ready device origin batch) q batch q' outcomes'
      ∧ q.report device origin batch = (q', .ok outcomes'.reduceOption)
      ∧ List.Forall₂ (fun o o' => o.filter Event.isArrival = o'.filter Event.isArrival)
          outcomes outcomes'
  sweepDeparted : ∀ now : Int64, 0 ≤ now.toInt → ∃ p' q' events events' kept kept',
    p.sweepDeparted now = .ok (p', events, kept)
      ∧ q.sweepDeparted now = .ok (q', events', kept')
      ∧ events.map Event.departure? = events'.map Event.departure?
  ageOut : ∀ now : Int64, 0 ≤ now.toInt → ∃ p' q' count count' kept kept',
    p.ageOut now = .ok (p', count, kept) ∧ q.ageOut now = .ok (q', count', kept')
      ∧ ∀ epc : String, (epc ∈ p.tags ∧ epc ∉ p'.tags) ↔ (epc ∈ q.tags ∧ epc ∉ q'.tags)

theorem Inventory.Twin.lockStep {p q : Inventory R} (h : p.Twin q) : p.LockStep q where
  lifecycles := h.lifecycles
  report device origin batch := by
    obtain ⟨p', q', outcomes, outcomes', hp, hq, -, harrivals, -⟩ :=
      h.reads (p.ready device origin batch) ready_sound batch
    rw [← h.ready_eq] at hq
    exact ⟨p', q', outcomes, outcomes', hp, report_of_reads hp, hq, report_of_reads hq, harrivals⟩
  sweepDeparted now hnow := by
    obtain ⟨p', q', events, events', kept, kept', hp, hq, -, hevents, -⟩ := h.sweepDeparted hnow
    exact ⟨p', q', events, events', kept, kept', hp, hq, hevents⟩
  ageOut now hnow := by
    obtain ⟨p', q', count, count', kept, kept', hp, hq, htwin, -⟩ := h.ageOut hnow
    refine ⟨p', q', count, count', kept, kept', hp, hq, fun epc => ?_⟩
    rw [h.mem_iff, htwin.mem_iff]

end TagGateway
