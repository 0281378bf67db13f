import Mathlib.Data.List.Forall2
import TagGateway.Proofs.Inventory.Independence

set_option autoImplicit false

namespace TagGateway

variable {R : Type} [Level R]

namespace Inventory

inductive Course :
    Inventory R → List (InventoryAction R) → List (List Event) → Inventory R → Prop where
  | done (inv : Inventory R) : Course inv [] [] inv
  | act {inv next last : Inventory R} {a : InventoryAction R} {rest : List (InventoryAction R)}
    {events : List Event} {told : List (List Event)} (step : inv.act a = .ok (next, events))
    (later : Course next rest told last) : Course inv (a :: rest) (events :: told) last

theorem run_eq_ok_iff {inv last : Inventory R} {actions : List (InventoryAction R)}
    {events : List Event} :
    inv.run actions = .ok (last, events) ↔ ∃ told, inv.Course actions told last
      ∧ told.flatten = events := by
  induction actions generalizing inv events with
  | nil =>
    constructor
    · intro h
      cases h
      exact ⟨[], .done _, rfl⟩
    · rintro ⟨told, hcourse, rfl⟩
      cases hcourse
      rfl
  | cons a rest ih =>
    constructor
    · intro h
      unfold run at h
      cases ha : inv.act a with
      | error e => simp [ha] at h
      | ok result =>
        obtain ⟨next, first⟩ := result
        cases hr : next.run rest with
        | error e => simp [ha, hr] at h
        | ok result =>
          obtain ⟨last', later⟩ := result
          obtain ⟨rfl, rfl⟩ : last' = last ∧ first ++ later = events := by simpa [ha, hr] using h
          obtain ⟨told, hcourse, rfl⟩ := ih.1 hr
          exact ⟨first :: told, .act ha hcourse, rfl⟩
    · rintro ⟨told, hcourse, rfl⟩
      cases hcourse with
      | act step later => exact run_cons step (ih.2 ⟨_, later, rfl⟩)

theorem Course.split {inv last : Inventory R} {first rest : List (InventoryAction R)}
    {told : List (List Event)} (h : inv.Course (first ++ rest) told last) :
    ∃ middle before after, inv.Course first before middle ∧ middle.Course rest after last
      ∧ told = before ++ after := by
  induction first generalizing inv told with
  | nil => exact ⟨inv, [], told, .done inv, h, rfl⟩
  | cons a first ih =>
    cases h with
    | @act _ next _ _ _ events told step later =>
      obtain ⟨middle, before, after, hbefore, hafter, rfl⟩ := ih later
      exact ⟨middle, events :: before, after, .act step hbefore, hafter, rfl⟩

/-- The inventories there are: those that reports, sweeps, configurations and restores lead to, from
any records and also by reports that failed halfway. -/
inductive Built : Inventory R → Prop where
  | new (config : InventoryConfig R) : Built (.new config)
  | act {inv next : Inventory R} {a : InventoryAction R} {events : List Event}
    (before : Built inv) (step : inv.act a = .ok (next, events)) : Built next
  | report {inv : Inventory R} (before : Built inv) (device : String) (origin : Int64)
    (batch : List Reading) : Built (inv.report device origin batch).1
  | restore {inv : Inventory R} (before : Built inv) (records : List (TagRecord R)) :
    Built (inv.restore records)

theorem Keyed.restore {inv : Inventory R} (hi : inv.Keyed) (records : List (TagRecord R)) :
    (inv.restore records).Keyed := by
  intro epc t ht
  rw [restore_tags] at ht
  cases hfind : records.reverse.find? (·.epc = epc) with
  | none => exact hi epc t (by simpa [hfind] using ht)
  | some r =>
    obtain rfl : Tag.ofRecord r = t := by simpa [hfind] using ht
    have hepc : r.epc = epc := by simpa using List.find?_some hfind
    exact hepc

theorem Built.keyed {inv : Inventory R} (h : inv.Built) : inv.Keyed := by
  induction h with
  | new config => exact keyed_new config
  | act before step ih => exact (ih.act step).1
  | report before device origin batch ih => exact (ih.sightAll _).1
  | restore before records ih => exact ih.restore records

theorem Built.course {inv last : Inventory R} {actions : List (InventoryAction R)}
    {told : List (List Event)} (h : inv.Built) (hcourse : inv.Course actions told last) :
    last.Built := by
  induction hcourse with
  | done inv => exact h
  | act step later ih => exact ih (h.act step)

end Inventory

namespace InventoryAction

/-- Actions that are the same for one tag. A batch is right by the clock as the others in it say. -/
inductive Matches (epc : String) (c : InventoryConfig R) :
    InventoryAction R → InventoryAction R → Prop where
  | same (a : InventoryAction R) : Matches epc c a a
  | report {device : String} {origin : Int64} {batch batch' : List Reading}
    (readings : readingsOf epc batch = readingsOf epc batch')
    (clock : c.adjustByOrigin = true → latestMicros? batch = latestMicros? batch') :
    Matches epc c (.report device origin batch) (.report device origin batch')

inductive MatchAll (epc : String) :
    InventoryConfig R → List (InventoryAction R) → List (InventoryAction R) → Prop where
  | done (c : InventoryConfig R) : MatchAll epc c [] []
  | act {c : InventoryConfig R} {a b : InventoryAction R} {as bs : List (InventoryAction R)}
    (first : a.Matches epc c b) (later : MatchAll epc (c.after a) as bs) :
    MatchAll epc c (a :: as) (b :: bs)

/-- Actions that differ in the order of readings of different tags at most. -/
inductive Rearranges : InventoryAction R → InventoryAction R → Prop where
  | same (a : InventoryAction R) : Rearranges a a
  | report {device : String} {origin : Int64} {batch batch' : List Reading}
    (perm : batch.Perm batch') (ordered : ∀ epc, readingsOf epc batch = readingsOf epc batch') :
    Rearranges (.report device origin batch) (.report device origin batch')

def Without (epc : String) : InventoryAction R → Prop
  | .report _ _ batch => readingsOf epc batch = []
  | .sweepDeparted _ | .ageOut _ | .updateConfig _ => True

variable {epc : String} {c : InventoryConfig R} {a b : InventoryAction R}

theorem Without.act_none (h : a.Without epc) {record : Option (Tag R)} {events : List Event}
    (hact : Tag.act c epc none a = .ok (record, events)) : record = none ∧ events = [] := by
  cases a with
  | report device origin batch =>
    rw [Tag.act, show readingsOf epc batch = [] from h] at hact
    cases hact
    exact ⟨rfl, rfl⟩
  | sweepDeparted now =>
    obtain ⟨expiry, -, rfl, rfl⟩ := Tag.departs_of_act hact
    exact ⟨rfl, rfl⟩
  | ageOut now =>
    obtain ⟨expiry, -, rfl, rfl⟩ := Tag.forgets_of_act hact
    exact ⟨rfl, rfl⟩
  | updateConfig config =>
    cases hact
    exact ⟨rfl, rfl⟩

theorem Matches.after_eq (h : a.Matches epc c b) : c.after b = c.after a := by
  cases h <;> rfl

theorem Matches.act_eq (h : a.Matches epc c b) (record : Option (Tag R)) :
    Tag.act c epc record a = Tag.act c epc record b := by
  cases h with
  | same a => rfl
  | @report device origin batch batch' readings clock =>
    -- The other readings come in by the offset alone, and by that only if the clock is set right.
    have hoffset : Inventory.batchOffset c origin batch
        = Inventory.batchOffset c origin batch' := by
      unfold Inventory.batchOffset clockOffset
      split
      · next hadjust =>
        have := clock hadjust
        unfold latestMicros? at this
        rw [this]
      · rfl
    simp only [Tag.act, readings, hoffset]

theorem latestMicros?_perm {batch batch' : List Reading} (h : batch.Perm batch') :
    latestMicros? batch = latestMicros? batch' := by
  have hmem (t : Int) : t ∈ batch.filterMap Reading.seenMicros?
      ↔ t ∈ batch'.filterMap Reading.seenMicros? := (h.filterMap _).mem_iff
  unfold latestMicros?
  refine Option.ext fun t => ?_
  simp only [List.max?_eq_some_iff, hmem]

omit [Level R] in
theorem Rearranges.matches (h : a.Rearranges b) (epc : String) (c : InventoryConfig R) :
    a.Matches epc c b := by
  cases h with
  | same a => exact .same a
  | report perm ordered => exact .report (ordered epc) fun _ => latestMicros?_perm perm

theorem matchAll_of_rearranges {as bs : List (InventoryAction R)}
    (h : List.Forall₂ Rearranges as bs) (epc : String) (c : InventoryConfig R) :
    MatchAll epc c as bs := by
  induction h generalizing c with
  | nil => exact .done c
  | cons first later ih => exact .act (first.matches epc c) (ih _)

theorem matchAll_same (epc : String) (c : InventoryConfig R) (as : List (InventoryAction R)) :
    MatchAll epc c as as :=
  matchAll_of_rearranges (List.forall₂_same.2 fun a _ => .same a) epc c

end InventoryAction

namespace Inventory

open InventoryAction

/-- Inventories that have the same record of one tag. -/
structure Shares (p q : Inventory R) (epc : String) : Prop where
  config : p.config = q.config
  record : p.tags[epc]? = q.tags[epc]?
  left : p.Keyed
  right : q.Keyed

variable {p q p' q' : Inventory R} {epc : String}

omit [Level R] in
theorem Shares.symm (h : p.Shares q epc) : q.Shares p epc :=
  { config := h.config.symm, record := h.record.symm, left := h.right, right := h.left }

omit [Level R] in
theorem Shares.refl (h : p.Keyed) (epc : String) : p.Shares p epc :=
  { config := rfl, record := rfl, left := h, right := h }

theorem Shares.act (h : p.Shares q epc) {a b : InventoryAction R} {events events' : List Event}
    (hab : a.Matches epc p.config b) (ha : p.act a = .ok (p', events))
    (hb : q.act b = .ok (q', events')) :
    p'.Shares q' epc ∧ eventsOf epc events = eventsOf epc events' := by
  obtain ⟨hpkeyed, hpconfig, hp⟩ := h.left.act ha
  obtain ⟨hqkeyed, hqconfig, hq⟩ := h.right.act hb
  have hboth := hp epc
  rw [hab.act_eq, h.config, h.record, hq epc] at hboth
  obtain ⟨hrecord, hevents⟩ := Prod.mk.inj (Except.ok.inj hboth)
  refine ⟨{ config := ?_, record := hrecord.symm, left := hpkeyed, right := hqkeyed },
    hevents.symm⟩
  rw [hpconfig, hqconfig, ← h.config, hab.after_eq]

theorem Shares.course (h : p.Shares q epc) {as bs : List (InventoryAction R)}
    {told told' : List (List Event)} (hab : MatchAll epc p.config as bs)
    (hp : p.Course as told p') (hq : q.Course bs told' q') :
    p'.Shares q' epc ∧ told.map (eventsOf epc) = told'.map (eventsOf epc) := by
  induction hp generalizing q bs told' with
  | done inv =>
    cases hab
    cases hq
    exact ⟨h, rfl⟩
  | act step later ih =>
    cases hab with
    | act first rest =>
      cases hq with
      | act step' later' =>
        obtain ⟨hshares, hevents⟩ := h.act first step step'
        rw [← (h.left.act step).2.1] at rest
        obtain ⟨hlast, htold⟩ := ih hshares rest later'
        exact ⟨hlast, by rw [List.map_cons, List.map_cons, hevents, htold]⟩

theorem Shares.report_without (h : p.Shares q epc) {device : String} {origin : Int64}
    {batch : List Reading} {events : List Event} (hnone : readingsOf epc batch = [])
    (hact : p.act (.report device origin batch) = .ok (p', events)) :
    p'.Shares q epc ∧ eventsOf epc events = [] := by
  obtain ⟨hkeyed, hconfig, hp⟩ := h.left.act hact
  have hown := hp epc
  rw [Tag.act, hnone] at hown
  obtain ⟨hrecord, hevents⟩ := Prod.mk.inj (Except.ok.inj hown)
  exact ⟨{ config := hconfig.trans h.config, record := hrecord.symm.trans h.record,
           left := hkeyed, right := h.right }, hevents.symm⟩

theorem Shares.swap (h : p.Shares q epc) {first : InventoryAction R} {device : String}
    {origin : Int64} {batch : List Reading} (hnone : readingsOf epc batch = [])
    {told told' : List (List Event)}
    (hp : p.Course [first, .report device origin batch] told p')
    (hq : q.Course [.report device origin batch, first] told' q') :
    p'.Shares q' epc ∧ eventsOf epc told.flatten = eventsOf epc told'.flatten := by
  obtain _ | ⟨hp₁, _ | ⟨hp₂, _ | _⟩⟩ := hp
  obtain _ | ⟨hq₁, _ | ⟨hq₂, _ | _⟩⟩ := hq
  -- The report passes by the record, so that the other action finds the same one on both sides.
  obtain ⟨hshares, hq₁events⟩ := h.symm.report_without hnone hq₁
  obtain ⟨hshares, hevents⟩ := hshares.symm.act (.same first) hp₁ hq₂
  obtain ⟨hlast, hp₂events⟩ := hshares.report_without hnone hp₂
  refine ⟨hlast, ?_⟩
  simp [eventsOf_append, hq₁events, hp₂events, hevents]

/-- Reports without a common tag may change places within a run. -/
theorem Shares.reorder (h : p.Shares q epc) {before after : List (InventoryAction R)}
    {device device' : String} {origin origin' : Int64} {batch batch' : List Reading}
    (hapart : readingsOf epc batch = [] ∨ readingsOf epc batch' = [])
    {told told' : List (List Event)}
    (hp : p.Course (before
      ++ ([.report device origin batch, .report device' origin' batch'] ++ after)) told p')
    (hq : q.Course (before
      ++ ([.report device' origin' batch', .report device origin batch] ++ after)) told' q') :
    p'.Shares q' epc ∧ eventsOf epc told.flatten = eventsOf epc told'.flatten := by
  obtain ⟨p₁, told₁, later, hp₁, hp', rfl⟩ := hp.split
  obtain ⟨p₂, told₂, told₃, hp₂, hp₃, rfl⟩ := hp'.split
  obtain ⟨q₁, told₁', later', hq₁, hq', rfl⟩ := hq.split
  obtain ⟨q₂, told₂', told₃', hq₂, hq₃, rfl⟩ := hq'.split
  obtain ⟨hfirst, hevents₁⟩ := h.course (matchAll_same epc _ before) hp₁ hq₁
  have hmiddle : p₂.Shares q₂ epc ∧ eventsOf epc told₂.flatten = eventsOf epc told₂'.flatten := by
    -- Whichever of the two has no reading of the tag is the one that passes by.
    rcases hapart with hnone | hnone
    · obtain ⟨hshares, hevents⟩ := hfirst.symm.swap hnone hq₂ hp₂
      exact ⟨hshares.symm, hevents.symm⟩
    · exact hfirst.swap hnone hp₂ hq₂
  obtain ⟨hlast, hevents₃⟩ := hmiddle.1.course (matchAll_same epc _ after) hp₃ hq₃
  refine ⟨hlast, ?_⟩
  simp only [List.flatten_append, eventsOf_append, hmiddle.2, eventsOf_flatten, hevents₁, hevents₃]

theorem Keyed.course_without (hi : p.Keyed) {actions : List (InventoryAction R)}
    {told : List (List Event)} (hnone : p.tags[epc]? = none)
    (without : ∀ a ∈ actions, a.Without epc) (h : p.Course actions told p') :
    p'.Keyed ∧ p'.tags[epc]? = none := by
  induction h with
  | done inv => exact ⟨hi, hnone⟩
  | @act inv next last a rest events told step later ih =>
    obtain ⟨hkeyed, -, hown⟩ := hi.act step
    refine ih hkeyed ?_ fun b hb => without b (List.mem_cons_of_mem _ hb)
    have hact := hown epc
    rw [hnone] at hact
    exact ((without a List.mem_cons_self).act_none hact).1

/-- Tags do not interfere. Whatever is done to an inventory, runs that are the same for one tag tell
the same of it, action by action, and leave the same record. So each batch may have its readings in
another order, as long as those of one tag keep theirs; two reports without a common tag may change
places; and a tag that was forgotten does as one that was never read. -/
theorem tags_independent {p : Inventory R} (hp : p.Built) :
    (∀ {q p' q' : Inventory R} {epc : String} {actions actions' : List (InventoryAction R)}
        {told told' : List (List Event)},
      q.Built → q.config = p.config → q.tags[epc]? = p.tags[epc]? →
      MatchAll epc p.config actions actions' → p.Course actions told p' →
      q.Course actions' told' q' →
        told.map (eventsOf epc) = told'.map (eventsOf epc) ∧ p'.tags[epc]? = q'.tags[epc]?)
    ∧ (∀ {p' p'' : Inventory R} {actions actions' : List (InventoryAction R)}
        {told told' : List (List Event)},
      List.Forall₂ Rearranges actions actions' → p.Course actions told p' →
      p.Course actions' told' p'' → ∀ epc,
        told.map (eventsOf epc) = told'.map (eventsOf epc) ∧ p'.tags[epc]? = p''.tags[epc]?)
    ∧ (∀ {p' p'' : Inventory R} {before after : List (InventoryAction R)}
        {device device' : String} {origin origin' : Int64} {batch batch' : List Reading}
        {events events' : List Event},
      (∀ epc, readingsOf epc batch = [] ∨ readingsOf epc batch' = []) →
      p.run (before ++ .report device origin batch :: .report device' origin' batch' :: after)
        = .ok (p', events) →
      p.run (before ++ .report device' origin' batch' :: .report device origin batch :: after)
        = .ok (p'', events') → ∀ epc,
        eventsOf epc events = eventsOf epc events' ∧ p'.tags[epc]? = p''.tags[epc]?)
    ∧ (∀ {next q p' q' : Inventory R} {now : Int64} {epc : String}
        {history actions actions' : List (InventoryAction R)} {events : List Event}
        {past told told' : List (List Event)} {config : InventoryConfig R},
      p.act (.ageOut now) = .ok (next, events) → epc ∉ next.tags →
      (Inventory.new config).Course history past q → (∀ a ∈ history, a.Without epc) →
      q.config = next.config → MatchAll epc next.config actions actions' →
      next.Course actions told p' → q.Course actions' told' q' →
        told.map (eventsOf epc) = told'.map (eventsOf epc) ∧ p'.tags[epc]? = q'.tags[epc]?) := by
  refine ⟨?_, ?_, ?_, ?_⟩
  · intro q p' q' epc actions actions' told told' hq hconfig hrecord hmatch hcourse hcourse'
    have hshares : p.Shares q epc :=
      { config := hconfig.symm, record := hrecord.symm, left := hp.keyed, right := hq.keyed }
    obtain ⟨hlast, htold⟩ := hshares.course hmatch hcourse hcourse'
    exact ⟨htold, hlast.record⟩
  · intro p' p'' actions actions' told told' hrearranges hcourse hcourse' epc
    have hmatch := matchAll_of_rearranges hrearranges epc p.config
    obtain ⟨hlast, htold⟩ := (Shares.refl hp.keyed epc).course hmatch hcourse hcourse'
    exact ⟨htold, hlast.record⟩
  · intro p' p'' before after device device' origin origin' batch batch' events events' hapart hrun
      hrun' epc
    obtain ⟨told, hcourse, rfl⟩ := run_eq_ok_iff.1 hrun
    obtain ⟨told', hcourse', rfl⟩ := run_eq_ok_iff.1 hrun'
    obtain ⟨hlast, hevents⟩ :=
      (Shares.refl hp.keyed epc).reorder (hapart epc) hcourse hcourse'
    exact ⟨hevents, hlast.record⟩
  · intro next q p' q' now epc history actions actions' events past told told' config hage hgone
      hpast hwithout hconfig hmatch hcourse hcourse'
    obtain ⟨hkeyed, hnone⟩ := (keyed_new config).course_without (by simp) hwithout hpast
    have hshares : next.Shares q epc :=
      { config := hconfig.symm
        record := by rw [hnone, Std.TreeMap.getElem?_eq_none hgone]
        left := (hp.act hage).keyed
        right := hkeyed }
    obtain ⟨hlast, htold⟩ := hshares.course hmatch hcourse hcourse'
    exact ⟨htold, hlast.record⟩

/-- A tag among others: the clock of its batch is set right by another tag's time. It arrives,
departs and is forgotten, and is then as new. -/
theorem tags_independent_crowd :
    let reading (tag : UInt8) (seen : UInt64) : Reading :=
      { shortEpc := some ⟨⟨[tag]⟩⟩, fields := { antenna := some 1, lastSeenUtc := some seen } }
    let first : Inventory Float := .new .default
    let actions : List (InventoryAction Float) :=
      [.report "dock" 1000000000 [reading 1 5000, reading 2 9000], .sweepDeparted 1000000]
    let actions' : List (InventoryAction Float) :=
      [.report "dock" 1000000000 [reading 3 9000, reading 1 5000, reading 3 7000],
        .sweepDeparted 1000000]
    (first.run actions).map (fun result => eventsOf "01" result.2)
        = .ok [.arrived "01" "" 996 "dock_1", .departed "01" "" 1000000 996 "dock_1"]
      ∧ ∃ told told' p q next again fresh last last', first.Course actions told p
        ∧ first.Course actions' told' q
        ∧ told.map (eventsOf "01") = told'.map (eventsOf "01")
        ∧ p.tags["01"]? = q.tags["01"]?
        ∧ p.act (.ageOut 2000000000000) = .ok (next, [])
        ∧ next.Course actions again last
        ∧ (Inventory.new next.config).Course actions' fresh last'
        ∧ again.map (eventsOf "01") = fresh.map (eventsOf "01") := by
  intro reading first actions actions'
  have hmatch (c : InventoryConfig Float) : MatchAll "01" c actions actions' :=
    .act (.report (by decide +kernel) fun _ => by decide +kernel) (matchAll_same _ _ _)
  have timely : ∀ a ∈ actions, a.Timely := by simp [actions]
  have timely' : ∀ a ∈ actions', a.Timely := by simp [actions']
  have hgone : ((first.run actions).bind (·.1.act (.ageOut 2000000000000))).map
      (fun result => (result.1.tags.contains "01", result.2)) = .ok (false, []) := by
    decide +kernel
  refine ⟨by decide +kernel, ?_⟩
  have hfirst : first.Sound := sound_new _
  obtain ⟨p, events, hp, hpsound, -⟩ := hfirst.run timely
  obtain ⟨q, events', hq, -⟩ := hfirst.run timely'
  obtain ⟨next, gone, hact, hnext, -⟩ :=
    hpsound.act (a := .ageOut 2000000000000) (by simp)
  simp only [hp, hact, Except.bind, ok_map] at hgone
  obtain ⟨hforgotten, rfl⟩ := Prod.mk.inj (Except.ok.inj hgone)
  obtain ⟨last, later, hlast, -⟩ := hnext.run timely
  obtain ⟨last', later', hlast', -⟩ := (sound_new next.config).run timely'
  obtain ⟨told, hcourse, rfl⟩ := run_eq_ok_iff.1 hp
  obtain ⟨told', hcourse', rfl⟩ := run_eq_ok_iff.1 hq
  obtain ⟨again, hagain, rfl⟩ := run_eq_ok_iff.1 hlast
  obtain ⟨fresh, hfresh, rfl⟩ := run_eq_ok_iff.1 hlast'
  obtain ⟨htold, hrecord⟩ :=
    (tags_independent (.new _)).1 (.new _) rfl rfl (hmatch _) hcourse hcourse'
  obtain ⟨hevents, -⟩ := (tags_independent (Built.course (.new _) hcourse)).2.2.2 hact
    (by simp [← Std.TreeMap.contains_iff_mem, hforgotten]) (.done _) (by simp) rfl (hmatch _)
    hagain hfresh
  exact ⟨told, told', p, q, next, again, fresh, last, last', hcourse, hcourse', htold, hrecord,
    hact, hagain, hfresh, hevents⟩

end Inventory

end TagGateway
