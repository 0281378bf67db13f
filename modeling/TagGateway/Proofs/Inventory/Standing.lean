import TagGateway.Proofs.Inventory.Reachable
import TagGateway.Proofs.Results

/-!
What is known of the tags that were ever located. Main statements: readings that no event comes of
change none of it, a sweep that changes any of it says so, and a restore brings it back.
-/

set_option autoImplicit false

namespace TagGateway

structure Standing where
  epc : String
  state : TagState
  location : String
  lastArrived : Int64
  lastDeparted : Int64
  deriving DecidableEq, Repr

variable {R : Type}

def Tag.standing? (t : Tag R) : Option Standing :=
  if t.state = .unknown then none
  else some
    { epc := t.epc, state := t.state, location := t.location, lastArrived := t.lastArrived,
      lastDeparted := t.lastDeparted }

def TagRecord.standing? (r : TagRecord R) : Option Standing :=
  if r.state = .unknown then none
  else some
    { epc := r.epc, state := r.state, location := r.location, lastArrived := r.lastArrived,
      lastDeparted := r.lastDeparted }

theorem TagRecord.Recalls.standing? {r : TagRecord R} {t : Tag R} (h : r.Recalls t) :
    r.standing? = t.standing? := by
  simp [TagRecord.standing?, Tag.standing?, h.epc, h.state, h.location, h.lastArrived,
    h.lastDeparted]

namespace Inventory

def standings (inv : Inventory R) : List Standing :=
  inv.tags.toList.filterMap (·.2.standing?)

def Alike (inv inv' : Inventory R) : Prop :=
  ∀ epc, (inv.tag epc).standing? = (inv'.tag epc).standing?

theorem Alike.refl (inv : Inventory R) : inv.Alike inv := fun _ => rfl

theorem Alike.trans {inv inv' inv'' : Inventory R} (h : inv.Alike inv') (h' : inv'.Alike inv'') :
    inv.Alike inv'' := fun epc => (h epc).trans (h' epc)

theorem standing?_tag (inv : Inventory R) (epc : String) :
    (inv.tag epc).standing? = inv.tags[epc]?.bind Tag.standing? := by
  cases h : inv.tags[epc]? with
  | none => rw [tag_of_none h]; rfl
  | some t => rw [tag_of_getElem? h]; rfl

theorem Alike.standings_eq {inv inv' : Inventory R} (h : inv.Alike inv') :
    inv.standings = inv'.standings :=
  filterMap_toList_congr fun epc => by
    simpa only [standing?_tag] using h epc

variable [Level R]

/-- A reading that no event comes of changes nothing that is known of its tag. -/
theorem standing?_of_takes {t t' : Tag R} {m : Mobility R} {s : Sighting R}
    (h : t.Takes m s t' none) : t'.standing? = t.standing? := by
  cases h <;> rfl

theorem Sound.alike_of_reads {ready : Reading → Option (Sighting R)}
    (hready : ∀ r s, ready r = some s → s.Sound) {inv last : Inventory R} {batch : List Reading}
    {outcomes : List (Option Event)} (h : Reads ready inv batch last outcomes) (hi : inv.Sound)
    (quiet : outcomes.reduceOption = []) : inv.Alike last := by
  induction h with
  | done inv => exact .refl inv
  | skip _ _ ih => exact ih hi (by simpa using quiet)
  | @take inv next last r s batch event outcomes hr step rest ih =>
    obtain ⟨rfl, hrest⟩ : event = none ∧ outcomes.reduceOption = [] := by
      simpa using quiet
    obtain ⟨hsound, htakes, hothers⟩ := hi.of_sight (hready r s hr) step
    -- A tag first seen by this reading is as unknown as one that was never seen.
    refine Alike.trans (fun epc => ?_) (ih hsound hrest)
    by_cases hepc : epc = s.epc
    · rw [hepc, standing?_of_takes htakes]
    · rw [hothers epc hepc]

theorem Sound.report {inv : Inventory R} (hi : inv.Sound) (device : String) (origin : Int64)
    (batch : List Reading) :
    ∃ next events, inv.report device origin batch = (next, .ok events) ∧ next.Sound
      ∧ (events = [] → inv.Alike next) := by
  obtain ⟨next, outcomes, hreads, hsound, -⟩ := hi.reads _ ready_sound batch
  exact ⟨next, _, report_of_reads hreads, hsound, hi.alike_of_reads ready_sound hreads⟩

/-- What a sweep says of the inventory that it leaves: all of it, unless nothing has changed. -/
def Tells (inv next : Inventory R) (records : Option (List (TagRecord R))) : Prop :=
  records = none ∧ next = inv ∨ records = some next.snapshot

theorem Sound.sweepDeparted {inv : Inventory R} (hi : inv.Sound) {now : Int64}
    (hnow : 0 ≤ now.toInt) :
    ∃ next events records, inv.sweepDeparted now = .ok (next, events, records) ∧ next.Sound
      ∧ inv.Tells next records := by
  obtain ⟨next, events, hact, hsound, -⟩ := hi.act (a := .sweepDeparted now) hnow
  obtain ⟨records, hsweep⟩ := sweepDeparted_of_act hact
  refine ⟨next, events, records, hsweep, hsound, ?_⟩
  obtain ⟨expiry, -, hsweep⟩ := bind_eq_ok.1 hsweep
  dsimp only at hsweep
  split at hsweep
  · cases hsweep; exact .inl ⟨rfl, rfl⟩
  · cases hsweep; exact .inr rfl

theorem Sound.ageOut {inv : Inventory R} (hi : inv.Sound) {now : Int64} (hnow : 0 ≤ now.toInt) :
    ∃ next count records, inv.ageOut now = .ok (next, count, records) ∧ next.Sound
      ∧ inv.Tells next records := by
  obtain ⟨next, events, hact, hsound, -⟩ := hi.act (a := .ageOut now) hnow
  obtain ⟨-, count, records, hsweep⟩ := ageOut_of_act hact
  refine ⟨next, count, records, hsweep, hsound, ?_⟩
  obtain ⟨expiry, -, hsweep⟩ := bind_eq_ok.1 hsweep
  dsimp only at hsweep
  split at hsweep
  · cases hsweep; exact .inl ⟨rfl, rfl⟩
  · cases hsweep; exact .inr rfl

theorem Sound.restore_new {source : Inventory R} (hs : source.Sound) {tell : Tag R → TagRecord R}
    (htell : ∀ t, (tell t).Recalls t) (config : InventoryConfig R) :
    let inv := (Inventory.new config).restore (source.tags.toList.map (tell ·.2))
    inv.Sound ∧ source.Alike inv := by
  refine ⟨(sound_new config).restore fun r hr => ?_, fun epc => ?_⟩
  · obtain ⟨⟨epc, t⟩, hmem, rfl⟩ := List.mem_map.1 hr
    have ht := Std.TreeMap.mem_toList_iff_getElem?_eq_some.1 hmem
    exact ⟨t, hs.tags epc t ht, htell t⟩
  · have hkeyed : ∀ (epc : String) (t : Tag R), source.tags[epc]? = some t → (tell t).epc = epc :=
      fun epc t ht => (htell t).epc.trans (hs.keyed epc t ht)
    have hplace := restore_map_tags (Inventory.new config) hkeyed epc
    rw [standing?_tag, standing?_tag, hplace]
    cases source.tags[epc]? with
    | none => simp
    | some t => exact (htell t).standing?.symm

end Inventory

end TagGateway
