import TagGateway.Proofs.Inventory.Noninterference

set_option autoImplicit false

namespace TagGateway

namespace Reading

/-- The octets of the tag's EPC: those of the short field if it holds any, else those of the long
one. -/
def epcOctets (r : Reading) : List UInt8 :=
  let short := r.shortEpc.elim [] (·.epc.toList)
  if short.isEmpty then r.longEpc.elim [] (·.epc.toList) else short

/-- The reading has a short EPC without octets. -/
def Blank (r : Reading) : Prop := r.shortEpc = some ⟨⟨[]⟩⟩

variable {r : Reading}

theorem epc?_of_blank (h : r.Blank) : r.epc? = some "" := by
  unfold Blank at h
  simp [epc?, h, Octets.hex, Octets.hexChars]

theorem epc?_of_not_blank (h : ¬r.Blank) :
    r.epc? = if r.epcOctets = [] then none else some (Octets.hex ⟨r.epcOctets⟩) := by
  unfold Blank at h
  cases hshort : r.shortEpc with
  | some short =>
    have hsome : short.epc.toList ≠ [] := by
      intro hnone
      exact h (by rw [hshort, ← hnone])
    simp [epc?, epcOctets, hshort, hsome]
  | none =>
    cases hlong : r.longEpc with
    | none => simp [epc?, epcOctets, hshort, hlong]
    | some long =>
      by_cases hnone : long.epc.toList = [] <;>
        simp [epc?, epcOctets, hshort, hlong, hnone, Option.filter]

theorem blank_of_epc? (h : r.epc? = some "") : r.Blank := by
  by_contra hblank
  rw [epc?_of_not_blank hblank] at h
  split at h
  · cases h
  · next hsome =>
    have hhex : Octets.hex ⟨r.epcOctets⟩ = Octets.hex ⟨[]⟩ := Option.some.inj h
    exact hsome (congrArg Octets.toList (Octets.hex_injective hhex))

end Reading

variable {R : Type} [Level R]

namespace Inventory

def read (inv : Inventory R) (device : String) (origin : Int64) (offset : Int) (r : Reading) :
    Inventory R × Except Overflow (Option Event) :=
  match r.sighting? inv.config device origin offset with
  | some s => inv.sight s
  | none => (inv, .ok none)

def readAll (inv : Inventory R) (device : String) (origin : Int64) (offset : Int) :
    List Reading → Inventory R × Except Overflow (List Event)
  | [] => (inv, .ok [])
  | r :: rest =>
    match inv.read device origin offset r with
    | (inv, .error e) => (inv, .error e)
    | (inv, .ok event) =>
      let (inv, outcome) := inv.readAll device origin offset rest
      (inv, outcome.map (event.toList ++ ·))

theorem sightAll_eq_readAll (inv : Inventory R) (device : String) (origin : Int64) (offset : Int)
    (batch : List Reading) :
    inv.sightAll (batch.filterMap (·.sighting? inv.config device origin offset))
      = inv.readAll device origin offset batch := by
  induction batch generalizing inv with
  | nil => rfl
  | cons r rest ih =>
    cases hready : r.sighting? inv.config device origin offset with
    | none =>
      have hrest := ih inv
      simp only [List.filterMap_cons, hready, readAll, read, Option.toList_none, List.nil_append]
      rw [hrest]
      cases inv.readAll device origin offset rest with
      | mk last outcome => cases outcome <;> rfl
    | some s =>
      have hrest := ih (inv.sight s).1
      have hconfig : (inv.sight s).1.config = inv.config := rfl
      simp only [List.filterMap_cons, hready, readAll, read, sightAll]
      cases hs : inv.sight s with
      | mk next outcome =>
        rw [hconfig, hs] at hrest
        cases outcome with
        | error e => rfl
        | ok event => simp only [hrest]

end Inventory

/-- Whatever the inventory, the reading takes effect on the record of a tag, which it makes if there
is none, and on no other. -/
def Reading.Touches (R : Type) [Level R] (r : Reading) (epc : String) : Prop :=
  ∀ (inv : Inventory R) (device : String) (origin : Int64) (offset : Int),
    (∃ s, r.sighting? inv.config device origin offset = some s
      ∧ (inv.read device origin offset r).1.tags[epc]?
        = some ((inv.tag epc).sight inv.config.mobility s).1)
    ∧ ∀ other : String, other ≠ epc →
      (inv.read device origin offset r).1.tags[other]? = inv.tags[other]?

namespace Reading

variable {r r' : Reading} {epc epc' : String}

theorem Touches.unique (h : r.Touches R epc) (h' : r.Touches R epc') : epc = epc' := by
  by_contra hne
  -- In an empty inventory there is a record of a tag afterwards only if the reading made it.
  let inv : Inventory R := .new .default
  obtain ⟨s, -, hmade⟩ := (h inv "" 0 0).1
  rw [(h' inv "" 0 0).2 epc hne] at hmade
  simp [inv, Inventory.new] at hmade

theorem read_of_none (h : r.epc? = none) (inv : Inventory R) (device : String) (origin : Int64)
    (offset : Int) : inv.read device origin offset r = (inv, .ok none) := by
  simp [Inventory.read, sighting?, h]

theorem touches_iff : r.Touches R epc ↔ r.epc? = some epc := by
  have htouches : ∀ epc, r.epc? = some epc → r.Touches R epc := by
    intro epc h inv device origin offset
    obtain ⟨s, hs, hepc⟩ : ∃ s, r.sighting? inv.config device origin offset = some s
        ∧ s.epc = epc := by
      simp [sighting?, h]
    subst hepc
    simp only [Inventory.read, hs]
    refine ⟨⟨s, rfl, by rw [Inventory.sight_tags, if_pos rfl]⟩, fun other hne => ?_⟩
    rw [Inventory.sight_tags, if_neg hne]
  constructor
  · intro h
    cases hepc : r.epc? with
    | none =>
      obtain ⟨s, -, hmade⟩ := (h (.new .default) "" 0 0).1
      rw [read_of_none hepc] at hmade
      simp at hmade
    | some epc' => rw [h.unique (htouches epc' hepc)]
  · exact htouches epc

theorem touches_iff_of_octets (h : ¬r.Blank) (hoctets : r.epcOctets ≠ []) :
    r.Touches R epc ↔ epc = Octets.hex ⟨r.epcOctets⟩ := by
  rw [touches_iff, epc?_of_not_blank h, if_neg hoctets, Option.some_inj, eq_comm]

theorem touches_iff_of_blank (h : r.Blank) : r.Touches R epc ↔ epc = "" := by
  rw [touches_iff, epc?_of_blank h, Option.some_inj, eq_comm]

theorem touch_same_iff (h : ¬r.Blank) (h' : ¬r'.Blank) (hoctets : r.epcOctets ≠ [])
    (hoctets' : r'.epcOctets ≠ []) :
    (∃ epc, r.Touches R epc ∧ r'.Touches R epc) ↔ r.epcOctets = r'.epcOctets := by
  simp only [touches_iff_of_octets h hoctets, touches_iff_of_octets h' hoctets']
  constructor
  · rintro ⟨epc, rfl, hhex⟩
    exact congrArg Octets.toList (Octets.hex_injective hhex)
  · intro hsame
    exact ⟨_, rfl, by rw [hsame]⟩

end Reading

namespace InventoryAction

def Marked : InventoryAction R → Prop
  | .report _ _ batch => ∀ r ∈ batch, ¬r.Blank
  | .sweepDeparted _ | .ageOut _ | .updateConfig _ => True

variable {a : InventoryAction R}

omit [Level R] in
theorem Marked.without (h : a.Marked) : a.Without "" := by
  cases a with
  | report device origin batch =>
    refine List.filter_eq_nil_iff.2 fun r hr => ?_
    rw [decide_eq_true_eq]
    exact fun hepc => h r hr (Reading.blank_of_epc? hepc)
  | _ => trivial

end InventoryAction

namespace Inventory

/-- The inventories there are where no reading is blank: those that reports, sweeps, configurations
and restores lead to from empty ones, also by reports that failed halfway. A restore takes the
snapshot of such an inventory. -/
inductive Marked : Inventory R → Prop where
  | new (config : InventoryConfig R) : Marked (.new config)
  | act {inv next : Inventory R} {a : InventoryAction R} {events : List Event}
    (before : Marked inv) (marked : a.Marked) (step : inv.act a = .ok (next, events)) :
    Marked next
  | report {inv : Inventory R} (before : Marked inv) (device : String) (origin : Int64)
    {batch : List Reading} (marked : ∀ r ∈ batch, ¬r.Blank) :
    Marked (inv.report device origin batch).1
  | restore {inv source : Inventory R} (before : Marked inv) (taken : Marked source) :
    Marked (inv.restore source.snapshot)

variable {inv next : Inventory R} {event : Event}

theorem Marked.built (h : inv.Marked) : inv.Built := by
  induction h with
  | new config => exact .new config
  | act before marked step ih => exact ih.act step
  | report before device origin marked ih => exact ih.report device origin _
  | restore before taken ih _ => exact ih.restore _

theorem getElem?_sightAll_of_ne {epc : String} {sightings : List (Sighting R)}
    (h : ∀ s ∈ sightings, s.epc ≠ epc) (inv : Inventory R) :
    (inv.sightAll sightings).1.tags[epc]? = inv.tags[epc]? := by
  refine sightAll_keeps (P := fun next => next.tags[epc]? = inv.tags[epc]?)
    (fun s hs next hnext => ?_) rfl
  rw [sight_tags, if_neg (h s hs).symm]
  exact hnext

theorem Marked.getElem?_empty (h : inv.Marked) : inv.tags[""]? = none := by
  induction h with
  | new config => simp
  | act before marked step ih =>
    have hact := (before.built.keyed.act step).2.2 ""
    rw [ih] at hact
    exact (marked.without.act_none hact).1
  | @report inv before device origin batch marked ih =>
    refine (getElem?_sightAll_of_ne (fun s hs hepc => ?_) inv).trans ih
    obtain ⟨r, hr, hready⟩ := List.mem_filterMap.1 hs
    obtain ⟨epc, hread, rfl⟩ := Option.map_eq_some_iff.1 hready
    exact marked r hr (Reading.blank_of_epc? (hread.trans (congrArg some hepc)))
  | @restore inv source before taken ih ihsource =>
    have hkeyed : ∀ (epc : String) (t : Tag R), source.tags[epc]? = some t →
        t.snapshot.epc = epc := taken.built.keyed
    rw [snapshot, restore_map_tags inv hkeyed, ihsource, ih]
    rfl

theorem Marked.epc_ne (h : inv.Marked) {a : InventoryAction R} (marked : a.Marked)
    {events : List Event} (step : inv.act a = .ok (next, events)) : ∀ e ∈ events, e.epc ≠ "" := by
  have hact := (h.built.keyed.act step).2.2 ""
  rw [h.getElem?_empty] at hact
  have hnone := (marked.without.act_none hact).2
  intro e he hepc
  have hmem : e ∈ eventsOf "" events := List.mem_filter.2 ⟨he, by simpa using hepc⟩
  rw [hnone] at hmem
  cases hmem

theorem Built.touches (h : inv.Built) {device : String} {origin : Int64} {offset : Int}
    {r : Reading} (hread : inv.read device origin offset r = (next, .ok (some event))) :
    r.Touches R event.epc := by
  rw [Reading.touches_iff]
  unfold read at hread
  split at hread
  · next s hs =>
    obtain ⟨epc, hepc, rfl⟩ := Option.map_eq_some_iff.1 hs
    obtain ⟨-, -, hevent⟩ := h.keyed.sight_own hread
    rw [hepc, hevent event rfl]
  · cases hread

/-- A tag is known by the octets of its EPC. A batch is taken reading by reading. One that has
octets and no blank short EPC touches the tag of these octets and no other, so that readings are of
the same tag exactly if they have the same octets; what is told of it is told of this tag; and one
without octets is passed over. A blank short EPC, though, is taken for the EPC of a tag, whatever
the long one; where no reading is blank no tag is without an EPC, and nothing is told of one. -/
theorem tags_by_octets (R : Type) [Level R] :
    (∀ (inv : Inventory R) (device : String) (origin : Int64) (batch : List Reading),
      inv.report device origin batch
        = inv.readAll device origin (batchOffset inv.config origin batch) batch)
    ∧ (∀ r : Reading, ¬r.Blank →
        (r.epcOctets ≠ [] → ∀ epc, r.Touches R epc ↔ epc = Octets.hex ⟨r.epcOctets⟩)
        ∧ (r.epcOctets = [] → ∀ (inv : Inventory R) (device : String) (origin : Int64)
          (offset : Int), inv.read device origin offset r = (inv, .ok none)))
    ∧ (∀ r r' : Reading, ¬r.Blank → ¬r'.Blank → r.epcOctets ≠ [] → r'.epcOctets ≠ [] →
        ((∃ epc, r.Touches R epc ∧ r'.Touches R epc) ↔ r.epcOctets = r'.epcOctets))
    ∧ (∀ r : Reading, r.Blank → ∀ epc, r.Touches R epc ↔ epc = "")
    ∧ (∀ (inv next : Inventory R) (device : String) (origin : Int64) (offset : Int) (r : Reading)
        (event : Event), inv.Built →
        inv.read device origin offset r = (next, .ok (some event)) → r.Touches R event.epc)
    ∧ ∀ inv : Inventory R, inv.Marked →
      (∀ (epc : String) (t : Tag R), inv.tags[epc]? = some t → t.epc = epc ∧ epc ≠ "")
      ∧ ∀ (a : InventoryAction R) (next : Inventory R) (events : List Event), a.Marked →
        inv.act a = .ok (next, events) → ∀ e ∈ events, e.epc ≠ "" := by
  refine ⟨fun inv device origin batch => inv.sightAll_eq_readAll device origin _ batch,
    fun r h => ⟨fun hoctets epc => Reading.touches_iff_of_octets h hoctets, fun hnone => ?_⟩,
    fun r r' => Reading.touch_same_iff, fun r h epc => Reading.touches_iff_of_blank h,
    fun inv next device origin offset r event h => h.touches, fun inv h => ⟨?_, ?_⟩⟩
  · exact Reading.read_of_none (by rw [Reading.epc?_of_not_blank h, if_pos hnone])
  · intro epc t ht
    refine ⟨h.built.keyed epc t ht, ?_⟩
    rintro rfl
    cases ht.symm.trans h.getElem?_empty
  · intro a next events marked step
    exact h.epc_ne marked step

/-- A tag is read once by its short EPC and once by a long one with the same octets, and then there
is a reading without octets. -/
theorem tags_by_octets_both :
    let short : Reading := { shortEpc := some ⟨⟨[0xE2, 1]⟩⟩ }
    let long : Reading := { longEpc := some { epc := ⟨[0xE2, 1]⟩ } }
    let neither : Reading := { longEpc := some { epc := ⟨[]⟩ } }
    let first : Inventory Float := .new .default
    let inv := (first.report "dock" 0 [short, long, neither]).1
    short.Touches Float "e201" ∧ long.Touches Float "e201"
      ∧ first.read "dock" 0 0 neither = (first, .ok none)
      ∧ inv.Marked ∧ ∃ t, inv.tags["e201"]? = some t ∧ t.epc = "e201" := by
  intro short long neither first inv
  obtain ⟨-, hoctets, -, -, -, hmarked⟩ := tags_by_octets Float
  have hshort : ¬short.Blank := by simp [short, Reading.Blank]
  have hlong : ¬long.Blank := by simp [long, Reading.Blank]
  have hneither : ¬neither.Blank := by simp [neither, Reading.Blank]
  have hinv : inv.Marked := .report (.new .default) "dock" 0 (by simp [hshort, hlong, hneither])
  have hthere : inv.tags["e201"]?.isSome := by decide +kernel
  obtain ⟨t, ht⟩ := Option.isSome_iff_exists.1 hthere
  exact ⟨((hoctets short hshort).1 (by decide) _).2 (by decide +kernel),
    ((hoctets long hlong).1 (by decide) _).2 (by decide +kernel),
    (hoctets neither hneither).2 rfl first "dock" 0 0,
    hinv, t, ht, ((hmarked inv hinv).1 _ t ht).1⟩

/-- Readings with a blank short EPC, one of them with octets in the long one: neither is passed
over, and both are taken for readings of a tag without an EPC. -/
theorem arrived_of_blank :
    let long : Reading :=
      { shortEpc := some ⟨⟨[]⟩⟩, longEpc := some { epc := ⟨[1]⟩ }
        fields := { antenna := some 1 } }
    let neither : Reading := { shortEpc := some ⟨⟨[]⟩⟩, fields := { antenna := some 1 } }
    let first : Inventory Float := .new .default
    long.epcOctets = [1] ∧ neither.epcOctets = []
      ∧ ¬long.Touches Float "01" ∧ neither.Touches Float ""
      ∧ first.act (.report "dock" 0 [neither])
        = .ok ((first.report "dock" 0 [neither]).1, [.arrived "" "" 0 "dock_1"])
      ∧ first.act (.report "dock" 0 [long])
        = .ok ((first.report "dock" 0 [long]).1, [.arrived "" "" 0 "dock_1"])
      ∧ (first.report "dock" 0 [long]).1.tags["01"]?.isNone := by
  intro long neither first
  have hlong : long.Touches Float "01" ↔ "01" = "" := Reading.touches_iff_of_blank rfl
  have hneither : neither.Touches Float "" ↔ "" = "" := Reading.touches_iff_of_blank rfl
  refine ⟨rfl, rfl, ?_, hneither.2 rfl, rfl, rfl, by decide +kernel⟩
  rw [hlong]
  decide

end Inventory

end TagGateway
