import Mathlib.Order.Bounds.Basic
import TagGateway.Proofs.Inventory.Independence

set_option autoImplicit false

namespace TagGateway

namespace Reading

/-- A tag was seen at this time by the reader's clock: when it was seen last or, for want of that,
first. A time of 64 bits does not count. -/
def SeenAt (r : Reading) (micros : Int) : Prop :=
  ∃ n : UInt64, (r.fields.lastSeenUtc = some n
      ∨ r.fields.lastSeenUtc = none ∧ r.fields.firstSeenUtc = some n)
    ∧ n.toNat < 0x8000000000000000 ∧ micros = n.toNat

variable {r r' : Reading} {t : Int}

theorem seenMicros?_eq_some_iff : r.seenMicros? = some t ↔ r.SeenAt t := by
  have htime (n : UInt64) : r.timestamp? = some n ↔
      r.fields.lastSeenUtc = some n
        ∨ r.fields.lastSeenUtc = none ∧ r.fields.firstSeenUtc = some n := by
    unfold timestamp?
    cases r.fields.lastSeenUtc <;> simp
  simp only [seenMicros?, Option.filter_eq_some_iff, Option.map_eq_some_iff, htime, SeenAt,
    fitsWord_iff]
  constructor
  · rintro ⟨⟨n, hn, rfl⟩, -, hlt⟩
    exact ⟨n, hn, by omega, rfl⟩
  · rintro ⟨n, hn, hlt, rfl⟩
    exact ⟨⟨n, hn, rfl⟩, by omega, by omega⟩

theorem seenMicros?_eq_none (h : ∀ t, ¬r.SeenAt t) : r.seenMicros? = none :=
  Option.eq_none_iff_forall_ne_some.2 fun t ht => h t (seenMicros?_eq_some_iff.1 ht)

theorem SeenAt.bounds (h : r.SeenAt t) : 0 ≤ t ∧ t < 0x8000000000000000 := by
  obtain ⟨n, -, hlt, rfl⟩ := h
  omega

/-- The same reading by a clock that is ahead by so much. A time that does not count is none on
either clock. -/
structure Shifted (ahead : Int) (r r' : Reading) : Prop where
  rest : r' = { r with
    fields := { r.fields with
      firstSeenUtc := r'.fields.firstSeenUtc, lastSeenUtc := r'.fields.lastSeenUtc } }
  seen : ∀ t, r'.SeenAt (t + ahead) ↔ r.SeenAt t

theorem Shifted.of_seen {ahead : Int}
    (rest : r' = { r with
      fields := { r.fields with
        firstSeenUtc := r'.fields.firstSeenUtc, lastSeenUtc := r'.fields.lastSeenUtc } })
    (h : r.seenMicros? = some t) (h' : r'.seenMicros? = some (t + ahead)) :
    r.Shifted ahead r' := by
  refine ⟨rest, fun u => ?_⟩
  rw [← seenMicros?_eq_some_iff, ← seenMicros?_eq_some_iff, h, h', Option.some.injEq,
    Option.some.injEq]
  omega

end Reading

def seenTimes (batch : List Reading) : Set Int := {t | ∃ r ∈ batch, r.SeenAt t}

variable {batch batch' : List Reading} {origin : Int64} {latest ahead : Int}

theorem latestMicros?_eq_some_iff :
    latestMicros? batch = some latest ↔ IsGreatest (seenTimes batch) latest := by
  have hmem (t : Int) : t ∈ batch.filterMap Reading.seenMicros? ↔ t ∈ seenTimes batch := by
    simp only [List.mem_filterMap, Reading.seenMicros?_eq_some_iff, seenTimes, Set.mem_ofPred_eq]
  simp only [latestMicros?, List.max?_eq_some_iff, hmem]
  rfl

theorem exists_latest {r : Reading} {t : Int} (hr : r ∈ batch) (h : r.SeenAt t) :
    ∃ latest, IsGreatest (seenTimes batch) latest := by
  cases hlatest : latestMicros? batch with
  | some latest => exact ⟨latest, latestMicros?_eq_some_iff.1 hlatest⟩
  | none =>
    have hmem := List.mem_filterMap.2 ⟨r, hr, Reading.seenMicros?_eq_some_iff.2 h⟩
    rw [List.max?_eq_none_iff.1 hlatest] at hmem
    cases hmem

theorem mem_seenTimes_cons {r : Reading} {t : Int} :
    t ∈ seenTimes (r :: batch) ↔ r.SeenAt t ∨ t ∈ seenTimes batch := by
  simp [seenTimes]

theorem mem_seenTimes_shifted (h : List.Forall₂ (Reading.Shifted ahead) batch batch') (t : Int) :
    t + ahead ∈ seenTimes batch' ↔ t ∈ seenTimes batch := by
  induction h with
  | nil => simp [seenTimes]
  | cons first later ih => rw [mem_seenTimes_cons, mem_seenTimes_cons, first.seen, ih]

theorem isGreatest_shifted (h : List.Forall₂ (Reading.Shifted ahead) batch batch')
    (hlatest : IsGreatest (seenTimes batch) latest) :
    IsGreatest (seenTimes batch') (latest + ahead) := by
  refine ⟨(mem_seenTimes_shifted h latest).2 hlatest.1, fun t ht => ?_⟩
  have hle := hlatest.2 ((mem_seenTimes_shifted h (t - ahead)).1 (by rwa [Int.sub_add_cancel]))
  omega

theorem bounds_of_latest (h : IsGreatest (seenTimes batch) latest) :
    0 ≤ latest ∧ latest < 0x8000000000000000 := by
  obtain ⟨⟨r, -, hseen⟩, -⟩ := h
  exact hseen.bounds

theorem originMicros_bounds (horigin : 0 ≤ origin.toInt) :
    0 ≤ originMicros origin ∧ originMicros origin ≤ farthestMillis := by
  have hle := (tdiv_bounds (Int.le_refl 1000) (fitsWord_toInt origin)).2
  exact ⟨Int.tdiv_nonneg horigin (by decide), hle⟩

theorem originMillis_eq (horigin : 0 ≤ origin.toInt) :
    originMillis origin = (originMicros origin).tdiv 1000 := by
  unfold originMillis originMicros
  rw [Int.tdiv_eq_ediv_of_nonneg horigin, Int.tdiv_eq_ediv_of_nonneg horigin,
    Int.tdiv_eq_ediv_of_nonneg (by omega)]
  omega

/-- The clock is off by the latest time against the receiver's, whatever that latest time is. -/
theorem clockOffset_eq (horigin : 0 ≤ origin.toInt) (h : IsGreatest (seenTimes batch) latest) :
    clockOffset origin batch = originMicros origin - latest := by
  have hmax := latestMicros?_eq_some_iff.2 h
  have hlatest := bounds_of_latest h
  have hmicros := originMicros_bounds horigin
  unfold farthestMillis at hmicros
  unfold latestMicros? at hmax
  rw [clockOffset, hmax]
  exact clampWord_eq_self (fitsWord_iff.2 (by omega))

theorem effectiveMillis_seen {r : Reading} {t offset : Int} (hseen : r.SeenAt t)
    (hfits : fitsWord (t + offset) = true) :
    (effectiveMillis origin offset r).toInt = (t + offset).tdiv 1000 := by
  rw [effectiveMillis, Reading.seenMicros?_eq_some_iff.2 hseen]
  dsimp only
  rw [clampWord_eq_self hfits, toInt_ofInt_tdiv (Int.le_refl 1000) hfits]

theorem effectiveMillis_unseen {r : Reading} {offset : Int} (h : ∀ t, ¬r.SeenAt t) :
    (effectiveMillis origin offset r).toInt = originMillis origin := by
  rw [effectiveMillis, Reading.seenMicros?_eq_none h]
  exact toInt_ofInt_tdiv (by decide) (fitsWord_toInt origin)

/-- Times that are set right by the time when a batch was received. -/
structure SetRight (origin : Int64) (batch : List Reading) (time : Reading → Int) : Prop where
  seen : ∀ r ∈ batch, ∀ t, r.SeenAt t → ∃ latest, IsGreatest (seenTimes batch) latest
    ∧ time r = (t - latest + origin.toInt.tdiv 1000).tdiv 1000
    ∧ (t = latest → time r = originMillis origin)
  unseen : ∀ r ∈ batch, (∀ t, ¬r.SeenAt t) → time r = originMillis origin
  le_origin : ∀ r ∈ batch, time r ≤ originMillis origin
  ordered : ∀ r ∈ batch, ∀ r' ∈ batch, ∀ t t', r.SeenAt t → r'.SeenAt t' → t ≤ t' →
    time r ≤ time r'

theorem setRight_of_seen {time : Reading → Int} (horigin : 0 ≤ origin.toInt)
    (seen : ∀ r ∈ batch, ∀ t, r.SeenAt t → ∃ latest, IsGreatest (seenTimes batch) latest
      ∧ time r = (t - latest + originMicros origin).tdiv 1000)
    (unseen : ∀ r ∈ batch, (∀ t, ¬r.SeenAt t) → time r = originMillis origin) :
    SetRight origin batch time where
  seen r hr t ht := by
    obtain ⟨latest, hlatest, htime⟩ := seen r hr t ht
    refine ⟨latest, hlatest, htime, fun hlast => ?_⟩
    rw [htime, originMillis_eq horigin, hlast, Int.sub_self, Int.zero_add]
  unseen := unseen
  le_origin r hr := by
    by_cases h : ∃ t, r.SeenAt t
    · obtain ⟨t, ht⟩ := h
      obtain ⟨latest, hlatest, htime⟩ := seen r hr t ht
      have hle := hlatest.2 ⟨r, hr, ht⟩
      rw [htime, originMillis_eq horigin]
      exact Int.tdiv_le_tdiv (by decide) (by omega)
    · exact Int.le_of_eq (unseen r hr (not_exists.1 h))
  ordered r hr r' hr' t t' ht ht' hle := by
    obtain ⟨latest, hlatest, htime⟩ := seen r hr t ht
    obtain ⟨latest', hlatest', htime'⟩ := seen r' hr' t' ht'
    rw [htime, htime', hlatest.unique hlatest']
    exact Int.tdiv_le_tdiv (by decide) (by omega)

theorem setRight_effectiveMillis (horigin : 0 ≤ origin.toInt) (batch : List Reading) :
    SetRight origin batch fun r =>
      (effectiveMillis origin (clockOffset origin batch) r).toInt := by
  refine setRight_of_seen horigin (fun r hr t ht => ?_) fun r hr => effectiveMillis_unseen
  obtain ⟨latest, hlatest⟩ := exists_latest hr ht
  have hsum : t + clockOffset origin batch = t - latest + originMicros origin := by
    rw [clockOffset_eq horigin hlatest]
    omega
  -- The time is no later than the latest, so the sum is no later than the receiver's time.
  have hfits : fitsWord (t + clockOffset origin batch) = true := by
    have hmicros := originMicros_bounds horigin
    have hle := hlatest.2 ⟨r, hr, ht⟩
    have := ht.bounds
    have := bounds_of_latest hlatest
    unfold farthestMillis at hmicros
    rw [hsum]
    exact fitsWord_iff.2 (by omega)
  exact ⟨latest, hlatest, by rw [effectiveMillis_seen ht hfits, hsum]⟩

theorem effectiveMillis_shifted (horigin : 0 ≤ origin.toInt)
    (h : List.Forall₂ (Reading.Shifted ahead) batch batch') {r r' : Reading} (hr : r ∈ batch)
    (hshifted : r.Shifted ahead r') :
    effectiveMillis origin (clockOffset origin batch') r'
      = effectiveMillis origin (clockOffset origin batch) r := by
  unfold effectiveMillis
  cases hseen : r.seenMicros? with
  | some t =>
    have ht := Reading.seenMicros?_eq_some_iff.1 hseen
    obtain ⟨latest, hlatest⟩ := exists_latest hr ht
    have hsum : t + ahead + (originMicros origin - (latest + ahead))
        = t + (originMicros origin - latest) := by omega
    rw [Reading.seenMicros?_eq_some_iff.2 ((hshifted.seen t).2 ht), clockOffset_eq horigin hlatest,
      clockOffset_eq horigin (isGreatest_shifted h hlatest)]
    dsimp only
    rw [hsum]
  | none =>
    have hnone : r'.seenMicros? = none := by
      refine Reading.seenMicros?_eq_none fun t ht => ?_
      rw [← Int.sub_add_cancel t ahead, hshifted.seen] at ht
      cases hseen.symm.trans (Reading.seenMicros?_eq_some_iff.2 ht)
    rw [hnone]

variable {R : Type} [Level R]

theorem Reading.Shifted.sighting?_eq {r r' : Reading} (h : r.Shifted ahead r')
    (c : InventoryConfig R) (device : String) {offset offset' : Int}
    (htime : effectiveMillis origin offset' r' = effectiveMillis origin offset r) :
    r'.sighting? c device origin offset' = r.sighting? c device origin offset := by
  have hepc : r'.epc? = r.epc? := by rw [h.rest]; rfl
  have htid : r'.tid? = r.tid? := by rw [h.rest]; rfl
  have hantenna : r'.fields.antenna = r.fields.antenna := by rw [h.rest]
  have hstrength : (r'.strength? : Option R) = r.strength? := by rw [h.rest]; rfl
  rw [sighting?, sighting?, hepc, htid, htime, hantenna, hstrength]

theorem filterMap_eq_of_forall₂ {α β γ : Type} {related : α → β → Prop} {f : α → Option γ}
    {g : β → Option γ} {l : List α} {l' : List β} (h : List.Forall₂ related l l')
    (heq : ∀ a ∈ l, ∀ b, related a b → f a = g b) : l.filterMap f = l'.filterMap g := by
  induction h with
  | nil => rfl
  | @cons a b l l' first later ih =>
    obtain ⟨ha, hl⟩ := List.forall_mem_cons.1 heq
    rw [List.filterMap_cons, List.filterMap_cons, ha b first, ih hl]

namespace Inventory

/-- Where the clock is set right, a batch takes effect as readings with times that are: the latest
by the reader's clock, and those without a time, when the batch was received, and the others exactly
as long before as the clock says. So a clock that is ahead by whatever constant has no effect. -/
theorem skew_removed {inv : Inventory R} (adjusts : inv.config.adjustByOrigin = true)
    (device : String) {origin : Int64} (horigin : 0 ≤ origin.toInt) (batch : List Reading) :
    (∃ time : Reading → Int64, SetRight origin batch (fun r => (time r).toInt)
      ∧ (∀ r s, inv.ready device origin batch r = some s → s.time = time r)
      ∧ inv.report device origin batch
        = inv.sightAll (batch.filterMap (inv.ready device origin batch)))
    ∧ ∀ (ahead : Int) (batch' : List Reading),
      List.Forall₂ (Reading.Shifted ahead) batch batch' →
      inv.report device origin batch' = inv.report device origin batch := by
  have hoffset (batch : List Reading) :
      batchOffset inv.config origin batch = clockOffset origin batch := if_pos adjusts
  refine ⟨⟨effectiveMillis origin (clockOffset origin batch),
    setRight_effectiveMillis horigin batch, fun r s hs => ?_, rfl⟩, fun ahead batch' h => ?_⟩
  · obtain ⟨epc, -, rfl⟩ := Option.map_eq_some_iff.1 hs
    rw [hoffset]
  · have hready : batch.filterMap (inv.ready device origin batch)
        = batch'.filterMap (inv.ready device origin batch') := by
      refine filterMap_eq_of_forall₂ h fun r hr r' hshifted =>
        (hshifted.sighting?_eq _ _ ?_).symm
      rw [hoffset, hoffset]
      exact effectiveMillis_shifted horigin h hr hshifted
    exact congrArg inv.sightAll hready.symm

/-- Two tags seen three seconds apart, and the same by a clock that is seven microseconds ahead. -/
theorem skew_removed_ahead :
    let early (t : UInt64) : Reading :=
      { shortEpc := some ⟨⟨[1]⟩⟩, fields := { antenna := some 1, firstSeenUtc := some t } }
    let late (t : UInt64) : Reading :=
      { shortEpc := some ⟨⟨[2]⟩⟩, fields := { antenna := some 1, lastSeenUtc := some t } }
    let inv : Inventory Float := .new .default
    inv.config.adjustByOrigin = true ∧ 0 ≤ Int64.toInt 10000000000
      ∧ (inv.report "dock" 10000000000 [early 2000000, late 5000000]).2
        = .ok [.arrived "01" "" 7000 "dock_1", .arrived "02" "" 10000 "dock_1"]
      ∧ inv.report "dock" 10000000000 [early 2000007, late 5000007]
        = inv.report "dock" 10000000000 [early 2000000, late 5000000] := by
  intro early late inv
  have hearly : (early 2000000).Shifted 7 (early 2000007) :=
    .of_seen rfl (t := 2000000) (by decide) (by decide)
  have hlate : (late 5000000).Shifted 7 (late 5000007) :=
    .of_seen rfl (t := 5000000) (by decide) (by decide)
  exact ⟨rfl, by decide, by decide +kernel, (skew_removed rfl "dock" (by decide) _).2 7 _
    (.cons hearly (.cons hlate .nil))⟩

end Inventory

end TagGateway
