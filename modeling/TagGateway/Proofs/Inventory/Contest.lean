import Mathlib.Algebra.Order.BigOperators.Group.List
import Mathlib.Tactic.Linarith
import TagGateway.Proofs.Inventory.Windows

set_option autoImplicit false

namespace TagGateway

/-- The mean does not fall where no sample does. -/
theorem Window.average_mono {samples samples' : List ℚ}
    (h : List.Forall₂ (· ≤ ·) samples samples') :
    average samples ≤ average samples' := by
  unfold average
  rw [h.length_eq]
  exact div_le_div_of_nonneg_right h.sum_le_sum (Nat.cast_nonneg _)

namespace Mobility

variable {m : Mobility ℚ}

/-- The weight is on a line through the threshold at the end of the holdoff, or at the threshold
where the line is above. -/
theorem weightAfter_eq_min (m : Mobility ℚ) (elapsed : Int) :
    m.weightAfter elapsed = min (m.threshold + m.slope * (elapsed - m.holdoff)) m.threshold := by
  have hline : m.slope * (elapsed : ℚ) + (m.threshold - m.slope * m.holdoff)
      = m.threshold + m.slope * (elapsed - m.holdoff) := by ring
  rw [← hline, min_def]
  change (if decide (_ ≤ m.threshold) = true then _ else m.threshold) = _
  simp only [decide_eq_true_eq]
  rfl

theorem weightAfter_le_threshold (m : Mobility ℚ) (elapsed : Int) :
    m.weightAfter elapsed ≤ m.threshold := by
  rw [weightAfter_eq_min]
  exact min_le_right ..

theorem weightAfter_eq_threshold_iff (falling : m.slope ≤ 0) (elapsed : Int) :
    m.weightAfter elapsed = m.threshold ↔ m.slope = 0 ∨ (elapsed : ℚ) ≤ m.holdoff := by
  rw [weightAfter_eq_min, min_eq_right_iff, le_add_iff_nonneg_right]
  constructor
  · intro h
    by_contra! hnot
    have hslope : m.slope < 0 := lt_of_le_of_ne falling hnot.1
    have := mul_neg_of_neg_of_pos hslope (sub_pos.2 hnot.2)
    linarith
  · rintro (h | h)
    · simp [h]
    · exact mul_nonneg_of_nonpos_of_nonpos falling (sub_nonpos.2 h)

theorem weightAfter_antitone (falling : m.slope ≤ 0) {elapsed later : Int} (h : elapsed ≤ later) :
    m.weightAfter later ≤ m.weightAfter elapsed := by
  have hcast : (elapsed : ℚ) - m.holdoff ≤ later - m.holdoff :=
    sub_le_sub_right (Int.cast_le.2 h) _
  have := mul_le_mul_of_nonpos_left hcast falling
  rw [weightAfter_eq_min, weightAfter_eq_min]
  exact min_le_min_right _ (by linarith)

end Mobility

theorem InventoryConfig.slope_nonpos {c : InventoryConfig ℚ} (valid : c.validate = .ok ()) :
    c.mobility.slope ≤ 0 := by
  unfold validate at valid
  repeat' split at valid
  all_goals simp_all [Level.isFinite, Level.lt, Level.ofInt]

namespace Tag

/-- Two locations that a tag is between. The one that has it was the last to read it at a time and
has some samples, and the other one has two at least. -/
structure Contest (t : Tag ℚ) (rival : String) (last : Int64) (held heard : List ℚ) : Prop where
  located : t.location ≠ ""
  elsewhere : rival ≠ t.location
  holder : ∃ w : Window ℚ, t.stats[t.location]? = some { lastRead := last, samples := w }
    ∧ w.Summed ∧ w.toList = held
  challenger : ∃ p : PlaceStats ℚ, t.stats[rival]? = some p
    ∧ p.samples.Summed ∧ p.samples.toList = heard
  held_ne : held ≠ []
  heard_two : 2 ≤ heard.length

variable {t t' : Tag ℚ} {rival rival' : String} {last last' : Int64}
  {held held' heard heard' : List ℚ}

theorem Contest.shouldAssign (h : t.Contest rival last held heard) (reference : Int64)
    (m : Mobility ℚ) :
    t.shouldAssign rival reference m
      = (difference reference.toInt last.toInt).map fun elapsed =>
          decide (Window.average held + m.weightAfter elapsed < Window.average heard) := by
  obtain ⟨w, hholder, hw, rfl⟩ := h.holder
  obtain ⟨p, hchallenger, hp, rfl⟩ := h.challenger
  have hsamples : 2 ≤ p.samples.count := by
    rw [← Window.length_toList]
    exact h.heard_two
  have hne : p.samples.toList ≠ [] := by
    intro hnil
    have := h.heard_two
    simp [hnil] at this
  have hmean := hw.mean? h.held_ne
  have hmean' := hp.mean? hne
  have hold : (t.stats[t.location]?.bind fun s => s.mean?.map fun mean => (mean, s.lastRead))
      = some (Window.average w.toList, last) := by
    simp [hholder, PlaceStats.mean?, hmean]
  have hnew : (t.stats[rival]?.filter fun s => 2 ≤ s.samples.count).bind (·.mean?)
      = some (Window.average p.samples.toList) := by
    simp [hchallenger, Option.filter, hsamples, PlaceStats.mean?, hmean']
  unfold Tag.shouldAssign
  rw [if_neg (not_or.2 ⟨h.located, Ne.symm h.elsewhere⟩), hold]
  simp only [hnew]
  unfold Mobility.weight
  cases difference reference.toInt last.toInt with
  | error e => rfl
  | ok elapsed => rfl

/-- The new location takes the tag over exactly if its mean is above the other one's by more than
the weight. -/
theorem Contest.takes_iff (h : t.Contest rival last held heard) (reference : Int64)
    (m : Mobility ℚ) :
    t.shouldAssign rival reference m = .ok true ↔ ∃ elapsed,
      difference reference.toInt last.toInt = .ok elapsed
        ∧ Window.average held + m.weightAfter elapsed < Window.average heard := by
  rw [h.shouldAssign]
  cases difference reference.toInt last.toInt with
  | error e => simp
  | ok elapsed => simp

theorem Contest.takes_still (h : t.Contest rival last held heard)
    (h' : t'.Contest rival' last' held' heard') {m : Mobility ℚ} (falling : m.slope ≤ 0)
    {reference reference' : Int64} (takes : t.shouldAssign rival reference m = .ok true)
    (later : reference ≤ reference') (earlier : last' ≤ last)
    (lowered : List.Forall₂ (· ≤ ·) held' held) (raised : List.Forall₂ (· ≤ ·) heard heard') :
    t'.shouldAssign rival' reference' m
      = (difference reference'.toInt last'.toInt).map fun _ => true := by
  obtain ⟨elapsed, helapsed, hwins⟩ := (h.takes_iff reference m).1 takes
  rw [h'.shouldAssign]
  cases helapsed' : difference reference'.toInt last'.toInt with
  | error e => rfl
  | ok elapsed' =>
    have hlonger : elapsed ≤ elapsed' := by
      rw [Int64.le_iff_toInt_le] at later earlier
      have := eq_sub_of_difference helapsed
      have := eq_sub_of_difference helapsed'
      omega
    have hweight := Mobility.weightAfter_antitone falling hlonger
    have hheld := Window.average_mono lowered
    have hheard := Window.average_mono raised
    simp only [ok_map, Except.ok.injEq, decide_eq_true_eq]
    linarith

/-- The contest is fair, and nothing that speaks for the new location counts against it. While the
location that has the tag has read it within the holdoff, its bonus is the threshold, and then it
falls; for a slope of zero it does not. In all inventories there are the running sums are exact. So
the new location takes the tag over exactly if its mean is above the other one's by more than the
bonus, and not if it is just as high; and where it does, it also does at a later time, with an
earlier last read at the other location, and with any samples raised here or lowered there. -/
theorem contest_monotone {c : InventoryConfig ℚ} (valid : c.validate = .ok ()) :
    (∀ elapsed : Int,
      (c.mobility.weightAfter elapsed = c.mobility.threshold
          ↔ c.mobility.slope = 0 ∨ (elapsed : ℚ) ≤ c.mobility.holdoff)
        ∧ c.mobility.weightAfter elapsed ≤ c.mobility.threshold
        ∧ ∀ later, elapsed ≤ later →
          c.mobility.weightAfter later ≤ c.mobility.weightAfter elapsed)
    ∧ (∀ inv : Inventory ℚ, inv.Built → inv.Windows Window.Summed)
    ∧ ∀ (t : Tag ℚ) (rival : String) (last : Int64) (held heard : List ℚ),
      t.Contest rival last held heard → ∀ reference : Int64,
        t.shouldAssign rival reference c.mobility
            = (difference reference.toInt last.toInt).map (fun elapsed => decide
                (Window.average held + c.mobility.weightAfter elapsed < Window.average heard))
          ∧ (-farthestMillis ≤ reference.toInt → reference.toInt ≤ farthestMillis →
              0 ≤ last.toInt → last.toInt ≤ farthestMillis →
              ∃ elapsed, difference reference.toInt last.toInt = .ok elapsed)
          ∧ (∀ elapsed, difference reference.toInt last.toInt = .ok elapsed →
              Window.average heard = Window.average held + c.mobility.weightAfter elapsed →
              t.shouldAssign rival reference c.mobility = .ok false)
          ∧ (t.shouldAssign rival reference c.mobility = .ok true →
              ∀ (t' : Tag ℚ) (rival' : String) (last' reference' : Int64) (held' heard' : List ℚ),
                t'.Contest rival' last' held' heard' → reference ≤ reference' → last' ≤ last →
                List.Forall₂ (· ≤ ·) held' held → List.Forall₂ (· ≤ ·) heard heard' →
                t'.shouldAssign rival' reference' c.mobility
                  = (difference reference'.toInt last'.toInt).map fun _ => true) := by
  have falling := InventoryConfig.slope_nonpos valid
  refine ⟨fun elapsed => ⟨Mobility.weightAfter_eq_threshold_iff falling elapsed,
      c.mobility.weightAfter_le_threshold elapsed,
      fun later h => Mobility.weightAfter_antitone falling h⟩,
    fun inv h => h.windows Window.invariant_summed,
    fun t rival last held heard h reference => ⟨h.shouldAssign reference c.mobility, ?_, ?_, ?_⟩⟩
  · intro hl hu h0 hr
    exact ⟨_, difference_eq_ok (fitsWord_elapsed hl hu h0 hr)⟩
  · intro elapsed helapsed htie
    rw [h.shouldAssign, helapsed, htie]
    simp
  · intro takes t' rival' last' reference' held' heard' h' later earlier lowered raised
    exact h.takes_still h' falling takes later earlier lowered raised

def between (last : Int64) (held heard : ℚ) : Tag ℚ :=
  let window : Window ℚ := .empty sampleCapacity sampleCapacity_pos
  { (Tag.new "01" : Tag ℚ) with
    location := "dock_1"
    stats := (Std.TreeMap.empty.insert "dock_1" ⟨last, window.add held⟩).insert "dock_2"
      ⟨last, (window.add heard).add heard⟩ }

theorem contest_between (last : Int64) (held heard : ℚ) :
    (between last held heard).Contest "dock_2" last [held] [heard, heard] where
  located := by simp [between]
  elsewhere := by simp [between]
  holder := by
    refine ⟨(Window.empty sampleCapacity sampleCapacity_pos).add held, ?_,
      (Window.summed_empty _ _).add _, rfl⟩
    simp [between, Std.TreeMap.getElem_insert]
  challenger := by
    refine ⟨⟨last, ((Window.empty sampleCapacity sampleCapacity_pos).add heard).add heard⟩, ?_,
      ((Window.summed_empty _ _).add _).add _, rfl⟩
    simp [between]
  held_ne := by simp
  heard_two := by simp

/-- Within the holdoff a location that is better by just the threshold does not get the tag, and one
that is better by more does: also later, if the tag was read even earlier and is heard better. -/
theorem contest_monotone_tie :
    (InventoryConfig.default : InventoryConfig ℚ).validate = .ok ()
      ∧ (between 500 (-50) (-44)).shouldAssign "dock_2" 1000 Mobility.default = .ok false
      ∧ (between 500 (-50) (-43)).shouldAssign "dock_2" 1000 Mobility.default = .ok true
      ∧ (between 400 (-51) (-42)).shouldAssign "dock_2" 2000 Mobility.default = .ok true := by
  have valid : (InventoryConfig.default : InventoryConfig ℚ).validate = .ok () := by decide +kernel
  obtain ⟨hweight, -, hcontest⟩ := contest_monotone valid
  have hbonus : (InventoryConfig.default : InventoryConfig ℚ).mobility.weightAfter 500 = 6 := by
    refine ((hweight 500).1.2 (.inr ?_)).trans ?_ <;> decide +kernel
  have htime : difference (1000 : Int64).toInt (500 : Int64).toInt = .ok 500 := by decide
  have hold : Window.average [-50] = -50 := by norm_num [Window.average]
  have hnew (x : ℚ) : Window.average [x, x] = x := by
    simp only [Window.average, List.sum_cons, List.sum_nil, List.length_cons, List.length_nil]
    push_cast
    ring
  obtain ⟨-, -, htie, -⟩ := hcontest _ _ _ _ _ (contest_between 500 (-50) (-44)) 1000
  obtain ⟨htakes, -, -, hstill⟩ := hcontest _ _ _ _ _ (contest_between 500 (-50) (-43)) 1000
  have htaken :
      (between 500 (-50) (-43)).shouldAssign "dock_2" 1000 Mobility.default = .ok true := by
    refine htakes.trans ?_
    rw [htime, Except.map, hbonus, hold, hnew]
    norm_num
  refine ⟨valid, htie 500 htime (by rw [hbonus, hold, hnew]; norm_num), htaken, ?_⟩
  refine (hstill htaken _ "dock_2" 400 2000 _ _ (contest_between 400 (-51) (-42)) (by decide)
    (by decide) ?_ ?_).trans (by rfl)
  · norm_num
  · norm_num

end Tag

end TagGateway
