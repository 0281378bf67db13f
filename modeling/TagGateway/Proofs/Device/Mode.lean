import TagGateway.Device.Basic
import TagGateway.Proofs.Device.Compile
import TagGateway.Proofs.Scan.Best

set_option autoImplicit false

namespace TagGateway

theorem exists_isGreatest_mask {modes : List RfMode} (hsome : modes ≠ []) :
    ∃ greatest, IsGreatest {level | ∃ m ∈ modes, m.mask.level = level} greatest := by
  obtain ⟨top, htop, hmax⟩ :=
    modes.toFinset.exists_max_image (·.mask.level) (by simpa using hsome)
  refine ⟨top.mask.level, ⟨top, by simpa using htop, rfl⟩, ?_⟩
  rintro level ⟨m, hm, rfl⟩
  exact hmax m (by simpa using hm)

theorem lt_two_mul_iff {n : Nat} (hn : 2 ≤ n) (frequencies : Nat) :
    frequencies < 2 * n ↔
      frequencies = 0 ∨ frequencies ≤ n ∨ (1 / 2 : ℚ) < n / frequencies := by
  rcases Nat.eq_zero_or_pos frequencies with rfl | hpos
  · simp
    omega
  · have hcast : (0 : ℚ) < frequencies := by exact_mod_cast hpos
    have hhalf : (1 / 2 : ℚ) < n / frequencies ↔ frequencies < 2 * n := by
      rw [div_lt_div_iff₀ two_pos hcast, one_mul, mul_comm]
      exact_mod_cast Iff.rfl
    rw [hhalf]
    omega

theorem targetMask_of_two_le {n : Nat} (hn : 2 ≤ n) (frequencies : Nat) :
    targetMask n frequencies = if frequencies < 2 * n then .dense else .multi := by
  have htests := lt_two_mul_iff hn frequencies
  obtain ⟨k, rfl⟩ := Nat.exists_eq_add_of_le' hn
  simp only [targetMask]
  by_cases hfew : frequencies = 0 ∨ frequencies ≤ k + 2
  · rw [if_pos hfew, if_pos (htests.2 (or_assoc.1 (.inl hfew)))]
  · rw [if_neg hfew]
    refine if_congr ?_ rfl rfl
    rw [htests, ← or_assoc, or_iff_right hfew]

theorem level_targetMask (n frequencies : Nat) :
    (targetMask n frequencies).level =
      if n < 2 then n else if frequencies < 2 * n then 3 else 2 := by
  match n with
  | 0 => rfl
  | 1 => rfl
  | n + 2 =>
    rw [targetMask_of_two_le (Nat.le_add_left 2 n), if_neg (Nat.not_lt.2 (Nat.le_add_left 2 n))]
    split <;> rfl

theorem targetMask_mono {n n' f f' : Nat} (hn : n ≤ n') (hf : f' ≤ f) :
    (targetMask n f).level ≤ (targetMask n' f').level := by
  rw [level_targetMask, level_targetMask]
  split_ifs <;> omega

namespace DeviceModel

/-- For every environment the mode in use is found by the search, without its fallback: the first
with the greatest score among the modes that tolerate what the environment demands, or as much of
it as the most tolerant mode does. From two readers on the demand is the greatest exactly if the
readers take more than half of the frequencies, and it never falls when there are more readers or
fewer frequencies. -/
theorem mode_of_environment (d : DeviceModel) (e : Environment) :
    (∃ greatest, IsGreatest {level | ∃ m ∈ d.modes, m.mask.level = level} greatest
      ∧ TagGateway.bestMode RfMode.beats d.modes
          (targetMask e.nearbyReaders.toNat d.plan.size) = some (d.bestMode e)
      ∧ FirstBest RfMode.score
          (d.modes.filter fun m =>
            min (targetMask e.nearbyReaders.toNat d.plan.size).level greatest ≤ m.mask.level)
          (d.bestMode e))
    ∧ (∀ n frequencies : Nat, 2 ≤ n →
      (targetMask n frequencies = .dense ↔ frequencies < 2 * n)
      ∧ (targetMask n frequencies = .multi ↔ 2 * n ≤ frequencies)
      ∧ (frequencies < 2 * n ↔
        frequencies = 0 ∨ frequencies ≤ n ∨ (1 / 2 : ℚ) < n / frequencies))
    ∧ ∀ n n' frequencies frequencies' : Nat, n ≤ n' → frequencies' ≤ frequencies →
      (targetMask n frequencies).level ≤ (targetMask n' frequencies').level := by
  refine ⟨?_, fun n frequencies hn => ⟨?_, ?_, lt_two_mul_iff hn frequencies⟩,
    fun n n' f f' hn hf => targetMask_mono hn hf⟩
  · obtain ⟨greatest, hgreatest⟩ := exists_isGreatest_mask d.modes_ne
    obtain ⟨best, hbest, hfirst⟩ := firstBest_bestMode RfMode.beats_iff hgreatest
      (targetMask e.nearbyReaders.toNat d.plan.size)
    have huse : d.bestMode e = best := by
      unfold DeviceModel.bestMode
      simp only [hbest, Option.getD_some]
    rw [huse]
    exact ⟨greatest, hgreatest, hbest, RfMode.firstBest_of_rank hfirst⟩
  · rw [targetMask_of_two_le hn]
    split <;> simp_all
  · rw [targetMask_of_two_le hn]
    split
    · next hdense => simp [Nat.not_le.2 hdense]
    · next hmulti => simp [Nat.not_lt.1 hmulti]

/-- Five readers on one channel want a mode for a dense spectrum. There is none, and of the modes
for a single reader the second has the greater score; the last would have an even greater one. -/
theorem mode_of_environment_relaxed :
    ∃ d, ofCapabilities (Device.tuned [⟨1, 1000⟩]
        [{ id := 4, mask := .single, backscatterRate := 40000 },
         { id := 5, mask := .single, backscatterRate := 160000 },
         { id := 6, backscatterRate := 640000 }]) = .ok d
      ∧ targetMask 5 d.plan.size = .dense
      ∧ (d.bestMode { nearbyReaders := 5 }).id = 5
      ∧ ∃ greatest, IsGreatest {level | ∃ m ∈ d.modes, m.mask.level = level} greatest
        ∧ FirstBest RfMode.score (d.modes.filter fun m => min 3 greatest ≤ m.mask.level)
          (d.bestMode { nearbyReaders := 5 }) := by
  let d := ofCapabilities (Device.tuned [⟨1, 1000⟩]
    [{ id := 4, mask := .single, backscatterRate := 40000 },
     { id := 5, mask := .single, backscatterRate := 160000 },
     { id := 6, backscatterRate := 640000 }])
  have hfound : d.map (fun d => (d.plan.size, (d.bestMode { nearbyReaders := 5 }).id))
      = .ok (1, 5) := by decide +kernel
  cases hd : d with
  | error cause => simp [hd] at hfound
  | ok d =>
    simp only [hd, ok_map, Except.ok.injEq, Prod.mk.injEq] at hfound
    obtain ⟨hmode, hmask, -⟩ := mode_of_environment d { nearbyReaders := 5 }
    have hdense : targetMask 5 d.plan.size = .dense :=
      ((hmask 5 d.plan.size (by decide)).1).2 (by omega)
    obtain ⟨greatest, hgreatest, -, hfirst⟩ := hmode
    refine ⟨d, hd, hdense, hfound.2, greatest, hgreatest, ?_⟩
    rw [show (UInt32.toNat 5) = 5 from rfl, hdense] at hfirst
    exact hfirst

end DeviceModel

end TagGateway
