import Locus.Calibration.Invariant
import Locus.Lib.MovingAverage

/-!
# How an estimate follows a steady signal

If all samples have one size, the estimate moves towards it and never past it. The average is
rounded down, so that a rise of less than one is lost: from above the estimate arrives, from
below it stops short by up to the inverse of the weight of a sample.
-/

namespace Locus.Calibration

open Locus.Core Locus.Lib

/-- A metric after repeated samples of one size. -/
def MetricEstimate.fed (metric : MetricEstimate) (sample : UInt64) (policy : CalibrationPolicy)
    (maximum : UInt64) (n : ℕ) : MetricEstimate :=
  (fun metric => metric.update sample policy maximum)^[n] metric

/-- Repeated samples move the estimate towards their size, never past it, and in the end keep it
within one of it. -/
structure TracksSteadily (policy : CalibrationPolicy) (maximum sample : UInt64)
    (metric : MetricEstimate) : Prop where
  rises : ∀ n, (metric.fed sample policy maximum n).estimate ≤ sample →
    (metric.fed sample policy maximum n).estimate ≤
        (metric.fed sample policy maximum (n + 1)).estimate ∧
      (metric.fed sample policy maximum (n + 1)).estimate ≤ sample
  falls : ∀ n, sample ≤ (metric.fed sample policy maximum n).estimate →
    sample ≤ (metric.fed sample policy maximum (n + 1)).estimate ∧
      (metric.fed sample policy maximum (n + 1)).estimate ≤
        (metric.fed sample policy maximum n).estimate
  near : ∃ reached, ∀ n, reached ≤ n →
    (metric.fed sample policy maximum n).estimate.toNat ≤ sample.toNat + 1 ∧
      sample.toNat ≤ (metric.fed sample policy maximum n).estimate.toNat + 1

variable {policy : CalibrationPolicy} {metric : MetricEstimate} {maximum sample : UInt64}

section Updates

/-- A sample within the bounds is used as it is. -/
theorem clamp_eq_self (h : 1 ≤ sample ∧ sample ≤ maximum) : clamp sample 1 maximum = sample := by
  simp only [UInt64.le_iff_toNat_le] at h
  rw [clamp, if_neg, if_neg]
  · rw [UInt64.lt_iff_toNat_lt]
    omega
  · rw [UInt64.lt_iff_toNat_lt]
    omega

/-- The first sample is the estimate. -/
theorem estimate_update_first (hsample : 1 ≤ sample ∧ sample ≤ maximum)
    (hsamples : metric.samples = 0) : (metric.update sample policy maximum).estimate = sample := by
  simp [MetricEstimate.update, hsamples, clamp_eq_self hsample]

/-- Every other sample gives a moving average. -/
theorem toNat_estimate_update (hpolicy : Accepted policy)
    (hsample : 1 ≤ sample ∧ sample ≤ maximum) (hsamples : metric.samples ≠ 0) :
    (metric.update sample policy maximum).estimate.toNat =
      average 10000 policy.ewmaAlphaBps.toNat sample.toNat metric.estimate.toNat := by
  simp only [MetricEstimate.update, if_neg hsamples, clamp_eq_self hsample]
  exact toNat_weightedAverage _ _ hpolicy.alpha

theorem fed_succ (n : ℕ) : metric.fed sample policy maximum (n + 1) =
    (metric.fed sample policy maximum n).update sample policy maximum :=
  Function.iterate_succ_apply' _ _ _

theorem fed_succ' (n : ℕ) : metric.fed sample policy maximum (n + 1) =
    (metric.update sample policy maximum).fed sample policy maximum n :=
  Function.iterate_succ_apply _ _ _

theorem samples_update_ne_zero : (metric.update sample policy maximum).samples ≠ 0 := by
  have hpositive : 0 < (metric.update sample policy maximum).samples :=
    samples_update_pos sample maximum
  exact UInt64.pos_iff_ne_zero.mp hpositive

theorem samples_fed_ne_zero (hsamples : metric.samples ≠ 0) (n : ℕ) :
    (metric.fed sample policy maximum n).samples ≠ 0 := by
  cases n with
  | zero => exact hsamples
  | succ n =>
    rw [fed_succ]
    exact samples_update_ne_zero

/-- The estimates are the moving averages. -/
theorem toNat_estimate_fed (hpolicy : Accepted policy) (hsample : 1 ≤ sample ∧ sample ≤ maximum)
    (hsamples : metric.samples ≠ 0) (n : ℕ) :
    (metric.fed sample policy maximum n).estimate.toNat =
      averages 10000 policy.ewmaAlphaBps.toNat sample.toNat metric.estimate.toNat n := by
  induction n with
  | zero => rfl
  | succ n ih =>
    rw [fed_succ, averages_succ, ← ih]
    exact toNat_estimate_update hpolicy hsample (samples_fed_ne_zero hsamples n)

end Updates

section Tracking

/-- An estimate that has samples comes near exactly if it is not two short, or if a sample has
half of the weight. -/
theorem fed_near_iff (hpolicy : Accepted policy) (hpositive : 0 < policy.ewmaAlphaBps.toNat)
    (hsample : 1 ≤ sample ∧ sample ≤ maximum) (hsamples : metric.samples ≠ 0) :
    (∃ reached, ∀ n, reached ≤ n →
      (metric.fed sample policy maximum n).estimate.toNat ≤ sample.toNat + 1 ∧
        sample.toNat ≤ (metric.fed sample policy maximum n).estimate.toNat + 1) ↔
      sample.toNat ≤ metric.estimate.toNat + 1 ∨ 5000 ≤ policy.ewmaAlphaBps.toNat := by
  simp only [toNat_estimate_fed hpolicy hsample hsamples]
  rw [averages_near_iff hpositive hpolicy.alpha]
  omega

/-- A metric without samples takes the first one and stays there. -/
theorem fed_near_of_first (hpolicy : Accepted policy) (hpositive : 0 < policy.ewmaAlphaBps.toNat)
    (hsample : 1 ≤ sample ∧ sample ≤ maximum) (hsamples : metric.samples = 0) :
    ∃ reached, ∀ n, reached ≤ n →
      (metric.fed sample policy maximum n).estimate.toNat ≤ sample.toNat + 1 ∧
        sample.toNat ≤ (metric.fed sample policy maximum n).estimate.toNat + 1 := by
  have hfirst : (metric.update sample policy maximum).estimate = sample :=
    estimate_update_first hsample hsamples
  have hnext : (metric.update sample policy maximum).samples ≠ 0 := samples_update_ne_zero
  obtain ⟨reached, hreached⟩ := (fed_near_iff hpolicy hpositive hsample hnext).mpr
    (.inl (by rw [hfirst]; omega))
  refine ⟨reached + 1, fun n hn => ?_⟩
  obtain ⟨m, rfl⟩ := Nat.exists_eq_add_one_of_ne_zero (by omega : n ≠ 0)
  rw [fed_succ']
  exact hreached m (by omega)

/-- One more sample of a size above the estimate. -/
theorem update_rises (hpolicy : Accepted policy) (hsample : 1 ≤ sample ∧ sample ≤ maximum)
    (h : metric.estimate ≤ sample) :
    metric.estimate ≤ (metric.update sample policy maximum).estimate ∧
      (metric.update sample policy maximum).estimate ≤ sample := by
  by_cases hsamples : metric.samples = 0
  · rw [estimate_update_first hsample hsamples]
    exact ⟨h, UInt64.le_refl _⟩
  · simp only [UInt64.le_iff_toNat_le, toNat_estimate_update hpolicy hsample hsamples] at h ⊢
    exact average_mem_of_le (by decide) hpolicy.alpha h

/-- One more sample of a size below the estimate. -/
theorem update_falls (hpolicy : Accepted policy) (hsample : 1 ≤ sample ∧ sample ≤ maximum)
    (h : sample ≤ metric.estimate) :
    sample ≤ (metric.update sample policy maximum).estimate ∧
      (metric.update sample policy maximum).estimate ≤ metric.estimate := by
  by_cases hsamples : metric.samples = 0
  · rw [estimate_update_first hsample hsamples]
    exact ⟨UInt64.le_refl _, h⟩
  · simp only [UInt64.le_iff_toNat_le, toNat_estimate_update hpolicy hsample hsamples] at h ⊢
    exact average_mem_of_ge (by decide) hpolicy.alpha h

/-- An estimate tracks a steady signal exactly if there is none yet, if it is not two short of
the signal, or if a sample has at least half of the weight. -/
theorem tracksSteadily_iff (hvalid : policy.validate = .ok ())
    (hsample : 1 ≤ sample ∧ sample ≤ maximum) :
    TracksSteadily policy maximum sample metric ↔
      metric.samples = 0 ∨ sample.toNat ≤ metric.estimate.toNat + 1 ∨
        5000 ≤ policy.ewmaAlphaBps.toNat := by
  have hpolicy := accepted_of_validate hvalid
  have hpositive := alpha_pos_of_validate hvalid
  constructor
  · intro h
    by_cases hsamples : metric.samples = 0
    · exact .inl hsamples
    · exact .inr ((fed_near_iff hpolicy hpositive hsample hsamples).mp h.near)
  · intro h
    refine ⟨fun n hbelow => ?_, fun n habove => ?_, ?_⟩
    · rw [fed_succ]
      exact update_rises hpolicy hsample hbelow
    · rw [fed_succ]
      exact update_falls hpolicy hsample habove
    · by_cases hsamples : metric.samples = 0
      · exact fed_near_of_first hpolicy hpositive hsample hsamples
      · exact (fed_near_iff hpolicy hpositive hsample hsamples).mpr (h.resolve_left hsamples)

/-- With half of the weight an estimate of one microsecond follows samples of one second. -/
theorem tracksSteadily_iff_halfWeight :
    TracksSteadily { ewmaAlphaBps := 5000 } 60000000 1000000 { estimate := 1, samples := 1 } :=
  (tracksSteadily_iff (by decide) (by decide)).mpr (.inr (.inr (by decide)))

/-- The default policy gives a sample an eighth of the weight. Once a token took one microsecond,
tokens of four microseconds are never noticed. -/
theorem not_tracksSteadily_default :
    ¬ TracksSteadily {} 60000000 4 (({} : MetricEstimate).update 1 {} 60000000) := by
  have hvalid : ({} : CalibrationPolicy).validate = .ok () := by decide
  intro h
  have hnear := (fed_near_iff (accepted_of_validate hvalid) (alpha_pos_of_validate hvalid)
    (by decide) samples_update_ne_zero).mp h.near
  exact absurd hnear (by decide)

end Tracking

end Locus.Calibration
