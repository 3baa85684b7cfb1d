import Mathlib.Data.Nat.Basic
import Mathlib.Logic.Function.Iterate
import Mathlib.Tactic.ByContra

/-!
# Moving averages of integers

A moving average gives a new sample `weight` parts of `scale` and keeps the rest of the previous
average; the quotient is rounded down. Repeated samples of one size move it towards that size.
From above it arrives, from below it may stop short, unless a sample has half of the weight.
-/

namespace Locus.Lib

/-- A weighted average of two numbers, rounded down. -/
def average (scale weight sample previous : ℕ) : ℕ :=
  (previous * (scale - weight) + sample * weight) / scale

/-- The averages of repeated samples of one size. -/
def averages (scale weight sample start : ℕ) (n : ℕ) : ℕ :=
  (average scale weight sample)^[n] start

theorem averages_succ (scale weight sample start n : ℕ) :
    averages scale weight sample start (n + 1) =
      average scale weight sample (averages scale weight sample start n) :=
  Function.iterate_succ_apply' _ _ _

variable {scale weight sample previous start bound : ℕ}

/-- What is kept of a number and what a sample of its size adds make up the number. -/
theorem mul_parts (hweight : weight ≤ scale) (value : ℕ) :
    value * (scale - weight) + value * weight = value * scale := by
  rw [← Nat.mul_add, Nat.sub_add_cancel hweight]

section Steps

/-- From below the average rises, and not past the sample. -/
theorem average_mem_of_le (hscale : 0 < scale) (hweight : weight ≤ scale)
    (h : previous ≤ sample) :
    previous ≤ average scale weight sample previous ∧
      average scale weight sample previous ≤ sample := by
  have hkept := Nat.mul_le_mul_right (scale - weight) h
  have hadded := Nat.mul_le_mul_right weight h
  have hprevious := mul_parts hweight previous
  have hsample := mul_parts hweight sample
  constructor
  · rw [average, Nat.le_div_iff_mul_le hscale]
    omega
  · rw [average, ← Nat.lt_succ_iff, Nat.div_lt_iff_lt_mul hscale, Nat.succ_mul]
    omega

/-- From above the average falls, and not past the sample. -/
theorem average_mem_of_ge (hscale : 0 < scale) (hweight : weight ≤ scale)
    (h : sample ≤ previous) :
    sample ≤ average scale weight sample previous ∧
      average scale weight sample previous ≤ previous := by
  have hkept := Nat.mul_le_mul_right (scale - weight) h
  have hadded := Nat.mul_le_mul_right weight h
  have hprevious := mul_parts hweight previous
  have hsample := mul_parts hweight sample
  constructor
  · rw [average, Nat.le_div_iff_mul_le hscale]
    omega
  · rw [average, ← Nat.lt_succ_iff, Nat.div_lt_iff_lt_mul hscale, Nat.succ_mul]
    omega

/-- From above every sample counts. -/
theorem average_lt (hpositive : 0 < weight) (hweight : weight ≤ scale)
    (h : sample < previous) : average scale weight sample previous < previous := by
  have hadded := Nat.mul_lt_mul_of_pos_right h hpositive
  have hprevious := mul_parts hweight previous
  rw [average, Nat.div_lt_iff_lt_mul (by omega)]
  omega

/-- From below a sample of half the weight counts until the average is one short. -/
theorem lt_average (hpositive : 0 < weight) (hweight : weight ≤ scale) (hhalf : scale ≤ 2 * weight)
    (h : previous + 2 ≤ sample) : previous < average scale weight sample previous := by
  have hadded := Nat.mul_le_mul_right weight h
  have hprevious := mul_parts hweight previous
  rw [Nat.add_mul] at hadded
  rw [average, Nat.lt_iff_add_one_le, Nat.le_div_iff_mul_le (by omega), Nat.succ_mul]
  omega

/-- Samples of less weight leave an average that is two short at least two short. -/
theorem average_add_two_le (hhalf : 2 * weight < scale) (h : previous + 2 ≤ sample) :
    average scale weight sample previous + 2 ≤ sample := by
  have hkept := Nat.mul_le_mul_right (scale - weight) h
  have hsample := mul_parts (by omega : weight ≤ scale) sample
  have hlt : average scale weight sample previous < sample - 1 := by
    rw [average, Nat.div_lt_iff_lt_mul (by omega), Nat.sub_one_mul]
    rw [Nat.add_mul] at hkept
    omega
  omega

end Steps

section Runs

/-- A sequence that falls while it is above a bound ends at the bound. -/
theorem exists_forall_le {f : ℕ → ℕ} (hle : ∀ n, f (n + 1) ≤ f n)
    (hlt : ∀ n, bound < f n → f (n + 1) < f n) : ∃ reached, ∀ n, reached ≤ n → f n ≤ bound := by
  have hfall : ∀ n, f n ≤ max bound (f 0 - n) := by
    intro n
    induction n with
    | zero => omega
    | succ n ih =>
      have hstep := hle n
      by_cases h : bound < f n
      · have hless := hlt n h
        omega
      · omega
  exact ⟨f 0, fun n hn => by have := hfall n; omega⟩

/-- A rule that every step keeps on one side of the sample holds of all averages. -/
theorem averages_induction {P : ℕ → Prop} (hstart : P start)
    (hstep : ∀ previous, P previous → P (average scale weight sample previous)) (n : ℕ) :
    P (averages scale weight sample start n) := by
  induction n with
  | zero => exact hstart
  | succ n ih =>
    rw [averages_succ]
    exact hstep _ ih

/-- Samples above the start keep the averages between the two. -/
theorem averages_mem_of_le (hscale : 0 < scale) (hweight : weight ≤ scale) (h : start ≤ sample)
    (n : ℕ) : start ≤ averages scale weight sample start n ∧
      averages scale weight sample start n ≤ sample := by
  refine averages_induction (P := fun value => start ≤ value ∧ value ≤ sample) ⟨le_rfl, h⟩ ?_ n
  intro previous hprevious
  obtain ⟨hrise, hbound⟩ := average_mem_of_le hscale hweight hprevious.2
  exact ⟨Nat.le_trans hprevious.1 hrise, hbound⟩

/-- Samples below the start keep the averages between the two. -/
theorem averages_mem_of_ge (hscale : 0 < scale) (hweight : weight ≤ scale) (h : sample ≤ start)
    (n : ℕ) : sample ≤ averages scale weight sample start n ∧
      averages scale weight sample start n ≤ start := by
  refine averages_induction (P := fun value => sample ≤ value ∧ value ≤ start) ⟨h, le_rfl⟩ ?_ n
  intro previous hprevious
  obtain ⟨hbound, hfall⟩ := average_mem_of_ge hscale hweight hprevious.1
  exact ⟨hbound, Nat.le_trans hfall hprevious.2⟩

/-- From above the averages arrive. -/
theorem averages_arrive (hpositive : 0 < weight) (hweight : weight ≤ scale) (h : sample ≤ start) :
    ∃ reached, ∀ n, reached ≤ n → averages scale weight sample start n ≤ sample := by
  have hscale : 0 < scale := Nat.lt_of_lt_of_le hpositive hweight
  refine exists_forall_le (fun n => ?_) (fun n hn => ?_)
  · have hside := (averages_mem_of_ge hscale hweight h n).1
    rw [averages_succ]
    exact (average_mem_of_ge hscale hweight hside).2
  · rw [averages_succ]
    exact average_lt hpositive hweight hn

/-- From below the averages come as close as one, if a sample has half of the weight. -/
theorem averages_approach (hpositive : 0 < weight) (hweight : weight ≤ scale)
    (hhalf : scale ≤ 2 * weight) (h : start ≤ sample) :
    ∃ reached, ∀ n, reached ≤ n → sample - averages scale weight sample start n ≤ 1 := by
  have hscale : 0 < scale := Nat.lt_of_lt_of_le hpositive hweight
  refine exists_forall_le (fun n => ?_) (fun n hn => ?_)
  · have hside := (averages_mem_of_le hscale hweight h n).2
    rw [averages_succ]
    exact Nat.sub_le_sub_left (average_mem_of_le hscale hweight hside).1 sample
  · have hless := lt_average hpositive hweight hhalf
      (by omega : averages scale weight sample start n + 2 ≤ sample)
    rw [averages_succ]
    omega

/-- Repeated samples bring the average within one of their size exactly if it is not two short
at the start, or if a sample has half of the weight. -/
theorem averages_near_iff (hpositive : 0 < weight) (hweight : weight ≤ scale) :
    (∃ reached, ∀ n, reached ≤ n → averages scale weight sample start n ≤ sample + 1 ∧
      sample ≤ averages scale weight sample start n + 1) ↔
      sample ≤ start + 1 ∨ scale ≤ 2 * weight := by
  have hscale : 0 < scale := Nat.lt_of_lt_of_le hpositive hweight
  constructor
  · rintro ⟨reached, hreached⟩
    by_contra hfar
    rw [not_or] at hfar
    have hshort := averages_induction (P := fun value => value + 2 ≤ sample)
      (by omega : start + 2 ≤ sample)
      (fun previous => average_add_two_le (by omega : 2 * weight < scale)) reached
    have hnear := (hreached reached le_rfl).2
    omega
  · intro h
    rcases Nat.le_total sample start with habove | hbelow
    · obtain ⟨reached, hreached⟩ := averages_arrive hpositive hweight habove
      refine ⟨reached, fun n hn => ?_⟩
      have harrived := hreached n hn
      have hside := (averages_mem_of_ge hscale hweight habove n).1
      omega
    · have hside := averages_mem_of_le hscale hweight hbelow
      rcases h with hnear | hhalf
      · refine ⟨0, fun n _ => ?_⟩
        obtain ⟨hlow, hhigh⟩ := hside n
        omega
      · obtain ⟨reached, hreached⟩ := averages_approach hpositive hweight hhalf hbelow
        refine ⟨reached, fun n hn => ?_⟩
        have hclose := hreached n hn
        have hhigh := (hside n).2
        omega

end Runs

end Locus.Lib
