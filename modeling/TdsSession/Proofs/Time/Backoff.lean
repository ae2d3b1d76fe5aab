import Mathlib.Algebra.GroupWithZero.Nat
import TdsSession.Time.Backoff

/-!
# How long sleeps get

The sleeps of a schedule double until they reach the ceiling. The last step up
to it is taken as soon as half of the ceiling is reached, and half of an odd
number is rounded down: so a sleep may be a nanosecond longer than the doubled
one (`delay_succ_eq`), but it never is longer than the ceiling, nor does
doubling leave what a span can hold (`delays_double`).
-/

namespace TdsSession.Backoff

/-! ## Doubling on a finite clock -/

variable {b : Backoff}

/-- Only a sleep below half of the ceiling is doubled. -/
theorem nextInClock_eq (h : b.ceiling < Span.limit) : b.nextInClock = .ok b.next := by
  unfold nextInClock next
  split
  · rename_i hhalf
    have hfits : b.current * 2 < Span.limit := by
      have hle : b.current * 2 ≤ b.ceiling := by simp only [Span] at *; omega
      exact Nat.lt_of_le_of_lt hle h
    rw [Span.times, if_pos hfits, Nat.mul_comm]
    rfl
  · rfl

theorem afterInClock_eq (h : b.ceiling < Span.limit) (n : Nat) : b.afterInClock n = .ok (b.after n) := by
  induction n generalizing b with
  | zero => rfl
  | succ n ih =>
    rw [afterInClock, nextInClock_eq h]
    exact ih h

/-! ## The sleeps of a schedule -/

/-- Sleep `k` of a schedule, counted from 0. -/
def delay (initial ceiling : Span) (k : Nat) : Span := ((start initial ceiling).after k).current

variable {initial ceiling : Span}

theorem take_eq (b : Backoff) (n : Nat) : b.take n = (List.range n).map fun k => (b.after k).current := by
  induction n with
  | zero => rfl
  | succ n ih => rw [take_succ, ih, List.range_succ, List.map_append, List.map_singleton]

theorem ceiling_after (b : Backoff) (k : Nat) : (b.after k).ceiling = b.ceiling := by
  induction k generalizing b with
  | zero => rfl
  | succ k ih => exact ih b.next

theorem delay_zero (initial ceiling : Span) : delay initial ceiling 0 = min initial ceiling := rfl

theorem delay_succ (initial ceiling : Span) (k : Nat) : delay initial ceiling (k + 1) =
    if delay initial ceiling k < ceiling / 2 then 2 * delay initial ceiling k else ceiling := by
  have hceiling : ((start initial ceiling).after k).ceiling = ceiling := ceiling_after ..
  rw [delay, after_succ, next, hceiling]
  rfl

/-- After the first sleep, a sleep is the first one doubled each time, unless that reaches the largest even number up to
the ceiling. -/
theorem delay_succ_eq (initial ceiling : Span) (k : Nat) : delay initial ceiling (k + 1) =
    if initial * 2 ^ (k + 1) < 2 * (ceiling / 2) then initial * 2 ^ (k + 1) else ceiling := by
  induction k with
  | zero =>
    rw [delay_succ, delay_zero]
    simp only [Span] at *
    split <;> split <;> omega
  | succ k ih =>
    rw [delay_succ, ih, Nat.pow_succ 2 (k + 1), ← Nat.mul_assoc]
    generalize initial * 2 ^ (k + 1) = doubled
    simp only [Span] at *
    split <;> split <;> split <;> omega

/-- A sleep is the first one doubled each time, up to a nanosecond and to the ceiling. -/
theorem delay_bounds (initial ceiling : Span) (k : Nat) :
    min (initial * 2 ^ k) ceiling ≤ delay initial ceiling k ∧
      delay initial ceiling k ≤ min (initial * 2 ^ k + 1) ceiling := by
  cases k with
  | zero =>
    rw [delay_zero, Nat.pow_zero, Nat.mul_one]
    simp only [Span] at *
    omega
  | succ k =>
    rw [delay_succ_eq]
    generalize initial * 2 ^ (k + 1) = doubled
    simp only [Span] at *
    split <;> omega

theorem delay_le_ceiling (initial ceiling : Span) (k : Nat) : delay initial ceiling k ≤ ceiling :=
  (Nat.le_min.mp (delay_bounds initial ceiling k).2).2

/-- A sleep below the ceiling is the first one doubled each time. -/
theorem delay_of_lt_ceiling {k : Nat} (h : delay initial ceiling k < ceiling) :
    delay initial ceiling k = initial * 2 ^ k := by
  cases k with
  | zero =>
    rw [delay_zero] at h ⊢
    simp only [Span] at *
    omega
  | succ k =>
    rw [delay_succ_eq] at h ⊢
    split at h
    · exact if_pos ‹_›
    · exact absurd h (Nat.lt_irrefl _)

theorem delay_le_delay (initial ceiling : Span) {j k : Nat} (h : j ≤ k) :
    delay initial ceiling j ≤ delay initial ceiling k := by
  induction h with
  | refl => exact Nat.le_refl _
  | @step k _ ih =>
    have hle : ((start initial ceiling).after k).current ≤ ((start initial ceiling).after k).ceiling := by
      rw [ceiling_after]
      exact delay_le_ceiling initial ceiling k
    have hnext := (current_le_next hle).1
    rw [← after_succ] at hnext
    exact Nat.le_trans ih hnext

/-- Doubling the sleeps of a schedule never overflows. Each sleep is the first one doubled each time, up to a
nanosecond and to the ceiling, and exactly that below the ceiling. So sleeps do not get shorter, none is longer than the
ceiling, each is the double of the one before as long as the ceiling is not reached, and from then on all sleeps are as
long as the ceiling. -/
theorem delays_double (hceiling : ceiling < Span.limit) (k : Nat) :
    (start initial ceiling).afterInClock k = .ok ((start initial ceiling).after k) ∧
    (start initial ceiling).take k = (List.range k).map (delay initial ceiling) ∧
    min (initial * 2 ^ k) ceiling ≤ delay initial ceiling k ∧
    delay initial ceiling k ≤ min (initial * 2 ^ k + 1) ceiling ∧
    (delay initial ceiling k < ceiling → delay initial ceiling k = initial * 2 ^ k) ∧
    delay initial ceiling k ≤ ceiling ∧
    (∀ j, k ≤ j → delay initial ceiling k ≤ delay initial ceiling j) ∧
    (delay initial ceiling (k + 1) < ceiling → delay initial ceiling (k + 1) = 2 * delay initial ceiling k) ∧
    ∀ j, k ≤ j → delay initial ceiling k = ceiling → delay initial ceiling j = ceiling := by
  obtain ⟨hlow, hhigh⟩ := delay_bounds initial ceiling k
  refine ⟨afterInClock_eq hceiling k, take_eq .., hlow, hhigh, delay_of_lt_ceiling, delay_le_ceiling ..,
    fun j hj => delay_le_delay _ _ hj, fun hlt => ?_, fun j hj hfull => ?_⟩
  · rw [delay_succ] at hlt ⊢
    split at hlt
    · exact if_pos ‹_›
    · exact absurd hlt (Nat.lt_irrefl _)
  · have hgrown := delay_le_delay initial ceiling hj
    rw [hfull] at hgrown
    exact Nat.le_antisymm (delay_le_ceiling ..) hgrown

/-- Half of the ceiling is reached by the first sleep, and the second is a nanosecond longer than its double. -/
theorem oddCeiling_delays : (7 : Span) < Span.limit ∧ (start 3 7).afterInClock 1 = .ok ⟨7, 7⟩ ∧ delay 3 7 1 = 7 ∧
    delay 3 7 1 ≤ min (3 * 2 ^ 1 + 1) 7 ∧ ∀ j, 1 ≤ j → delay 3 7 j = 7 := by
  have hlimit : (7 : Span) < Span.limit := by decide
  obtain ⟨hclock, -, -, hhigh, -, -, -, -, hstays⟩ := @delays_double 3 7 hlimit 1
  exact ⟨hlimit, hclock, rfl, hhigh, fun j hj => hstays j hj rfl⟩

end TdsSession.Backoff
