import TdsSession.Time.Span

/-!
# Backoff

Sleeps that double until they reach a ceiling and stay there.
-/

namespace TdsSession

/-- The next sleep of a schedule and its ceiling. -/
structure Backoff where
  current : Span
  ceiling : Span
deriving DecidableEq, Repr

namespace Backoff

/-- The schedule that begins at `initial`. -/
def start (initial ceiling : Span) : Backoff := ⟨min initial ceiling, ceiling⟩

/-- The schedule after the current sleep. -/
def next (b : Backoff) : Backoff :=
  { b with current := if b.current < b.ceiling / 2 then 2 * b.current else b.ceiling }

/-- The schedule after the current sleep, if a sleep that is doubled stays a span. -/
def nextInClock (b : Backoff) : Except Overflow Backoff :=
  if b.current < b.ceiling / 2 then (Span.times b.current 2).map fun d => { b with current := d }
  else .ok { b with current := b.ceiling }

theorem current_start_le (initial ceiling : Span) : (start initial ceiling).current ≤ ceiling :=
  Nat.min_le_right _ _

/-- Sleeps do not get shorter, and none is longer than the ceiling. -/
theorem current_le_next {b : Backoff} (h : b.current ≤ b.ceiling) :
    b.current ≤ b.next.current ∧ b.next.current ≤ b.next.ceiling := by
  simp only [next, Span] at *
  split <;> omega

/-- The schedule after `n` sleeps. -/
def after (b : Backoff) : Nat → Backoff
  | 0 => b
  | n + 1 => b.next.after n

/-- The schedule after `n` sleeps, if all that are doubled stay spans. -/
def afterInClock (b : Backoff) : Nat → Except Overflow Backoff
  | 0 => .ok b
  | n + 1 => do (← b.nextInClock).afterInClock n

/-- The first `n` sleeps. -/
def take (b : Backoff) : Nat → List Span
  | 0 => []
  | n + 1 => b.current :: b.next.take n

theorem after_succ (b : Backoff) (n : Nat) : b.after (n + 1) = (b.after n).next := by
  induction n generalizing b with
  | zero => rfl
  | succ n ih => exact ih b.next

theorem take_succ (b : Backoff) (n : Nat) : b.take (n + 1) = b.take n ++ [(b.after n).current] := by
  induction n generalizing b with
  | zero => rfl
  | succ n ih => exact congrArg (b.current :: ·) (ih b.next)

end Backoff

end TdsSession
