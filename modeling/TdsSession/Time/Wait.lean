import TdsSession.Time.Span

/-!
# Waiting

What is waited for is ready after a span of time, or never. A wait may be cut
off at a moment given beforehand. What is ready at that very moment is not cut
off, and neither is what takes no time, even if the moment has passed. A timer
may have a longest run, after which it goes off whatever it was set to.
-/

namespace TdsSession

/-- How a wait ends. -/
inductive Waited
  | ready (now : Moment)
  | cut (now : Moment)
  | forever
deriving DecidableEq, Repr

/-- Waits from `now` for what is ready after `delay`, and no longer than until `limit`. -/
def waitFrom (now : Moment) (delay : Option Span) (limit : Option Moment) : Waited :=
  match delay, limit with
  | some 0, _ => .ready now
  | some d, none => .ready (now + d)
  | some d, some l => if now + d ≤ l then .ready (now + d) else .cut (max now l)
  | none, some l => .cut (max now l)
  | none, none => .forever

theorem le_of_waitFrom_eq_ready {now t : Moment} {delay : Option Span} {limit : Option Moment}
    (h : waitFrom now delay limit = .ready t) : now ≤ t := by
  unfold waitFrom at h
  split at h
  · cases h; exact Nat.le_refl _
  · cases h; exact Nat.le_add_right _ _
  · split at h
    · cases h; exact Nat.le_add_right _ _
    · cases h
  · cases h
  · cases h

/-- A wait is cut off at its limit, or at once if that has passed. -/
theorem eq_max_of_waitFrom_eq_cut {now t : Moment} {delay : Option Span} {limit : Option Moment}
    (h : waitFrom now delay limit = .cut t) : ∃ l, limit = some l ∧ t = max now l := by
  unfold waitFrom at h
  split at h
  · cases h
  · cases h
  · split at h
    · cases h
    · cases h; exact ⟨_, rfl, rfl⟩
  · cases h; exact ⟨_, rfl, rfl⟩
  · cases h

/-- What a party waits with. -/
structure Timer where
  /-- The moment at which a wait is cut off. -/
  limit : Option Moment := none
  /-- The longest span for which a wait can be set, if there is one. -/
  longest : Option Span := none

namespace Timer

/-- Thirty years of 365 days, the longest run of a machine's timer. -/
def thirtyYears : Span := Span.ofSeconds 946080000

/-- The span after which a wait for `delay` is over. -/
def run (t : Timer) (delay : Span) : Span := t.longest.elim delay (min delay)

/-- Waits from `now` for what is ready after `delay`. -/
def wait (t : Timer) (now : Moment) (delay : Option Span) : Waited :=
  waitFrom now (delay.map t.run) t.limit

/-- A timer without a longest run takes exactly the time it was set to. -/
theorem wait_exact (limit : Option Moment) (now : Moment) (delay : Option Span) :
    ({ limit } : Timer).wait now delay = waitFrom now delay limit := by
  cases delay <;> rfl

end Timer

/-- The earlier of two moments, either of which may be missing. -/
def earlier : Option Moment → Option Moment → Option Moment
  | some a, some b => some (min a b)
  | some a, none => some a
  | none, b => b

/-- An answer that comes after a delay, or never. -/
structure Delayed (α : Type) where
  delay : Option Span
  value : α

/-- An answer that comes at once. -/
def Delayed.now (value : α) : Delayed α := ⟨some 0, value⟩

end TdsSession
