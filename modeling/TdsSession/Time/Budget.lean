import TdsSession.Time.Span

/-!
# Time budgets

All attempts of a login share one budget. It ends a fixed span after it was
started, or never; starting it anew keeps its length.
-/

namespace TdsSession

/-- A span of time that began at `start`; without a total it has no end. -/
structure Budget where
  start : Moment
  total : Option Span
deriving DecidableEq, Repr

namespace Budget

/-- The percentage of the budget that makes one slice. -/
def slicePercent : Nat := 8

/-- The total from which the slice of an endless budget is made. -/
def sliceBase : Span := Span.ofSeconds 15

/-- The same budget, started at `now`. -/
def restart (b : Budget) (now : Moment) : Budget := { b with start := now }

/-- The budget has no end. -/
def isUnlimited (b : Budget) : Bool := b.total.isNone

/-- The end of the budget. -/
def deadline (b : Budget) : Except Overflow (Option Moment) :=
  match b.total with
  | none => .ok none
  | some total => (Span.after b.start total).map some

/-- What is left at `now`. -/
def remaining (b : Budget) (now : Moment) : Except Overflow (Option Span) := do
  let deadline ← b.deadline
  return deadline.map (· - now)

/-- Nothing is left at `now`. -/
def isExpired (b : Budget) (now : Moment) : Except Overflow Bool := do
  let left ← b.remaining now
  return left == some 0

/-- Something is left after a sleep that begins at `now`. -/
def canSleep (b : Budget) (now : Moment) (sleep : Span) : Except Overflow Bool := do
  match ← b.remaining now with
  | some left => return sleep < left
  | none => return true

/-- A timeout cut to what is left. -/
def clamp (b : Budget) (now : Moment) (timeout : Span) : Except Overflow Span := do
  match ← b.remaining now with
  | some left => return min timeout left
  | none => return timeout

/-- One slice of the budget. -/
def slice (b : Budget) : Except Overflow Span := do
  let percent ← Span.times (b.total.getD sliceBase) slicePercent
  return percent / 100

/-- The timeout of attempt `n`, counted from one, when two hosts are tried in turn: both attempts of
a pair get the same, and each pair one slice more than the one before. -/
def pairTimeout (b : Budget) (now : Moment) (slice : Span) (n : Nat) : Except Overflow Span := do
  let timeout ← Span.times slice ((n + 1) / 2)
  b.clamp now timeout

/-- The timeout of attempt `n`, counted from one, when one host has many addresses. -/
def manyAddressTimeout (b : Budget) (now : Moment) (slice : Span) (n : Nat) : Except Overflow Span := do
  let timeout ← Span.times slice n
  b.clamp now timeout

end Budget

end TdsSession
