/-!
# Spans of time

Time is counted in nanoseconds: a span is a length of time, a moment a
distance from a fixed origin. Machine clocks are finite. A span must stay
below `2 ^ 64` seconds and a moment below `2 ^ 63` seconds; arithmetic that
leaves these ranges has no result but an overflow.
-/

namespace TdsSession

/-- A length of time in nanoseconds. -/
abbrev Span := Nat

/-- A moment, as the nanoseconds since the origin of the clock. -/
abbrev Moment := Nat

/-- A time on the clock on the wall, in nanoseconds before or after its origin. -/
abbrev WallTime := Int

/-- The one way time arithmetic can fail. -/
inductive Overflow
  | overflow
deriving DecidableEq, Repr

namespace Span

def ofSeconds (s : Nat) : Span := s * 1000000000

def ofMillis (ms : Nat) : Span := ms * 1000000

/-- Whole milliseconds, rounded down. -/
def toMillis (d : Span) : Nat := d / 1000000

/-- The first span that is too long. -/
def limit : Span := ofSeconds 0x10000000000000000

/-- The first moment that is too late. -/
def momentLimit : Moment := ofSeconds 0x8000000000000000

/-- `n` times a span. -/
def times (d : Span) (n : Nat) : Except Overflow Span :=
  if d * n < limit then .ok (d * n) else .error .overflow

/-- Twice a span, or the longest span if that is too long. -/
def doubled (d : Span) : Span := min (2 * d) (limit - 1)

/-- The moment a span after `now`. -/
def after (now : Moment) (d : Span) : Except Overflow Moment :=
  if now + d < momentLimit then .ok (now + d) else .error .overflow

/-- `whole` with `part`, a fraction in units of `10 ^ -places`, without needless zeros. -/
private def decimal (whole part places : Nat) : String :=
  let digits := Nat.toDigits 10 part
  let padded := List.replicate (places - digits.length) '0' ++ digits
  let kept := (padded.reverse.dropWhile (· == '0')).reverse
  if kept.isEmpty then toString whole else toString whole ++ "." ++ String.ofList kept

/-- A span in the largest unit in which it is not below one. -/
def toText (d : Span) : String :=
  if ofSeconds 1 ≤ d then decimal (d / 1000000000) (d % 1000000000) 9 ++ "s"
  else if 1000000 ≤ d then decimal (d / 1000000) (d % 1000000) 6 ++ "ms"
  else if 1000 ≤ d then decimal (d / 1000) (d % 1000) 3 ++ "µs"
  else toString d ++ "ns"

end Span

end TdsSession
