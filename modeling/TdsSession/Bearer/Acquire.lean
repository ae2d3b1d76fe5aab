import TdsSession.Bearer.Error
import TdsSession.Bearer.Token
import TdsSession.Table
import TdsSession.Time.Wait

/-!
# Getting a token

A provider is asked for a token until it gives one or there is no sense in
asking again. Being told to slow down is borne a limited number of times, a
failure that may pass for as long as there is time, any other failure not at
all. The sleep after a passing failure doubles each time.
-/

namespace TdsSession

/-- What comes of asking a provider once. -/
abbrev ProviderAnswer := Delayed (Except ProviderError BearerToken)

/-- A source of tokens. -/
inductive Provider
  /-- Gives its answers in order, one a call; once there are none left, it fails for good. -/
  | answers (left : List ProviderAnswer)
  /-- Gives the same token at every call, and at once. -/
  | fixed (token : BearerToken)

/-- Why a provider that has no answers left fails. -/
def ProviderError.exhausted : ProviderError := .fatal "script exhausted"

/-- The providers of a client, one a method. -/
abbrev ProviderRegistry := Table AuthMethod Provider

namespace ProviderRegistry

/-- The provider of a method. -/
def resolve (r : ProviderRegistry) (m : AuthMethod) : Except AuthError Provider :=
  match Table.find? r m with
  | some p => .ok p
  | none => .error (.unsupportedMethod m.toText)

end ProviderRegistry

/-- How often and after what sleeps a provider is asked again. -/
structure AcquirePolicy where
  maxThrottled : Nat := 3
  initialBackoff : Span := Span.ofMillis 100
deriving DecidableEq, Repr

/-- One thing that happened while a token was got. -/
inductive AcquireEvent
  | called (time : Moment)
  | answered (time : Moment) (answer : Except ProviderError BearerToken)
  | slept (time : Moment) (span : Span)
deriving Repr

/-- How getting a token ended. -/
inductive AcquireEnd
  | finished (result : Except AuthError BearerToken)
  /-- The caller lost its patience. -/
  | cut
  /-- It waits for ever. -/
  | forever
  | overflow

/-- The course of getting a token: its end, what happened until then, and the answers the provider
has left. -/
structure Acquisition where
  ended : AcquireEnd
  now : Moment
  events : List AcquireEvent
  left : List ProviderAnswer

/-- The course with more events in front. -/
def Acquisition.prepend (events : List AcquireEvent) (a : Acquisition) : Acquisition :=
  { a with events := events ++ a.events }

/-- What to do after a failure: give up, or ask again after a sleep. -/
inductive AcquireNext
  | giveUp (e : AuthError)
  | again (throttled : Nat) (sleep backoff : Span)

namespace AcquirePolicy

/-- A sleep of `span` ends before the deadline. -/
def fits (deadline : Option Moment) (now : Moment) (span : Span) : Except Overflow Bool :=
  match deadline with
  | none => .ok true
  | some d => do
    let wake ← Span.after now span
    return wake < d

/-- What to do after `cause`, when the provider has said `throttled` times to slow down and
`backoff` is the next sleep. -/
def next (p : AcquirePolicy) (r : TokenRequest) (deadline : Option Moment) (now : Moment)
    (throttled : Nat) (backoff : Span) : ProviderError → Except Overflow AcquireNext
  | .rateLimited retryAfter => do
    let sleep := retryAfter.getD backoff
    let gaveUp := AcquireNext.giveUp (.throttled r.authority (throttled + 1) retryAfter)
    if p.maxThrottled ≤ throttled + 1 then return gaveUp
    if ← fits deadline now sleep then return .again (throttled + 1) sleep backoff
    return gaveUp
  | .transient reason => do
    if ← fits deadline now backoff then return .again throttled backoff (Span.doubled backoff)
    return .giveUp (.acquisition r.authority r.resource (.transient reason))
  | .fatal reason => return .giveUp (.acquisition r.authority r.resource (.fatal reason))

end AcquirePolicy

/-- Asks for a token from `now` on, until there is one, or a reason not to ask again, or the timer
cuts the wait off. -/
def askProvider (p : AcquirePolicy) (r : TokenRequest) (deadline : Option Moment) (timer : Timer) :
    (throttled : Nat) → (backoff : Span) → (now : Moment) → List ProviderAnswer → Acquisition
  | _, _, now, [] =>
    ⟨.finished (.error (.acquisition r.authority r.resource .exhausted)), now,
      [.called now, .answered now (.error .exhausted)], []⟩
  | throttled, backoff, now, answer :: left =>
    match timer.wait now answer.delay with
    | .cut t => ⟨.cut, t, [.called now], left⟩
    | .forever => ⟨.forever, now, [.called now], left⟩
    | .ready t =>
      let events := [.called now, .answered t answer.value]
      match answer.value with
      | .ok token => ⟨.finished (.ok token), t, events, left⟩
      | .error cause =>
        match p.next r deadline t throttled backoff cause with
        | .error _ => ⟨.overflow, t, events, left⟩
        | .ok (.giveUp e) => ⟨.finished (.error e), t, events, left⟩
        | .ok (.again throttled' sleep backoff') =>
          match timer.wait t (some sleep) with
          | .ready t' =>
            (askProvider p r deadline timer throttled' backoff' t' left).prepend
              (events ++ [.slept t sleep])
          | .cut t' => ⟨.cut, t', events ++ [.slept t sleep], left⟩
          | .forever => ⟨.forever, t, events ++ [.slept t sleep], left⟩

/-- Gets a token from a provider that answers call by call, unless the deadline has passed. -/
def acquireToken (p : AcquirePolicy) (r : TokenRequest) (deadline : Option Moment) (timer : Timer)
    (now : Moment) (answers : List ProviderAnswer) : Acquisition :=
  if deadline.any (· ≤ now) then
    ⟨.finished (.error (.acquisitionTimeout r.authority)), now, [], answers⟩
  else askProvider p r deadline timer 0 p.initialBackoff now answers

namespace Provider

/-- Gets a token, and gives the provider as it is afterwards. A fixed token needs no call. -/
def acquire (p : AcquirePolicy) (r : TokenRequest) (deadline : Option Moment) (timer : Timer)
    (now : Moment) : Provider → Acquisition × Provider
  | .answers left =>
    let course := acquireToken p r deadline timer now left
    (course, .answers course.left)
  | .fixed token =>
    let ended :=
      if deadline.any (· ≤ now) then .error (.acquisitionTimeout r.authority) else .ok token
    (⟨.finished ended, now, [], []⟩, .fixed token)

end Provider

end TdsSession
