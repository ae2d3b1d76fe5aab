import TdsSession.Login.Attempt

/-!
# Trying again

A login makes attempts, one a round, until one opens a session or there is no
sense in another. All rounds share one time budget. With one host, it is tried
again after a sleep that grows; with a failover partner, the two hosts are
tried in turn, with time slices that grow, and the sleep comes after both have
failed. A redirect is followed in the next round. An attempt that ran out of
time after it had got a token is repeated once with the whole budget, since
the token is at hand then.
-/

namespace TdsSession

/-- Where the rounds with one host stand. -/
structure SinglePlan where
  slice : Span
  backoff : Backoff
  failed : Nat := 0
  /-- The target of a redirect that is being followed. -/
  routed : Option Target := none
deriving DecidableEq, Repr

/-- Where the rounds with two hosts stand. Each host keeps its redirect. -/
structure PairPlan where
  /-- The partner, unless a server names another. -/
  partner : DataSource
  slice : Span
  backoff : Backoff
  /-- The next attempt goes to the partner. -/
  onPartner : Bool
  failed : Nat := 0
  primaryRoute : Option Target := none
  partnerRoute : Option Target := none
deriving DecidableEq, Repr

namespace PairPlan

/-- The redirect of the side whose turn it is. -/
def route (p : PairPlan) : Option Target :=
  if p.onPartner then p.partnerRoute else p.primaryRoute

/-- The plan in which the side whose turn it is has been redirected. -/
def withRoute (p : PairPlan) (target : Target) : PairPlan :=
  if p.onPartner then { p with partnerRoute := some target } else { p with primaryRoute := some target }

/-- The plan after a failure: it is the other side's turn. -/
def failedOnce (p : PairPlan) : PairPlan := { p with failed := p.failed + 1, onPartner := !p.onPartner }

end PairPlan

/-- What the rounds of a login follow. -/
inductive LoginPlan
  | single (p : SinglePlan)
  | pair (p : PairPlan)
deriving DecidableEq, Repr

namespace LoginPlan

/-- The redirect that the next attempt follows. -/
def route : LoginPlan → Option Target
  | .single p => p.routed
  | .pair p => p.route

/-- The data source that the next attempt goes to when it follows no redirect, if `named` is the partner
that a server has named last. -/
def source (c : Config) (named : Option String) : LoginPlan → Except Error DataSource
  | .single _ => .ok c.server
  | .pair p =>
    if p.onPartner then
      match named with
      | some name => DataSource.parse name.toList
      | none => .ok p.partner
    else .ok c.server

/-- The plan after a redirect. -/
def withRoute (target : Target) : LoginPlan → LoginPlan
  | .single p => .single { p with routed := some target }
  | .pair p => .pair (p.withRoute target)

end LoginPlan

/-- What a round comes to: an open session, or a plan for the next round. -/
inductive Round
  | opened (e : Established)
  | again (p : LoginPlan)

/-- How one attempt within a round ends, once a redirect has been looked at. -/
inductive RoundEnd
  | opened (e : Established)
  | routed (target : Target)
  | failed (e : Error)

namespace RoundEnd

/-- How far the login has come then. -/
def phase : RoundEnd → LoginPhase
  | .opened _ => .open
  | .routed _ => .routed
  | .failed e => if e.isTransient then .failedTransient else .failedFatal

/-- What is kept of the attempt. -/
def record (target : Target) : RoundEnd → AttemptRecord
  | .opened _ => ⟨target, true, none, none⟩
  | .routed next => ⟨target, false, some next, none⟩
  | .failed e => ⟨target, false, none, some e.kind⟩

end RoundEnd

/-- The login once an attempt has ended. -/
def LoginRun.finished (run : LoginRun σ) (target : Target) (ended : RoundEnd) : LoginRun σ :=
  { run with
    phase := ended.phase
    attempts := ended.record target :: run.attempts }

/-- What a login is made with. -/
structure LoginContext (σ : Type) where
  server : Server σ
  config : Config
  /-- The request to carry a session over, if there is one. -/
  recovery : Option Bytes

/-- The attempt at a target that begins at `now`. -/
def LoginContext.attempt (x : LoginContext σ) (target : Target) (timeout : Option Span) (now : Moment) :
    AttemptPlan :=
  { config := x.config, recovery := x.recovery, target, timeout, deadline := timeout.map (now + ·) }

/-- The reason against a named partner when one host has many addresses. -/
def partnerNamedReason : String :=
  "multi-subnet failover cannot be combined with a server-provided partner"

/-- The reason against a partner that names none itself. -/
def partnerSilentReason : String := "failover host accepted the login without reporting a partner"

namespace LoginM

/-- Follows a redirect, as far as the options and the time allow. -/
def followRedirect (c : Config) (source : Target) (target : Routing) : LoginM σ RoundEnd := do
  let run ← get
  if !c.redirect.follow || c.redirect.limit ≤ run.redirects then
    return .failed (.routingLimitExceeded c.redirect.limit)
  if ← askBudget Budget.isExpired then return .failed .timeoutExpired
  set { run with redirects := run.redirects + 1 }
  return .routed (.ofRouting c target source.host source.spn)

/-- Makes one attempt within a time limit, and records it. -/
def tryTarget (x : LoginContext σ) (target : Target) (timeout : Option Span) :
    LoginM σ RoundEnd := do
  let now := (← get).world.now
  let ended ← timedAttempt x.server (x.attempt target timeout now)
  let ended ← match ended with
    | .ok (.opened e) => pure (RoundEnd.opened e)
    | .ok (.routed next) => followRedirect x.config target next
    | .error e => pure (RoundEnd.failed e)
  modify (LoginRun.finished · target ended)
  return ended

/-- After an attempt that ran out of time with a token at hand, starts the budget anew. -/
def retryWithToken (e : Error) : LoginM σ Bool := do
  let run ← get
  if run.tokenRetry = .hasToken ∧ e.isTimeout then
    set run.restarted
    return true
  return false

/-- Sleeps before the next attempt, if the budget allows it after `e`. -/
def sleepOrExpire (e : Error) (span : Span) : LoginM σ Unit := do
  if ← askBudget fun budget now => budget.canSleep now span then inWorld (WorldM.sleep span)
  else fail (.timeoutExpiredAfter e)

/-- The plan for one host. -/
def planSingle (c : Config) : LoginM σ LoginPlan := do
  let slice ← ofClock (← get).budget.slice
  return .single { slice, backoff := c.retry.backoff }

/-- The plan for two hosts. -/
def planPair (c : Config) (partner : DataSource) (onPartner : Bool) : LoginM σ LoginPlan := do
  let slice ← ofClock (← get).budget.slice
  return .pair { partner, slice, backoff := c.retry.backoff, onPartner }

/-- What follows a failure that may pass when there is one host: if a server has named a partner, the
two are tried in turn from here on. -/
def afterSingleFailure (x : LoginContext σ) (p : SinglePlan) (e : Error) : LoginM σ Round := do
  match (← get).partner with
  | some name =>
    if x.config.multiSubnet then fail (.invalidPartnerConfiguration partnerNamedReason)
    let partner ← ofExcept (DataSource.parse name.toList)
    return .again (← planPair x.config partner true)
  | none =>
    sleepOrExpire e p.backoff.current
    return .again (.single { p with failed := p.failed + 1, backoff := p.backoff.next })

/-- What follows a failure that may pass when there are two hosts. -/
def afterPairFailure (p : PairPlan) (e : Error) : LoginM σ Round := do
  if ← askBudget Budget.isExpired then fail (.timeoutExpiredAfter e)
  let p := p.failedOnce
  if p.failed % 2 = 0 then
    sleepOrExpire e p.backoff.current
    return .again (.pair { p with backoff := p.backoff.next })
  return .again (.pair p)

/-- The target of the next attempt: that of a redirect, or else of a data source. -/
def roundTarget (x : LoginContext σ) (plan : LoginPlan) : LoginM σ Target := do
  match plan.route with
  | some target => return target
  | none =>
    let source ← ofExcept (plan.source x.config (← get).partner)
    resolve x.config source

/-- The time for the next attempt. -/
def roundTimeout (x : LoginContext σ) : LoginPlan → LoginM σ (Option Span)
  | .single p =>
    if x.config.multiSubnet then
      some <$> askBudget fun budget now => budget.manyAddressTimeout now p.slice (p.failed + 1)
    else askBudget Budget.remaining
  | .pair p => some <$> askBudget fun budget now => budget.pairTimeout now p.slice (p.failed + 1)

/-- The attempt of one round. -/
def roundAttempt (x : LoginContext σ) (plan : LoginPlan) : LoginM σ RoundEnd := do
  enter .resolvingIdentity
  let target ← roundTarget x plan
  let timeout ← roundTimeout x plan
  tryTarget x target timeout

/-- Takes an open session; a partner has to name its own partner. -/
def acceptSession (e : Established) : LoginPlan → LoginM σ Round
  | .single _ => return .opened e
  | .pair p => do
    if p.onPartner && e.partner.isNone then fail (.invalidPartnerConfiguration partnerSilentReason)
    return .opened { e with onPartner := p.onPartner }

/-- What follows a failure that may pass. -/
def afterFailure (x : LoginContext σ) (e : Error) : LoginPlan → LoginM σ Round
  | .single p => afterSingleFailure x p e
  | .pair p => afterPairFailure p e

/-- What follows an attempt. -/
def settle (x : LoginContext σ) (plan : LoginPlan) : RoundEnd → LoginM σ Round
  | .opened e => acceptSession e plan
  | .routed next => return .again (plan.withRoute next)
  | .failed e => do
    if ← retryWithToken e then return .again plan
    if !e.isTransient then fail e
    afterFailure x e plan

/-- One round: an attempt, and what follows from it. -/
def round (x : LoginContext σ) (plan : LoginPlan) : LoginM σ Round := do
  settle x plan (← roundAttempt x plan)

/-- Rounds until a session is open, at most `attempts`. -/
def rounds (x : LoginContext σ) : (attempts : Nat) → LoginPlan → LoginM σ Established
  | 0, _ => throw .exhausted
  | attempts + 1, p => do
    match ← round x p with
    | .opened e => return e
    | .again p => rounds x attempts p

end LoginM

end TdsSession
