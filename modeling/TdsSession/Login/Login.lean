import TdsSession.Login.Retry
import TdsSession.Session.Recovery

/-!
# Logins

A whole login: from the options, and the state of a session that is to be
carried over if there is one, to an open session or the reason why there is
none. A login that fails because the server broke the protocol leaves the
connection unusable.
-/

namespace TdsSession

/-- What a login starts from: the options, the state of the session to carry over, the group, and
whether the connection is unusable. -/
structure LoginStart where
  config : Config
  previous : Option SessionState := none
  group : Group := {}
  doomed : Bool := false

namespace LoginStart

/-- The state in which a login begins. -/
def run (s : LoginStart) (w : World σ) : LoginRun σ where
  world := w
  group := s.group
  doomed := s.doomed
  budget := ⟨w.now, s.config.loginBudget⟩
  base := (s.previous.map SessionState.carryOver).getD .new

/-- The request to carry the session over. -/
def recovery (s : LoginStart) : Option Bytes := s.previous.map fun state => state.recoveryRequest.write

/-- What the login is made with. -/
def context (s : LoginStart) (server : Server σ) : LoginContext σ :=
  { server, config := s.config, recovery := s.recovery }

end LoginStart

/-- The reason against a partner in the options when one host has many addresses. -/
def partnerConfiguredReason : String :=
  "multi-subnet failover cannot be combined with a failover partner"

/-- The reason against a partner that cannot be read from. -/
def readOnlyPartnerReason : String :=
  "read-only intent requires a server that supports read-only failover"

/-- Why a session cannot be used with the partner that its server has named, if it cannot. -/
def Established.partnerConflict? (e : Established) (c : Config) : Option Error :=
  if e.partner.isNone then none
  else if c.multiSubnet then some (.invalidPartnerConfiguration partnerNamedReason)
  else if c.readOnly && !e.capabilities.readOnlyFailover then
    some (.invalidPartnerConfiguration readOnlyPartnerReason)
  else none

/-- The options name a partner, although one host has many addresses. -/
def Config.partnersConflict (c : Config) : Bool := c.multiSubnet && c.partner.isSome

namespace LoginM

/-- The first plan of a login: the group knows which host of a pair to try first. -/
def firstPlan (c : Config) : LoginM σ LoginPlan := do
  match c.partner with
  | some partner => planPair c partner (← get).group.preferPartner
  | none => planSingle c

/-- Marks the login as failed, and the connection as unusable if the error says so. -/
def markFailed (e : Error) : LoginM σ Unit :=
  modify fun run => { run with phase := .failedFatal, doomed := run.doomed || e.dooms }

/-- All rounds of a login. -/
def allRounds (x : LoginContext σ) (attempts : Nat) : LoginM σ Established := do
  rounds x attempts (← firstPlan x.config)

/-- The rounds of a login, and what keeps the session they open from being used. -/
def establish (x : LoginContext σ) (attempts : Nat) : LoginM σ Established := do
  if x.config.partnersConflict then
    enter .failedFatal
    fail (.invalidPartnerConfiguration partnerConfiguredReason)
  match ← attempted (allRounds x attempts) with
  | .error e =>
    markFailed e
    fail e
  | .ok e =>
    if let some conflict := e.partnerConflict? x.config then
      enter .failedFatal
      inWorld (WorldM.discard e.transport none)
      fail conflict
    return e

/-- A whole login with at most the given number of attempts. -/
def login (x : LoginContext σ) (attempts : Nat) : LoginM σ Established := do
  inWorld (WorldM.note .began)
  match ← attempted (establish x attempts) with
  | .error e =>
    inWorld (WorldM.note (.ended (.failed e)))
    fail e
  | .ok e =>
    inWorld (WorldM.note (.ended (.succeeded e.onPartner)))
    modify fun run => { run with group := run.group.afterLogin e.onPartner }
    return e

end LoginM

/-- A whole login with at most the given number of attempts, and the state it ends in. -/
def login (server : Server σ) (attempts : Nat) (s : LoginStart) (w : World σ) :
    Except Stop Established × LoginRun σ :=
  LoginM.login (s.context server) attempts (s.run w)

end TdsSession
