import TdsSession.Login.Run

/-!
# Attempts to log in

One attempt connects to one target, negotiates, logs in and reads the whole
response. It ends with an open session, with a target to try instead, or with
an error. An attempt has a time limit of its own; what it has learned by then
is kept, and its transport is given up.
-/

namespace TdsSession

/-- What an attempt is made with: the options, the request to carry a session over, if there is one,
the target, and the moment at which it is cut off. -/
structure AttemptPlan where
  config : Config
  recovery : Option Bytes
  target : Target
  timeout : Option Span
  deadline : Option Moment

/-- How an attempt ends, if not with an error. -/
inductive AttemptEnd
  | opened (e : Established)
  | routed (target : Routing)

namespace AttemptPlan

/-- What is asked for before the login. -/
def handshake (p : AttemptPlan) : HandshakeRequest where
  encrypt := p.config.encrypt
  mars := p.config.mars
  fedAuth := p.config.credentials.isFederated
  inst := p.target.inst

/-- How the credentials are shown in a login: user, password, and the announcement of a token. -/
def showCredentials : Credentials → String × String × Option TokenAnnouncement
  | .password user password => (user, password, none)
  | .token token => ("", "", some (.inLogin token))
  | .federated .. => ("", "", some .onRequest)

/-- The login. -/
def login (p : AttemptPlan) : LoginRequest :=
  let (user, password, fedAuth) := showCredentials p.config.credentials
  { version := p.config.version
    packetSize := p.config.packetSize
    workstation := p.config.workstation.getD ""
    user
    password
    application := p.config.application
    server := p.target.suppliedName
    language := p.config.language.getD ""
    database := p.target.database.getD ""
    features := p.config.loginFeatures
    fedAuth
    recovery := p.recovery
    readOnly := p.config.readOnly }

/-- The method by which a provider has to issue a token, if one has to. -/
def provided (p : AttemptPlan) : Option AuthMethod :=
  match p.config.credentials with
  | .federated method .. => some method
  | _ => none

end AttemptPlan

namespace LoginM

/-- Takes over what happened while a provider was asked. -/
def recordAcquisition (r : TokenRequest) (w : World σ) (course : Acquisition) : World σ :=
  let events := course.events.filterMap fun
    | .called time => some (time, Event.asked r)
    | .slept time span => some (time, Event.slept span)
    | .answered .. => none
  { w with now := course.now, trace := events.reverse ++ w.trace }

/-- Asks the provider of a method for a token to claim, and gives the claim up if there is none. -/
def acquire (p : AttemptPlan) (method : AuthMethod) (r : TokenRequest) (deadline : Option Moment)
    (key : CacheKey) (claim : CacheClaim) : LoginM σ BearerToken := do
  let run ← get
  let timer : Timer := { limit := earlier p.deadline run.world.patience }
  let provider ← ofExcept ((run.world.providers.resolve method).mapError .authentication)
  let (course, provider) := provider.acquire p.config.acquisition r deadline timer run.world.now
  let world := recordAcquisition r
    { run.world with providers := Table.set run.world.providers method provider } course
  let settle (cache : TokenCache) : LoginM σ Unit :=
    set { run with world, group := { run.group with cache } }
  match course.ended with
  | .finished outcome =>
    let (cache, result) := TokenCache.settle run.group.cache key claim outcome
    settle cache
    ofExcept (result.mapError .authentication)
  | .cut =>
    settle (TokenCache.abandon run.group.cache key claim)
    throw (WorldM.cutReason p.deadline world.now)
  | .forever =>
    settle (TokenCache.abandon run.group.cache key claim)
    throw .abandoned
  | .overflow => throw .overflow

/-- Gets a token for what the server named, from the cache or from a provider. -/
def fetchToken (p : AttemptPlan) (method : AuthMethod) (info : FedAuthInfo) : LoginM σ BearerToken := do
  let r : TokenRequest :=
    TokenRequest.withCredentials { authority := info.stsUrl, resource := info.spn } p.config.credentials
  let key : CacheKey := ⟨info.stsUrl, info.spn⟩
  let deadline ← askBudget fun budget _ => budget.deadline
  let run ← get
  let (cache, answer) := TokenCache.lookUp run.group.cache key run.world.wallTime
  set { run with group := { run.group with cache } }
  match answer with
  | .cached token => return token
  | .acquire claim => acquire p method r deadline key claim

/-- Shows the server a token. -/
def showToken (p : AttemptPlan) (t : Transport) (info : FedAuthInfo) : LoginM σ Unit := do
  match p.provided with
  | none => fail (.protocol (.unrequestedFeature Feature.fedAuth.id))
  | some method =>
    let token ← fetchToken p method info
    modify (LoginRun.withToken · t.number)
    inWorld (WorldM.sendToken t token.toBytes p.deadline)

/-- Remembers the partner that a response names. -/
def notePartner (r : Response) : LoginM σ Unit :=
  modify fun run => { run with partner := r.partner?.or run.partner }

/-- Reads records up to the end of the response, and gives what is left of them. -/
def readResponse (p : AttemptPlan) (t : Transport) :
    List (Delayed Record) → Response → LoginM σ (Response × List (Delayed Record))
  | [], _ => do
    inWorld (WorldM.wait t.line.ending.delay p.deadline)
    ofExcept t.line.ending.value
    fail .connectionClosed
  | record :: rest, r => do
    inWorld (WorldM.wait record.delay p.deadline)
    inWorld (WorldM.note (.received t.number record.value))
    match r.take record.value with
    | .error e => fail (.protocol e)
    | .ok (.more r) => do
      notePartner r
      readResponse p t rest r
    | .ok (.complete r) => do
      inWorld (WorldM.note (.answered t.number))
      return (r, rest)
    | .ok (.wantsToken info) => do
      showToken p t info
      readResponse p t rest r

/-- What a response comes to. Without an open session the transport is closed if the server has said
why, and left alone if it has not. -/
def conclude (p : AttemptPlan) (t : Transport) (r : Response) : LoginM σ AttemptEnd := do
  if let some e := r.error? then
    inWorld (WorldM.discard t p.deadline)
    fail e
  if let some target := r.routing? then
    inWorld (WorldM.discard t p.deadline)
    return .routed target
  if !r.accepted then fail (.loginIncomplete "server finished without LOGINACK")
  if p.recovery.isSome && !r.capabilities.sessionRecovery then
    fail (.loginIncomplete "server did not acknowledge session recovery")
  return .opened
    { transport := t
      target := p.target
      capabilities := r.capabilities
      state := r.session
      packetSize := r.packetSize?.getD p.config.packetSize
      partner := r.partner?
      userInstance := r.userInstance?
      events := r.events }

/-- A provider that will have to issue a token has to be there. -/
def requireProvider (p : AttemptPlan) : LoginM σ Unit := do
  if let some method := p.provided then
    let _ ← ofExcept (((← get).world.providers.resolve method).mapError .authentication)

/-- Negotiates, logs in and reads the response, all over one transport. -/
def logIn (p : AttemptPlan) (t : Transport) : LoginM σ AttemptEnd := do
  enter .handshakeNegotiation
  let ack ← inWorld (WorldM.handshake t p.handshake p.deadline)
  let session := (← get).base.setEncrypted ack.encryption
  enter .loggingIn
  inWorld (WorldM.sendLogin t p.login p.deadline)
  enter .awaitingFeatureAcks
  let (r, rest) ← readResponse p t t.line.records
    { capabilities := .empty p.config.loginFeatures, session }
  conclude p { t with line := { t.line with records := rest } } r

/-- One attempt. -/
def attempt (server : Server σ) (p : AttemptPlan) : LoginM σ AttemptEnd := do
  requireProvider p
  enter .connecting
  let t ← inWorld (WorldM.connect server p.target p.timeout p.deadline)
  logIn p t

/-- One attempt, with its end by time turned into an error. -/
def timedAttempt (server : Server σ) (p : AttemptPlan) : LoginM σ (Except Error AttemptEnd) :=
  tryCatch (Except.ok <$> attempt server p) fun
    | .failed e => pure (.error e)
    | .cut => pure (.error (.connectTimeout p.target.toText))
    | s => throw s

end LoginM

end TdsSession
