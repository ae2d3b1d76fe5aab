import TdsSession.Bearer.Cache

/-!
# Sharing the token cache

Many users of one cache at once. A user may hold the right to refresh an
entry under a name of its own, and may be in the middle of a look-up; what
each of them does next is one event. A cache with its users runs through any
sequence of events.
-/

namespace TdsSession

/-- A cache, the refresh rights held by name, and the look-ups that have not ended. -/
structure CacheUse where
  cache : TokenCache := []
  guards : List (String × CacheKey) := []
  pending : Table Nat (CacheKey × CacheClaim) := []
deriving DecidableEq, Repr

/-- What a user of the cache may do. -/
inductive CacheEvent
  | insert (key : CacheKey) (token : BearerToken)
  | get (key : CacheKey)
  | merge (key : CacheKey) (token : BearerToken)
  | beginRefresh (key : CacheKey) (guard : String)
  | endRefresh (guard : String)
  /-- Begins the look-up with the given number. -/
  | lookUp (call : Nat) (key : CacheKey)
  /-- Ends a look-up with what came of getting a token. -/
  | settle (call : Nat) (outcome : Except AuthError BearerToken)
  /-- Ends a look-up without waiting for a token. -/
  | cancel (call : Nat)
deriving Repr

/-- What a user is told. -/
inductive CacheReply
  | token (t : BearerToken)
  /-- There is no such entry, or nothing to tell. -/
  | nothing
  | granted (yes : Bool)
  | dropped (count : Nat)
  | answer (a : CacheAnswer)
  | failed (e : AuthError)
deriving Repr

namespace CacheUse

/-- One event, at the time `now`. -/
def step (u : CacheUse) (now : WallTime) : CacheEvent → CacheUse × CacheReply
  | .insert key token =>
    let (c, cached) := TokenCache.insert u.cache key token
    ({ u with cache := c }, .token cached)
  | .get key =>
    match Table.find? u.cache key with
    | some e => (u, .token e.token)
    | none => (u, .nothing)
  | .merge key token =>
    match TokenCache.merge u.cache key token with
    | some (c, cached) => ({ u with cache := c }, .token cached)
    | none => (u, .nothing)
  | .beginRefresh key guard =>
    match TokenCache.beginRefresh u.cache key with
    | some (c, true) => ({ u with cache := c, guards := u.guards ++ [(guard, key)] }, .granted true)
    | some (_, false) => (u, .granted false)
    | none => (u, .nothing)
  | .endRefresh guard =>
    let (ended, kept) := u.guards.partition fun g => g.1 = guard
    ({ u with cache := ended.foldl (fun c g => TokenCache.endRefresh c g.2) u.cache, guards := kept },
      .dropped ended.length)
  | .lookUp call key =>
    let (c, a) := TokenCache.lookUp u.cache key now
    match a with
    | .cached _ => ({ u with cache := c }, .answer a)
    | .acquire claim => ({ u with cache := c, pending := Table.set u.pending call (key, claim) }, .answer a)
  | .settle call outcome =>
    match Table.find? u.pending call with
    | none => (u, .nothing)
    | some (key, claim) =>
      let (c, result) := TokenCache.settle u.cache key claim outcome
      let u' := { u with cache := c, pending := Table.erase u.pending call }
      match result with
      | .ok token => (u', .token token)
      | .error e => (u', .failed e)
  | .cancel call =>
    match Table.find? u.pending call with
    | none => (u, .nothing)
    | some (key, claim) =>
      ({ u with cache := TokenCache.abandon u.cache key claim, pending := Table.erase u.pending call },
        .nothing)

/-- A sequence of events. -/
def run (u : CacheUse) (now : WallTime) (events : List CacheEvent) : CacheUse :=
  events.foldl (fun u e => (u.step now e).1) u

end CacheUse

/-- What a user of the cache does in one go; a look-up may be interrupted by others. -/
inductive CacheAct
  | event (e : CacheEvent)
  /-- A whole look-up. Others do `meanwhile` while a token is got, if one has to be got. -/
  | lookUp (key : CacheKey) (outcome : Except AuthError BearerToken) (meanwhile : List CacheAct)

/-- What came of an act, and the cache after it. -/
inductive CacheReport
  | event (reply : CacheReply) (after : TokenCache)
  /-- A whole look-up. If a token had to be got, with the cache when that began and what others did
  meanwhile. -/
  | lookUp (result : Except AuthError BearerToken) (acquired : Option (TokenCache × List CacheReport))
      (after : TokenCache)

namespace CacheUse

mutual

/-- Does one act; `depth` look-ups have not ended yet. -/
def act (now : WallTime) (depth : Nat) (u : CacheUse) : CacheAct → CacheUse × CacheReport
  | .event e =>
    let (u', reply) := u.step now e
    (u', .event reply u'.cache)
  | .lookUp key outcome meanwhile =>
    let (u₁, reply) := u.step now (.lookUp depth key)
    match reply with
    | .answer (.acquire _) =>
      let (u₂, reports) := actAll now (depth + 1) u₁ meanwhile
      let (u₃, settled) := u₂.step now (.settle depth outcome)
      let result := match settled with
        | .token token => .ok token
        | .failed e => .error e
        | _ => outcome
      (u₃, .lookUp result (some (u₁.cache, reports)) u₃.cache)
    | .answer (.cached token) => (u₁, .lookUp (.ok token) none u₁.cache)
    | _ => (u₁, .lookUp outcome none u₁.cache)

/-- Does acts in order. -/
def actAll (now : WallTime) (depth : Nat) (u : CacheUse) : List CacheAct → CacheUse × List CacheReport
  | [] => (u, [])
  | a :: rest =>
    let (u₁, report) := act now depth u a
    let (u₂, reports) := actAll now depth u₁ rest
    (u₂, report :: reports)

end

end CacheUse

end TdsSession
