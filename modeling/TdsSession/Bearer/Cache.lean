import TdsSession.Bearer.Error
import TdsSession.Bearer.Token
import TdsSession.Table

/-!
# The token cache

Tokens shared by the connections of a group, one for each authority and
resource. An entry is never taken out; a new token takes the place of the old
one only if it expires later.

A look-up either gives the cached token or says that a token has to be got,
and why. Getting it takes time in which others may use the cache, so the
look-up is in two parts: `lookUp` before, and `settle` or `abandon` after.
-/

namespace TdsSession

/-- What a token is for. -/
structure CacheKey where
  authority : String
  resource : String
deriving DecidableEq, Repr

/-- A cached token, and whether someone is refreshing it. -/
structure CacheEntry where
  token : BearerToken
  refreshing : Bool := false
deriving DecidableEq, Repr

/-- Tokens by what they are for. -/
abbrev TokenCache := Table CacheKey CacheEntry

/-- Why a token has to be got. -/
inductive CacheClaim
  /-- There is none. -/
  | missing
  /-- It expires before long; the claim holds the right to refresh it. -/
  | refresh
  /-- It expires too soon to be used. -/
  | urgent
deriving DecidableEq, Repr

/-- The first part of a look-up: a token, or a claim to get one. -/
inductive CacheAnswer
  | cached (token : BearerToken)
  | acquire (claim : CacheClaim)
deriving DecidableEq, Repr

namespace CacheEntry

/-- Keeps the token that expires later; of two that expire together, the old one. -/
def merge (e : CacheEntry) (offered : BearerToken) : CacheEntry :=
  if e.token.expiresAt < offered.expiresAt then { e with token := offered } else e

end CacheEntry

namespace TokenCache

/-- A token with more time left than this is not refreshed. -/
def freshAbove : Span := Span.ofSeconds (45 * 60)

/-- A token with more time left than this may be used while it is refreshed. -/
def usableAbove : Span := Span.ofSeconds (10 * 60)

/-- Puts a token in, and gives the token that is cached then. -/
def insert (c : TokenCache) (key : CacheKey) (token : BearerToken) : TokenCache × BearerToken :=
  let entry := match Table.find? c key with
    | some e => e.merge token
    | none => { token }
  (Table.set c key entry, entry.token)

/-- Offers a token to an entry, if there is one, and gives the token that is cached then. -/
def merge (c : TokenCache) (key : CacheKey) (token : BearerToken) :
    Option (TokenCache × BearerToken) :=
  (Table.find? c key).map fun _ => insert c key token

/-- Marks an entry as being refreshed or not. -/
def setRefreshing (c : TokenCache) (key : CacheKey) (refreshing : Bool) : TokenCache :=
  match Table.find? c key with
  | some e => Table.set c key { e with refreshing }
  | none => c

/-- Takes the right to refresh an entry, if there is one and nobody else holds the right. -/
def beginRefresh (c : TokenCache) (key : CacheKey) : Option (TokenCache × Bool) :=
  (Table.find? c key).map fun e =>
    if e.refreshing then (c, false) else (setRefreshing c key true, true)

/-- Gives the right to refresh an entry back. -/
def endRefresh (c : TokenCache) (key : CacheKey) : TokenCache := setRefreshing c key false

/-- The first part of a look-up, at the time `now`. -/
def lookUp (c : TokenCache) (key : CacheKey) (now : WallTime) : TokenCache × CacheAnswer :=
  match Table.find? c key with
  | none => (c, .acquire .missing)
  | some e =>
    let left := e.token.validity now
    if freshAbove < left then (c, .cached e.token)
    else if usableAbove < left then
      if e.refreshing then (c, .cached e.token)
      else (setRefreshing c key true, .acquire .refresh)
    else (c, .acquire .urgent)

/-- Gives up a claim without a token. -/
def abandon (c : TokenCache) (key : CacheKey) : CacheClaim → TokenCache
  | .refresh => endRefresh c key
  | .missing | .urgent => c

/-- The second part of a look-up: what came of getting a token. A refresh that failed leaves the old
token in use. -/
def settle (c : TokenCache) (key : CacheKey) (claim : CacheClaim)
    (outcome : Except AuthError BearerToken) : TokenCache × Except AuthError BearerToken :=
  match outcome with
  | .ok token =>
    let (c', cached) := insert c key token
    (abandon c' key claim, .ok cached)
  | .error e =>
    let result := match claim, Table.find? c key with
      | .refresh, some entry => .ok entry.token
      | _, _ => .error e
    (abandon c key claim, result)

/-- The entries in the order of their keys. -/
def sorted (c : TokenCache) : List (CacheKey × CacheEntry) :=
  c.mergeSort fun a b =>
    a.1.authority < b.1.authority ∨ (a.1.authority = b.1.authority ∧ a.1.resource ≤ b.1.resource)

end TokenCache

end TdsSession
