import TdsSession.Session.Recovery

/-!
# What happens to a session

Everything that can happen to the state of a session, from the server and
from the client, as one type. A session goes through any sequence of actions;
one that fails leaves the state as it was.
-/

namespace TdsSession

/-- What can happen to the state of a session. -/
inductive SessionAction
  /-- The server acknowledges session recovery with this payload. -/
  | record (payload : Bytes)
  | apply (token : StateToken)
  /-- The server sends a token with this body. -/
  | applyBody (body : Bytes)
  | reset
  | rebase
  | endRecovery
  /-- The session is carried over to a new connection. -/
  | carryOver
  | setDatabase (name : String)
  | setLanguage (name : String)
  | setCollation (collation : Collation)
  | setVersion (version : TdsVersion)
  | setEncrypted (encrypted : Bool)
  /-- An alias has been looked up. -/
  | setAlias (name : String) (target : DataSource)
  /-- The request to carry the session over is wanted. -/
  | requestRecovery
deriving DecidableEq, Repr

namespace SessionState

/-- The state after an action that does not fail. -/
def perform (s : SessionState) : SessionAction → Except ProtocolError SessionState
  | .record payload => s.record payload
  | .apply token => .ok (s.apply token)
  | .applyBody body => do
    let (token, _) ← StateToken.read body
    return s.apply token
  | .reset => .ok s.reset
  | .rebase => .ok s.rebase
  | .endRecovery => .ok s.endRecovery
  | .carryOver => .ok s.carryOver
  | .setDatabase name => .ok (s.setDatabase name)
  | .setLanguage name => .ok (s.setLanguage name)
  | .setCollation collation => .ok (s.setCollation collation)
  | .setVersion version => .ok (s.setVersion version)
  | .setEncrypted encrypted => .ok (s.setEncrypted encrypted)
  | .setAlias name target => .ok { s with aliases := Table.set s.aliases name target }
  | .requestRecovery => .ok s

/-- The state after an action, and what comes of it: the request, if it was asked for. -/
def act (s : SessionState) (a : SessionAction) : SessionState × Except ProtocolError (Option Bytes) :=
  match s.perform a with
  | .error e => (s, .error e)
  | .ok next => (next, .ok (if a = .requestRecovery then some s.recoveryRequest.write else none))

/-- The state after a sequence of actions. -/
def actAll (s : SessionState) (actions : List SessionAction) : SessionState :=
  actions.foldl (fun s a => (s.act a).1) s

end SessionState

end TdsSession
