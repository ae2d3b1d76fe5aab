import TdsSession.Login.World

/-!
# Scripted servers

A server that plays back logins laid out beforehand. Each attempt to connect
takes the next login that is laid out for its host, else the next one for any
host, else the one that is left for all others. Apart from that, single calls
on single connections can be made to get lost on the way.
-/

namespace TdsSession

/-- How one attempt to connect plays out. -/
inductive ScriptedLogin
  | refuse
  /-- The attempt never comes to an end. -/
  | hang
  /-- The login is answered with records; after them the stream ends, or nothing comes ever. -/
  | respond (records : List Record) (stalls : Bool)
deriving DecidableEq, Repr

namespace ScriptedLogin

/-- A login that succeeds, with records before its acknowledgement. -/
def success (records : List Record) : ScriptedLogin :=
  .respond (records ++ [.loginAck .v7_4, .done]) false

/-- A redirect. -/
def routeTo (server : String) (port : UInt16) : ScriptedLogin :=
  .respond [.routing ⟨0, port, server, none⟩, .done] false

/-- A login that fails with an error of the server. -/
def serverError (number : Int32) (severity : UInt8) (text : String) : ScriptedLogin :=
  .respond [.error number severity text, .doneError] false

end ScriptedLogin

/-- The logins that are laid out, for single hosts in lower case, for any host, and for the rest. -/
structure LoginScript where
  hosts : Table String (List ScriptedLogin) := []
  queue : List ScriptedLogin := []
  fallback : ScriptedLogin := .refuse
deriving DecidableEq, Repr

namespace LoginScript

/-- The key of a host. -/
def hostKey (host : String) : String := String.ofList (Text.lower host.toList)

/-- Lays out one more login for a host. -/
def onHost (s : LoginScript) (host : String) (login : ScriptedLogin) : LoginScript :=
  let key := hostKey host
  { s with hosts := Table.set s.hosts key ((Table.find? s.hosts key).getD [] ++ [login]) }

/-- The next login for a host, and the script without it. -/
def next (s : LoginScript) (host : String) : ScriptedLogin × LoginScript :=
  let key := hostKey host
  match Table.find? s.hosts key with
  | some (login :: rest) => (login, { s with hosts := Table.set s.hosts key rest })
  | _ =>
    match s.queue with
    | login :: rest => (login, { s with queue := rest })
    | [] => (s.fallback, s)

end LoginScript

/-- The calls that get lost, by the numbers of their connections, and what the server says about
encryption instead of granting what it is asked for. -/
structure LineFaults where
  encryption : Option Bool := none
  handshake : List Nat := []
  login : List Nat := []
  token : List Nat := []
  disconnect : List Nat := []
deriving DecidableEq, Repr

namespace LineFaults

/-- The error of a call that gets lost. -/
def error : Error := .io "scripted fault"

/-- A call that is answered with `value`, unless it gets lost on connection `number`. -/
def call (lost : List Nat) (number : Nat) (value : α) : Call α :=
  if number ∈ lost then .lost error else .answer value

/-- The line of connection `number` on which a login is answered with records. -/
def line (f : LineFaults) (number : Nat) (records : List Record) (stalls : Bool) : Line where
  handshake r := call f.handshake number ⟨f.encryption.getD r.encrypt, r.fedAuth⟩
  login _ := call f.login number ()
  token _ := call f.token number ()
  disconnect := call f.disconnect number ()
  records := records.map Delayed.now
  ending := ⟨if stalls then none else some 0, .ok ()⟩

/-- The server that plays back a script. -/
def server (f : LineFaults) : Server LoginScript where
  connect script number target _ :=
    let (login, rest) := script.next target.host
    let answer := match login with
      | .refuse => Delayed.now (.error (.io ("connection to " ++ target.host ++ " refused by script")))
      | .hang => ⟨none, .error .connectionClosed⟩
      | .respond records stalls => Delayed.now (.ok (f.line number records stalls))
    (answer, rest)

end LineFaults

end TdsSession
