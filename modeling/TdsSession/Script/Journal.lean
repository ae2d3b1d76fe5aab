import TdsSession.Login.World

/-!
# Journals

What a server got to see of all logins, read off the trace of the world:
attempts to connect, and the calls that got through.
-/

namespace TdsSession

/-- What a server got to see, oldest first. -/
structure Journal where
  connects : List (Target × Option Span) := []
  handshakes : List HandshakeRequest := []
  logins : List LoginRequest := []
  tokens : List Bytes := []
  disconnects : Nat := 0
  /-- What providers were asked for, and when. -/
  asked : List (Moment × TokenRequest) := []

namespace Journal

/-- The journal with an earlier event in front. -/
def prepend (j : Journal) (time : Moment) : Event → Journal
  | .connected _ target timeout => { j with connects := (target, timeout) :: j.connects }
  | .handshake _ request true => { j with handshakes := request :: j.handshakes }
  | .login _ request true => { j with logins := request :: j.logins }
  | .token _ token true => { j with tokens := token :: j.tokens }
  | .disconnected _ true => { j with disconnects := j.disconnects + 1 }
  | .asked request => { j with asked := (time, request) :: j.asked }
  | _ => j

/-- The journal of a trace that has its newest event first. -/
def ofTrace (trace : List (Moment × Event)) : Journal :=
  trace.foldl (fun j e => j.prepend e.1 e.2) {}

end Journal

/-- A token as text, with a sign for what is none. -/
def Journal.tokenText (token : Bytes) : String :=
  String.ofList (Text.Utf16.decodeLossy (Text.Utf16.ofBytes token))

end TdsSession
