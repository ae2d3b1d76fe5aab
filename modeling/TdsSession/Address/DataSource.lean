import TdsSession.Error
import TdsSession.Text.Ascii
import TdsSession.Text.Blank
import TdsSession.Text.Numeral
import TdsSession.Text.Split

/-!
# Data sources

The name of a server as a user writes it: a host, with an optional transport
before it, an instance after a backslash and a port after a comma.
-/

namespace TdsSession

/-- The transport that a data source may ask for. -/
inductive TransportKind
  | tcp
  | namedPipe
  | sharedMemory
  | admin
deriving DecidableEq, Repr

namespace TransportKind

/-- The spelling before the colon. -/
def toText : TransportKind → String
  | .tcp => "tcp"
  | .namedPipe => "np"
  | .sharedMemory => "lpc"
  | .admin => "admin"

/-- The transport a text names, whatever its case. -/
def parse (text : List Char) : Option TransportKind :=
  match String.ofList (Text.lower text) with
  | "tcp" => some .tcp
  | "np" => some .namedPipe
  | "lpc" => some .sharedMemory
  | "admin" => some .admin
  | _ => none

end TransportKind

/-- The name of a server as a user writes it. -/
structure DataSource where
  transport : Option TransportKind
  host : String
  port : Option UInt16
  inst : Option String
deriving DecidableEq, Repr

namespace DataSource

/-- A host and nothing else. -/
def ofHost (host : String) : DataSource := ⟨none, host, none, none⟩

/-- The transport in front of a text, and the text after it. Without a known transport the whole text
is left. -/
def cutTransport (text : List Char) : Option TransportKind × List Char :=
  match Text.splitOnce ':' text with
  | none => (none, text)
  | some (front, rest) =>
    match TransportKind.parse (Text.trim front) with
    | some t => (some t, Text.trim rest)
    | none => (none, text)

/-- The port at the end of a text, and the text before it. -/
def cutPort (text : List Char) : Except Error (List Char × Option UInt16) :=
  match Text.splitLast ',' text with
  | none => .ok (text, none)
  | some (front, port) =>
    match Text.Numeral.parse 0xFFFF (Text.trim port) with
    | some n => .ok (Text.trim front, some (UInt16.ofNat n))
    | none => .error (.config ("invalid port: " ++ String.ofList port))

/-- The host in front of a text, and the instance after it. An empty instance is none. -/
def cutInstance (text : List Char) : List Char × Option (List Char) :=
  match Text.splitOnce '\\' text with
  | none => (text, none)
  | some (host, inst) =>
    (Text.trim host, if inst.isEmpty then none else some (Text.trim inst))

/-- Two names of the local machine are its usual one. -/
def normalHost (host : List Char) : List Char :=
  if host = ['.'] ∨ Text.sameLetters host "(local)".toList then "localhost".toList else host

/-- The data source a text names. -/
def parse (text : List Char) : Except Error DataSource := do
  let text := Text.trim text
  let (transport, rest) := cutTransport text
  let (rest, port) ← cutPort rest
  let (host, inst) := cutInstance rest
  if host.isEmpty then
    throw (.config ("missing host in data source: " ++ String.ofList text))
  return { transport, host := String.ofList (normalHost host), port, inst := inst.map String.ofList }

/-- A data source as it is written. -/
def toText (d : DataSource) : String :=
  (match d.transport with
    | some t => t.toText ++ ":"
    | none => "") ++
  d.host ++
  (match d.inst with
    | some i => "\\" ++ i
    | none => "") ++
  (match d.port with
    | some p => "," ++ toString p.toNat
    | none => "")

end DataSource

end TdsSession
