import TdsSession.Text.Blank
import TdsSession.Text.Ascii
import TdsSession.Text.Numeral

/-!
# Protocol versions

A protocol version is a 32-bit code. A server accepts a login under one of
four of them, and each of those belongs to one generation of servers.
-/

namespace TdsSession

/-- A protocol version code, as LOGIN7 requests it and LOGINACK reports it. -/
structure TdsVersion where
  raw : UInt32
deriving DecidableEq, Repr

/-- Generations of servers, oldest first. -/
inductive Generation
  | sql2005
  | sql2008
  | sql2012
  | sql2022
deriving DecidableEq, Repr

/-- The place of a generation in time. -/
def Generation.rank : Generation → Nat
  | .sql2005 => 1
  | .sql2008 => 2
  | .sql2012 => 3
  | .sql2022 => 4

namespace TdsVersion

def v7_2 : TdsVersion := ⟨0x72090002⟩
def v7_3A : TdsVersion := ⟨0x730A0003⟩
def v7_3B : TdsVersion := ⟨0x730B0003⟩
def v7_4 : TdsVersion := ⟨0x74000004⟩
def v8_0 : TdsVersion := ⟨0x08000000⟩

/-- The version that encrypts the whole exchange. -/
def isTds8 (v : TdsVersion) : Bool := v == v8_0

/-- The generation a version belongs to, for the four that a LOGINACK may carry. -/
def generation? (v : TdsVersion) : Option Generation :=
  if v = v7_2 then some .sql2005
  else if v = v7_3B then some .sql2008
  else if v = v7_4 then some .sql2012
  else if v = v8_0 then some .sql2022
  else none

/-- Whether a version can carry a session over to a new connection. -/
def canRecoverSession (v : TdsVersion) : Bool :=
  v.isTds8 || v7_4.raw ≤ v.raw

/-- The version a setting names. -/
def parse (text : List Char) : Option TdsVersion :=
  match String.ofList (Text.lower (Text.trim text)) with
  | "7.2" => some v7_2
  | "7.3" | "7.3b" => some v7_3B
  | "7.3a" => some v7_3A
  | "7.4" => some v7_4
  | "8.0" | "8" => some v8_0
  | _ => none

/-- The version as text: its name, or its code if it has none. -/
def toText (v : TdsVersion) : String :=
  if v = v8_0 then "TDS 8.0"
  else if v = v7_4 then "TDS 7.4"
  else if v = v7_3B then "TDS 7.3B"
  else if v = v7_3A then "TDS 7.3A"
  else if v = v7_2 then "TDS 7.2"
  else "TDS 0x" ++ Text.Numeral.hex 8 v.raw.toNat

end TdsVersion

end TdsSession
