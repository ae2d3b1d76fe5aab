import TdsSession.Options.Config
import TdsSession.Wire.EnvChange

/-!
# Targets

What one attempt to log in connects to: a data source with its alias looked
up, or the target of a redirect.
-/

namespace TdsSession

/-- What one attempt connects to. -/
structure Target where
  /-- The name as the user gave it. -/
  suppliedName : String
  /-- The host that is connected to. -/
  host : String
  transport : Option TransportKind
  port : Option UInt16
  inst : Option String
  spn : Option String
  database : Option String
  /-- The host that redirected to this one. -/
  routedFrom : Option String
deriving DecidableEq, Repr

/-- Aliases that have been looked up, by host in lower case. -/
abbrev AliasCache := Table String DataSource

/-- The aliases in the order of their names. -/
def AliasCache.sorted (c : AliasCache) : List (String × DataSource) :=
  c.mergeSort fun a b => a.1 ≤ b.1

namespace Target

/-- The key of a host among the aliases. -/
def aliasKey (source : DataSource) : String := String.ofList (Text.lower source.host.toList)

/-- The data source an alias stands for, from the cache or else from the options, and the cache with
it. -/
def findAlias (c : Config) (cache : AliasCache) (source : DataSource) :
    Except Error (Option DataSource × AliasCache) :=
  let key := aliasKey source
  match Table.find? cache key with
  | some target => .ok (some target, cache)
  | none =>
    match Table.find? c.aliases key with
    | none => .ok (none, cache)
    | some entry => do
      let target ← DataSource.parse entry.toList
      return (some target, Table.set cache key target)

/-- A data source with the target of its alias; what the target does not say stays as it was. -/
def followAlias (source : DataSource) : Option DataSource → DataSource
  | some target =>
    { transport := target.transport.or source.transport
      host := target.host
      port := target.port.or source.port
      inst := target.inst.or source.inst }
  | none => source

/-- The name of the service at a target, unless the options name it. -/
def defaultSpn (target : DataSource) : String :=
  "MSSQLSvc/" ++ target.host ++
    match target.inst, target.port with
    | _, some port => ":" ++ toString port.toNat
    | some inst, none => ":" ++ inst
    | none, none => ""

/-- The target that a data source stands for after its alias has been followed. -/
def ofTarget (c : Config) (source target : DataSource) : Target where
  suppliedName := source.toText
  host := target.host
  transport := target.transport
  port := target.port
  inst := target.inst
  spn := some (c.serverSpn.getD (defaultSpn target))
  database := c.database
  routedFrom := none

/-- The target that a data source stands for, with its alias looked up if `lookup`. -/
def resolve (c : Config) (lookup : Bool) (cache : AliasCache) (source : DataSource) :
    Except Error (Target × AliasCache) :=
  if lookup then do
    let (target, cache) ← findAlias c cache source
    return (ofTarget c source (followAlias source target), cache)
  else .ok (ofTarget c source source, cache)

/-- The target of a redirect by `host`, whose service is named `spn`. -/
def ofRouting (c : Config) (target : Routing) (host : String) (spn : Option String) : Target where
  suppliedName := target.server ++ "," ++ toString target.port.toNat
  host := target.server
  transport := some .tcp
  port := some target.port
  inst := none
  spn := spn
  database := target.database.or c.database
  routedFrom := some host

/-- The host with its transport. -/
def extendedName (t : Target) : String :=
  match t.transport with
  | some transport => transport.toText ++ ":" ++ t.host
  | none => t.host

/-- The host with its transport and its port. -/
def toText (t : Target) : String :=
  t.extendedName ++
    match t.port with
    | some p => "," ++ toString p.toNat
    | none => ""

/-- The target comes from a redirect. -/
def isRouted (t : Target) : Bool := t.routedFrom.isSome

end Target

end TdsSession
