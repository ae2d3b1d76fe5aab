import TdsSession.Options.ConnectionString

/-!
# Options set one by one

Options that have been read from a connection string, or are the ones that a
client begins with, can be changed by calls, each of which sets one of them.
What is set is taken as it is, except that a packet size is brought to the
nearest there is, and that an alias is kept in small letters.
-/

namespace TdsSession

/-- A call that changes options. Some set a part of what another sets as a whole. -/
inductive ConfigCall
  | host (name : String)
  | port (number : UInt16)
  | inst (name : String)
  | server (source : DataSource)
  | partner (source : DataSource)
  | database (name : String)
  | credentials (c : Credentials)
  | application (name : String)
  | language (name : String)
  | packetSize (size : UInt32)
  | multiSubnet (on : Bool)
  | readOnly (on : Bool)
  | mars (on : Bool)
  | alias (name target : String)
  | features (f : FeatureSet)
  | redirect (policy : RedirectPolicy)
  | redirectLimit (limit : UInt8)
  | retry (policy : RetryPolicy)
  | timeout (span : Span)
deriving DecidableEq, Repr

namespace Config

/-- The options after a call. -/
def call (c : Config) : ConfigCall → Config
  | .host name => { c with server := { c.server with host := name } }
  | .port number => { c with server := { c.server with port := some number } }
  | .inst name => { c with server := { c.server with inst := some name } }
  | .server source => { c with server := source }
  | .partner source => { c with partner := some source }
  | .database name => { c with database := some name }
  | .credentials credentials => { c with credentials }
  | .application name => { c with application := name }
  | .language name => { c with language := some name }
  | .packetSize size => c.withPacketSize size.toNat
  | .multiSubnet on => { c with multiSubnet := on }
  | .readOnly on => { c with readOnly := on }
  | .mars on => { c with mars := on }
  | .alias name target => c.withAlias name target
  | .features features => { c with features }
  | .redirect policy => { c with redirect := policy }
  | .redirectLimit limit => { c with redirect := { c.redirect with limit := limit.toNat } }
  | .retry policy => { c with retry := policy }
  | .timeout span => { c with timeout := span }

/-- The options after any number of calls. -/
def calls (c : Config) (all : List ConfigCall) : Config := all.foldl call c

end Config

end TdsSession
