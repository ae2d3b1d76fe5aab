import TdsSession.Text.Blank
import TdsSession.Text.Ascii

/-!
# Authentication methods

How a client proves who it is. All methods but the plain one with a user and
a password are federated: the server is shown a token.
-/

namespace TdsSession

/-- The authentication methods. -/
inductive AuthMethod
  | sqlPassword
  | directoryPassword
  | directoryIntegrated
  | directoryInteractive
  | directoryServicePrincipal
  | directoryDeviceCodeFlow
  | directoryManagedIdentity
  | directoryDefault
  | directoryWorkloadIdentity
  | accessToken
deriving DecidableEq, Repr

namespace AuthMethod

/-- The server is shown a token. -/
def isFederated (m : AuthMethod) : Bool := m != sqlPassword

/-- The server is expected to say where the token comes from. -/
def expectsInfo (m : AuthMethod) : Bool := m.isFederated && m != accessToken

/-- The spelling in connection strings. -/
def toText : AuthMethod → String
  | .sqlPassword => "Sql Password"
  | .directoryPassword => "Active Directory Password"
  | .directoryIntegrated => "Active Directory Integrated"
  | .directoryInteractive => "Active Directory Interactive"
  | .directoryServicePrincipal => "Active Directory Service Principal"
  | .directoryDeviceCodeFlow => "Active Directory Device Code Flow"
  | .directoryManagedIdentity => "Active Directory Managed Identity"
  | .directoryDefault => "Active Directory Default"
  | .directoryWorkloadIdentity => "Active Directory Workload Identity"
  | .accessToken => "Access Token"

/-- The name in descriptions of credentials: the spelling without its blanks. -/
def identifier : AuthMethod → String
  | .sqlPassword => "SqlPassword"
  | .directoryPassword => "ActiveDirectoryPassword"
  | .directoryIntegrated => "ActiveDirectoryIntegrated"
  | .directoryInteractive => "ActiveDirectoryInteractive"
  | .directoryServicePrincipal => "ActiveDirectoryServicePrincipal"
  | .directoryDeviceCodeFlow => "ActiveDirectoryDeviceCodeFlow"
  | .directoryManagedIdentity => "ActiveDirectoryManagedIdentity"
  | .directoryDefault => "ActiveDirectoryDefault"
  | .directoryWorkloadIdentity => "ActiveDirectoryWorkloadIdentity"
  | .accessToken => "AccessToken"

/-- The method a text names, whatever its case and its blanks. -/
def parse (text : List Char) : Option AuthMethod :=
  match String.ofList (Text.lower (Text.squeeze text)) with
  | "sqlpassword" => some .sqlPassword
  | "activedirectorypassword" => some .directoryPassword
  | "activedirectoryintegrated" => some .directoryIntegrated
  | "activedirectoryinteractive" => some .directoryInteractive
  | "activedirectoryserviceprincipal" => some .directoryServicePrincipal
  | "activedirectorydevicecodeflow" => some .directoryDeviceCodeFlow
  | "activedirectorymanagedidentity" | "activedirectorymsi" => some .directoryManagedIdentity
  | "activedirectorydefault" => some .directoryDefault
  | "activedirectoryworkloadidentity" => some .directoryWorkloadIdentity
  | "accesstoken" => some .accessToken
  | _ => none

end AuthMethod

end TdsSession
