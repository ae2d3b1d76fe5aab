import TdsSession.Bearer.Method
import TdsSession.Text.Quoted

/-!
# Credentials

What a client proves its identity with. A description of credentials, or of
anything else that carries a secret, shows that there is a secret and nothing
of it.
-/

namespace TdsSession

/-- What a client proves its identity with. -/
inductive Credentials
  /-- A user and a password. -/
  | password (user password : String)
  /-- A token that the client already has. -/
  | token (token : String)
  /-- A token that a provider will issue, to the user and with the secret if there are any. -/
  | federated (method : AuthMethod) (user secret : Option String)
deriving DecidableEq, Repr

/-- Descriptions of records, one field after another. -/
def describe (name : String) (fields : List (String × String)) : String :=
  name ++ " \x7b " ++ ", ".intercalate (fields.map fun f => f.1 ++ ": " ++ f.2) ++ " \x7d"

/-- The description of a field that may be missing. -/
def describeOption : Option String → String
  | some text => "Some(" ++ Text.quote text ++ ")"
  | none => "None"

/-- What stands in the place of a secret. -/
def redacted : String := "[REDACTED]"

namespace Credentials

/-- The method these credentials are for. -/
def method : Credentials → AuthMethod
  | .password .. => .sqlPassword
  | .token _ => .accessToken
  | .federated method .. => method

/-- A user and a password. -/
def isPassword : Credentials → Bool
  | .password .. => true
  | _ => false

/-- The server is shown a token. -/
def isFederated (c : Credentials) : Bool := c.method.isFederated

/-- The user, if there is one. -/
def user? : Credentials → Option String
  | .password user _ => some user
  | .token _ => none
  | .federated _ user _ => user

/-- The description of credentials, without their secrets. -/
def toText : Credentials → String
  | .password user _ =>
    describe "SqlServer" [("username", Text.quote user), ("password", Text.quote redacted)]
  | .token _ => describe "AccessToken" [("token", Text.quote redacted)]
  | .federated method user secret =>
    describe "Federated" [("method", method.identifier), ("user_id", describeOption user),
      ("secret", describeOption (secret.map fun _ => redacted))]

end Credentials

end TdsSession
