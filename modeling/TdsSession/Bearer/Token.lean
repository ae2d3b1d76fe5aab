import TdsSession.Bearer.Credentials
import TdsSession.Text.Utf16
import TdsSession.Time.Span

/-!
# Bearer tokens

A token, and the request for one. Tokens live on the clock on the wall, which
has nothing to do with the clock that times a login.
-/

namespace TdsSession

/-- A token and the time at which it expires. -/
structure BearerToken where
  text : String
  expiresAt : WallTime
deriving DecidableEq, Repr

namespace BearerToken

/-- How long the token has left; nothing once it has expired. -/
def validity (t : BearerToken) (now : WallTime) : Span := (t.expiresAt - now).toNat

/-- The token as it is sent, in UTF-16. -/
def toBytes (t : BearerToken) : Bytes := Text.Utf16.bytesOf t.text

end BearerToken

/-- What a provider needs to issue a token. -/
structure TokenRequest where
  authority : String
  resource : String
  user : Option String := none
  secret : Option String := none
deriving DecidableEq, Repr

namespace TokenRequest

/-- The request with the user and the secret of federated credentials. -/
def withCredentials (r : TokenRequest) : Credentials → TokenRequest
  | .federated _ user secret => { r with user, secret }
  | _ => r

/-- The scope to ask for: everything the resource grants by default. -/
def scope (r : TokenRequest) : String :=
  if r.resource.toList.getLast? = some '/' then r.resource ++ ".default"
  else r.resource ++ "/.default"

/-- The description of a request, without its secret. -/
def toText (r : TokenRequest) : String :=
  describe "TokenRequest" [("authority", Text.quote r.authority), ("resource", Text.quote r.resource),
    ("user_id", describeOption r.user), ("secret", describeOption (r.secret.map fun _ => redacted))]

end TokenRequest

end TdsSession
