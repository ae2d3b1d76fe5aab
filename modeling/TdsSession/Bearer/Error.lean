import TdsSession.Time.Span

/-!
# Errors of authentication

Why a provider did not issue a token, and why authentication failed.
-/

namespace TdsSession

/-- Why a provider did not issue a token. -/
inductive ProviderError
  /-- Too many requests; the provider may say how long to wait. -/
  | rateLimited (retryAfter : Option Span)
  /-- A failure that may pass. -/
  | transient (reason : String)
  /-- A failure that will not. -/
  | fatal (reason : String)
deriving DecidableEq, Repr

def ProviderError.message : ProviderError → String
  | .rateLimited _ => "rate limited by identity provider"
  | .transient reason => "transient provider failure: " ++ reason
  | .fatal reason => reason

/-- Why authentication failed. -/
inductive AuthError
  | invalidCredentials (reason : String)
  | tokenExpired
  | acquisition (authority resource : String) (cause : ProviderError)
  | throttled (authority : String) (attempts : Nat) (retryAfter : Option Span)
  | acquisitionTimeout (authority : String)
  | unsupportedMethod (name : String)
  | configuration (reason : String)
  | azureIdentity (reason : String)
deriving DecidableEq, Repr

namespace AuthError

def message : AuthError → String
  | .invalidCredentials reason => "invalid credentials: " ++ reason
  | .tokenExpired => "token expired or invalid"
  | .acquisition authority resource cause =>
    "failed to acquire token from " ++ authority ++ " for " ++ resource ++ ": " ++ cause.message
  | .throttled authority attempts _ =>
    "token acquisition from " ++ authority ++ s!" throttled after {attempts} attempt(s)"
  | .acquisitionTimeout authority =>
    "token acquisition from " ++ authority ++ " exceeded the time budget"
  | .unsupportedMethod name => "unsupported authentication method: " ++ name
  | .configuration reason => "configuration error: " ++ reason
  | .azureIdentity reason => "Azure identity error: " ++ reason

/-- The provider had too many requests. -/
def isThrottled : AuthError → Bool
  | .throttled .. => true
  | _ => false

/-- Time ran out. -/
def isTimeout : AuthError → Bool
  | .acquisitionTimeout _ => true
  | _ => false

end AuthError

end TdsSession
