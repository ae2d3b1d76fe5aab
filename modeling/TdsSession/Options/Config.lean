import TdsSession.Address.DataSource
import TdsSession.Bearer.Acquire
import TdsSession.Time.Backoff
import TdsSession.Wire.Feature
import TdsSession.Wire.Version

/-!
# Options of a connection

Where and how to connect, and what to do when that fails.
-/

namespace TdsSession

/-- How often redirects are followed within one login, if at all. -/
structure RedirectPolicy where
  limit : Nat := 10
  follow : Bool := true
deriving DecidableEq, Repr

/-- Redirects are not followed. -/
def RedirectPolicy.noFollow : RedirectPolicy := ⟨0, false⟩

/-- The sleeps between the attempts of a login, and the attempts to recover a session with the sleeps
between them. -/
structure RetryPolicy where
  initialBackoff : Span := Span.ofMillis 100
  maxBackoff : Span := Span.ofSeconds 1
  recoveries : Nat := 1
  recoveryPause : Span := Span.ofSeconds 10
deriving DecidableEq, Repr

namespace RetryPolicy

/-- Sessions are not recovered. -/
def noRecovery : RetryPolicy := { recoveries := 0 }

/-- The schedule of sleeps at the start of a login. -/
def backoff (p : RetryPolicy) : Backoff := .start p.initialBackoff p.maxBackoff

end RetryPolicy

/-- The options of a connection. A timeout of zero is none. -/
structure Config where
  server : DataSource := .ofHost "localhost"
  partner : Option DataSource := none
  database : Option String := none
  credentials : Credentials := .password "" ""
  acquisition : AcquirePolicy := {}
  application : String := "mssql-connect"
  workstation : Option String := none
  language : Option String := none
  packetSize : Nat := 8000
  multiSubnet : Bool := false
  readOnly : Bool := false
  encrypt : Bool := true
  mars : Bool := false
  serverSpn : Option String := none
  aliases : Table String String := []
  features : FeatureSet := .standard
  version : TdsVersion := .v7_4
  redirect : RedirectPolicy := {}
  retry : RetryPolicy := {}
  timeout : Span := Span.ofSeconds 15
deriving DecidableEq, Repr

namespace Config

/-- The smallest packet size. -/
def minPacketSize : Nat := 512

/-- The largest packet size. -/
def maxPacketSize : Nat := 32768

/-- The time for one login; none is no limit. -/
def loginBudget (c : Config) : Option Span := if c.timeout = 0 then none else some c.timeout

/-- The features a login requests: authentication by token exactly if the credentials need it, and no
session recovery if sessions are not recovered. -/
def loginFeatures (c : Config) : FeatureSet :=
  let fedAuth := Feature.fedAuth.flag
  let features := if c.credentials.isFederated then c.features.union fedAuth else c.features.diff fedAuth
  if c.retry.recoveries = 0 then features.diff Feature.sessionRecovery.flag else features

/-- A login requests authentication by token exactly if the credentials need it. -/
theorem loginFeatures_fedAuth (c : Config) :
    c.loginFeatures.contains Feature.fedAuth.flag = c.credentials.isFederated := by
  have hcredentials : (if c.credentials.isFederated then c.features.union Feature.fedAuth.flag
      else c.features.diff Feature.fedAuth.flag).contains Feature.fedAuth.flag = c.credentials.isFederated := by
    cases c.credentials.isFederated with
    | true => exact FeatureSet.contains_union_self ..
    | false => exact FeatureSet.contains_diff_self _ (by decide)
  unfold loginFeatures
  dsimp only
  split
  · rw [FeatureSet.contains_diff_of_disjoint _ (by decide), hcredentials]
  · exact hcredentials

/-- A login requests session recovery exactly if the options do and sessions are recovered. -/
theorem loginFeatures_sessionRecovery (c : Config) :
    c.loginFeatures.contains Feature.sessionRecovery.flag =
      (c.retry.recoveries != 0 && c.features.contains Feature.sessionRecovery.flag) := by
  unfold loginFeatures
  by_cases hnone : c.retry.recoveries = 0
  · rw [if_pos hnone, FeatureSet.contains_diff_self _ (by decide), hnone]
    rfl
  · rw [if_neg hnone, bne_iff_ne.mpr hnone, Bool.true_and]
    split
    · exact FeatureSet.contains_union_of_disjoint _ (by decide)
    · exact FeatureSet.contains_diff_of_disjoint _ (by decide)

/-- Sets the packet size, to the nearest there is. -/
def withPacketSize (c : Config) (size : Nat) : Config :=
  { c with packetSize := max minPacketSize (min size maxPacketSize) }

/-- Makes `name` another name of `target`, whatever its case. -/
def withAlias (c : Config) (name target : String) : Config :=
  { c with aliases := Table.set c.aliases (String.ofList (Text.lower name.toList)) target }

end Config

end TdsSession
