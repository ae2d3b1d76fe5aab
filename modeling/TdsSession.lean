import TdsSession.Access.Lock
import TdsSession.Access.Queue
import TdsSession.Access.System
import TdsSession.Address.DataSource
import TdsSession.Address.Target
import TdsSession.Bearer.Acquire
import TdsSession.Bearer.Cache
import TdsSession.Bearer.CacheUse
import TdsSession.Bearer.Credentials
import TdsSession.Bearer.Error
import TdsSession.Bearer.Method
import TdsSession.Bearer.Token
import TdsSession.Bytes
import TdsSession.Connection.Connection
import TdsSession.Connection.Session
import TdsSession.Error
import TdsSession.Login.Attempt
import TdsSession.Login.Login
import TdsSession.Login.Response
import TdsSession.Login.Retry
import TdsSession.Login.Run
import TdsSession.Login.Transport
import TdsSession.Login.World
import TdsSession.Options.Builder
import TdsSession.Options.Config
import TdsSession.Options.ConnectionString
import TdsSession.Proofs.Access.History
import TdsSession.Proofs.Access.Permits
import TdsSession.Proofs.Access.Safety
import TdsSession.Proofs.Address.Alias
import TdsSession.Proofs.Address.DataSource
import TdsSession.Proofs.Address.SharedCache
import TdsSession.Proofs.Bearer.Cache
import TdsSession.Proofs.Bearer.Calls
import TdsSession.Proofs.Bearer.LookUp
import TdsSession.Proofs.Bearer.Nesting
import TdsSession.Proofs.Bearer.Overflow
import TdsSession.Proofs.Bearer.Refresh
import TdsSession.Proofs.Connection.Aliases
import TdsSession.Proofs.Connection.Announcement
import TdsSession.Proofs.Connection.Baseline
import TdsSession.Proofs.Connection.Doom
import TdsSession.Proofs.Connection.PacketSize
import TdsSession.Proofs.Connection.Preference
import TdsSession.Proofs.Connection.Recovery
import TdsSession.Proofs.Connection.Relogin
import TdsSession.Proofs.Connection.TransactionEvents
import TdsSession.Proofs.Login.Acknowledged
import TdsSession.Proofs.Login.Alternation
import TdsSession.Proofs.Login.Attempt
import TdsSession.Proofs.Login.Clock
import TdsSession.Proofs.Login.Closing
import TdsSession.Proofs.Login.Completion
import TdsSession.Proofs.Login.Continuation
import TdsSession.Proofs.Login.Course
import TdsSession.Proofs.Login.Direct
import TdsSession.Proofs.Login.Duration
import TdsSession.Proofs.Login.Encryption
import TdsSession.Proofs.Login.Established
import TdsSession.Proofs.Login.Exchange
import TdsSession.Proofs.Login.Fault
import TdsSession.Proofs.Login.FeatureList
import TdsSession.Proofs.Login.Frame
import TdsSession.Proofs.Login.Gathered
import TdsSession.Proofs.Login.Heard
import TdsSession.Proofs.Login.History
import TdsSession.Proofs.Login.InStep
import TdsSession.Proofs.Login.Isolation
import TdsSession.Proofs.Login.Opened
import TdsSession.Proofs.Login.Outcome
import TdsSession.Proofs.Login.Partner
import TdsSession.Proofs.Login.Parts
import TdsSession.Proofs.Login.Records
import TdsSession.Proofs.Login.Redirects
import TdsSession.Proofs.Login.Rejection
import TdsSession.Proofs.Login.Reported
import TdsSession.Proofs.Login.Response
import TdsSession.Proofs.Login.Round
import TdsSession.Proofs.Login.Schedule
import TdsSession.Proofs.Login.Settle
import TdsSession.Proofs.Login.Sleeps
import TdsSession.Proofs.Login.Stops
import TdsSession.Proofs.Login.Termination
import TdsSession.Proofs.Login.TimeBudget
import TdsSession.Proofs.Login.Timeout
import TdsSession.Proofs.Login.TokenRetry
import TdsSession.Proofs.Login.Turns
import TdsSession.Proofs.Login.Verdict
import TdsSession.Proofs.Login.Violation
import TdsSession.Proofs.Operation
import TdsSession.Proofs.Options.Order
import TdsSession.Proofs.Options.Secrets
import TdsSession.Proofs.Session.Counter
import TdsSession.Proofs.Session.Recovery
import TdsSession.Proofs.Session.TokenOrder
import TdsSession.Proofs.Text.Trim
import TdsSession.Proofs.Text.Utf16
import TdsSession.Proofs.Time.Backoff
import TdsSession.Proofs.Time.Budget
import TdsSession.Proofs.Time.Wait
import TdsSession.Proofs.Wire.Capabilities
import TdsSession.Proofs.Wire.Consistency
import TdsSession.Proofs.Wire.Cursor
import TdsSession.Proofs.Wire.CutString
import TdsSession.Proofs.Wire.Decoders
import TdsSession.Proofs.Wire.Extent
import TdsSession.Proofs.Wire.InPlace
import TdsSession.Proofs.Wire.ReadBack
import TdsSession.Proofs.Wire.Reader
import TdsSession.Proofs.Wire.RecordWalk
import TdsSession.Proofs.Wire.StateRecord
import TdsSession.Proofs.Wire.Varchar
import TdsSession.Script.Journal
import TdsSession.Script.Scenario
import TdsSession.Script.Server
import TdsSession.Session.Action
import TdsSession.Session.Recovery
import TdsSession.Session.State
import TdsSession.Table
import TdsSession.Text.Ascii
import TdsSession.Text.Blank
import TdsSession.Text.Hex
import TdsSession.Text.Numeral
import TdsSession.Text.Quoted
import TdsSession.Text.Shapeless
import TdsSession.Text.Split
import TdsSession.Text.Utf16
import TdsSession.Time.Backoff
import TdsSession.Time.Budget
import TdsSession.Time.Span
import TdsSession.Time.Wait
import TdsSession.Wire.Capabilities
import TdsSession.Wire.Collation
import TdsSession.Wire.Done
import TdsSession.Wire.EnvChange
import TdsSession.Wire.Error
import TdsSession.Wire.Feature
import TdsSession.Wire.FeatureAck
import TdsSession.Wire.FedAuthInfo
import TdsSession.Wire.LoginAck
import TdsSession.Wire.Message
import TdsSession.Wire.Reader
import TdsSession.Wire.Record
import TdsSession.Wire.RecordWalk
import TdsSession.Wire.StateRecord
import TdsSession.Wire.StateToken
import TdsSession.Wire.Varchar
import TdsSession.Wire.Version
