import Switchboard.Bus.Basic
import Switchboard.Bus.Subscriber
import Switchboard.Decimal.Binary64
import Switchboard.Decimal.Shortest
import Switchboard.Event
import Switchboard.Hub.Admission
import Switchboard.Hub.Basic
import Switchboard.Hub.Confirmation
import Switchboard.Hub.Ending
import Switchboard.Hub.Error
import Switchboard.Hub.Ingest
import Switchboard.Hub.Sweep
import Switchboard.Identifier
import Switchboard.Json.Basic
import Switchboard.Json.Decode
import Switchboard.Json.Merge
import Switchboard.Json.Reader
import Switchboard.Json.Text
import Switchboard.Lifecycle
import Switchboard.Pool
import Switchboard.Proofs.Hub.Commit
import Switchboard.Proofs.Store.Change
import Switchboard.Proofs.Store.Effect
import Switchboard.Proofs.Store.Statement
import Switchboard.Proofs.Store.Success
import Switchboard.Schema.Catalog
import Switchboard.Schema.Migration
import Switchboard.Schema.TableName
import Switchboard.Sequence
import Switchboard.Settings.Basic
import Switchboard.Settings.Load
import Switchboard.Shutdown
import Switchboard.Store.Database
import Switchboard.Store.Error
import Switchboard.Store.Execution
import Switchboard.Store.Project
import Switchboard.Store.Record
import Switchboard.Store.Row
import Switchboard.Store.Session
import Switchboard.Store.Transaction
import Switchboard.Text.Blank
import Switchboard.Text.Case
import Switchboard.Text.Digits
import Switchboard.Text.Escaped
import Switchboard.Text.Path
import Switchboard.Text.Quoted
import Switchboard.Text.Utf8
import Switchboard.Time.Calendar
import Switchboard.Time.Timestamp
import Switchboard.Worker.Assignment
import Switchboard.Worker.Endpoint
import Switchboard.World
import Switchboard.Proofs.Bus.Run
import Switchboard.Proofs.Hub.Run
import Switchboard.Proofs.Store.Progress
import Switchboard.Proofs.Hub.Composed
import Switchboard.Proofs.Hub.Mutex
import Switchboard.Proofs.Hub.Lifecycle
import Switchboard.Proofs.Hub.Calm
import Switchboard.Proofs.Hub.Quota
import Switchboard.Proofs.Bus.Stream
import Switchboard.Proofs.Bus.Cursor
import Switchboard.Proofs.Bus.Ring
import Switchboard.Proofs.Bus.Reconnect
import Switchboard.Proofs.Bus.Relabel
import Switchboard.Proofs.Hub.Arrival
import Switchboard.Proofs.Hub.Atomic
import Switchboard.Proofs.Hub.Repeat
import Switchboard.Proofs.Hub.Retry
import Switchboard.Proofs.Hub.FollowUp
import Switchboard.Proofs.Hub.Waiting
import Switchboard.Proofs.Hub.Batching
import Switchboard.Proofs.Hub.Verdict
import Switchboard.Proofs.Hub.Tenancy
import Switchboard.Proofs.Bus.Separation
import Switchboard.Proofs.Hub.Dispatch
import Switchboard.Proofs.Store.Leeway
import Switchboard.Proofs.Store.InStep
import Switchboard.Proofs.Hub.Call
import Switchboard.Proofs.Hub.InStep
import Switchboard.Proofs.Hub.Agreement
import Switchboard.Proofs.Hub.Acknowledgement
import Switchboard.Proofs.Bus.Origin
import Switchboard.Proofs.Bus.Ending
import Switchboard.Proofs.Hub.Broadcast
import Switchboard.Proofs.Hub.Backing
import Switchboard.Proofs.Hub.History
import Switchboard.Proofs.Bus.Locality
import Switchboard.Proofs.Hub.Lapse
import Switchboard.Proofs.Hub.Recovery
import Switchboard.Proofs.Hub.Timeout
import Switchboard.Proofs.Hub.Sweep
import Switchboard.Proofs.Text.Columns
import Switchboard.Proofs.Time.Date
import Switchboard.Proofs.Time.Order
import Switchboard.Proofs.Hub.Silence
import Switchboard.Proofs.Hub.Admission
import Switchboard.Proofs.Hub.Release
import Switchboard.Proofs.Hub.Finality
import Switchboard.Proofs.Hub.Outcome
import Switchboard.Proofs.Hub.Precedence
import Switchboard.Proofs.Bus.Backlog
import Switchboard.Proofs.Hub.Paging
import Switchboard.Proofs.Pool.Run
import Switchboard.Proofs.Pool.Course
import Switchboard.Proofs.Pool.Drain
import Switchboard.Proofs.Pool.Shutdown
import Switchboard.Proofs.Text.Bytes
import Switchboard.Proofs.Time.Reading
import Switchboard.Proofs.Time.Canonical
import Switchboard.Proofs.Json.Ordered
import Switchboard.Proofs.Json.Layer
import Switchboard.Proofs.Json.Record
import Switchboard.Proofs.Json.Outward
import Switchboard.Proofs.Json.Bare
import Switchboard.Proofs.Settings.Field
import Switchboard.Proofs.Settings.File
import Switchboard.Proofs.Settings.Variable
import Switchboard.Proofs.Settings.Load
import Switchboard.Proofs.Settings.Unset
import Switchboard.Proofs.Json.Numeral
import Switchboard.Proofs.Json.Escaped
import Switchboard.Proofs.Json.Written
import Switchboard.Proofs.Text.Utf8
import Switchboard.Proofs.Settings.Saved
import Switchboard.Proofs.Json.Place
import Switchboard.Proofs.Settings.Supplied
import Switchboard.Proofs.Settings.Limit
import Switchboard.Proofs.Bus.Wire
import Switchboard.Proofs.Bus.Number
import Switchboard.Proofs.Hub.Worktree
import Switchboard.Proofs.Json.Idempotent
import Switchboard.Proofs.Time.Projection
import Switchboard.Proofs.Text.Preview
import Switchboard.Proofs.Worker.Refusal
