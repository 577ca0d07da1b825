import Workflow.Call
import Workflow.Command.Args
import Workflow.Command.Help
import Workflow.Command.Job
import Workflow.Command.Perform
import Workflow.Command.Report
import Workflow.Command.Spec
import Workflow.Condition
import Workflow.Context
import Workflow.Decimal.Binary
import Workflow.Decimal.Layout
import Workflow.Decimal.Read
import Workflow.Decimal.Shortest
import Workflow.Definition.Basic
import Workflow.Definition.Codec
import Workflow.Definition.Order
import Workflow.Definition.Row
import Workflow.Expr.Eval
import Workflow.Expr.Parser
import Workflow.Expr.Syntax
import Workflow.Expr.Token
import Workflow.Http.Client
import Workflow.Http.Host
import Workflow.Http.Message
import Workflow.Http.Url
import Workflow.Json.Basic
import Workflow.Json.Compare
import Workflow.Json.Decoder
import Workflow.Json.Document
import Workflow.Json.Fault
import Workflow.Json.Printer
import Workflow.Json.Reader
import Workflow.Keyed
import Workflow.Local
import Workflow.Main
import Workflow.Mapping
import Workflow.Path
import Workflow.Primitive.Adapter
import Workflow.Primitive.Basic
import Workflow.Primitive.Builtin
import Workflow.Primitive.Registry
import Workflow.Primitive.Schema
import Workflow.Primitive.Scripted
import Workflow.Process.Basic
import Workflow.Process.Poll
import Workflow.Proofs.Decimal.Comparison
import Workflow.Proofs.Definition.Order
import Workflow.Proofs.Definition.Persistence
import Workflow.Proofs.Definition.Roundtrip
import Workflow.Proofs.Definition.Sort
import Workflow.Proofs.Except
import Workflow.Proofs.Expr.Direct
import Workflow.Proofs.Expr.Failure
import Workflow.Proofs.Expr.Footprint
import Workflow.Proofs.Expr.Path
import Workflow.Proofs.Expr.Seam
import Workflow.Proofs.Json.Document
import Workflow.Proofs.Json.Gives
import Workflow.Proofs.Json.Reads
import Workflow.Proofs.Json.Tagged
import Workflow.Proofs.Keyed
import Workflow.Proofs.Mapping.Entry
import Workflow.Proofs.Primitive.Cache
import Workflow.Proofs.Primitive.Lookup
import Workflow.Proofs.Primitive.Overlap
import Workflow.Proofs.Primitive.Validation
import Workflow.Proofs.Process.Ensures
import Workflow.Proofs.Process.Progress
import Workflow.Proofs.Process.Schedule
import Workflow.Proofs.Process.Step
import Workflow.Proofs.Process.Yields
import Workflow.Proofs.Run.Account
import Workflow.Proofs.Run.Audit
import Workflow.Proofs.Run.Beside
import Workflow.Proofs.Run.Body
import Workflow.Proofs.Run.Branches
import Workflow.Proofs.Run.Cancellation
import Workflow.Proofs.Run.Closing
import Workflow.Proofs.Run.Conduct
import Workflow.Proofs.Run.Course
import Workflow.Proofs.Run.Depth
import Workflow.Proofs.Run.Dispatch
import Workflow.Proofs.Run.Entrance
import Workflow.Proofs.Run.Frame
import Workflow.Proofs.Run.Ground
import Workflow.Proofs.Run.Growth
import Workflow.Proofs.Run.Guards
import Workflow.Proofs.Run.History
import Workflow.Proofs.Run.Input
import Workflow.Proofs.Run.Invocation
import Workflow.Proofs.Run.Items
import Workflow.Proofs.Run.Live
import Workflow.Proofs.Run.Note
import Workflow.Proofs.Run.Owner
import Workflow.Proofs.Run.Persisted
import Workflow.Proofs.Run.Scene
import Workflow.Proofs.Run.Terminal
import Workflow.Proofs.Run.Trail
import Workflow.Proofs.Run.Walk
import Workflow.Proofs.Schedule.Due
import Workflow.Proofs.Schedule.Field
import Workflow.Proofs.Store.Carrying
import Workflow.Proofs.Store.Memory
import Workflow.Proofs.Store.Orders
import Workflow.Proofs.Store.Query
import Workflow.Proofs.Store.Reading
import Workflow.Proofs.Store.Refinement
import Workflow.Proofs.Store.Rows
import Workflow.Proofs.Template
import Workflow.Proofs.Text.Parts
import Workflow.Proofs.Text.Slug
import Workflow.Proofs.Time.Calendar
import Workflow.Proofs.Web.Body
import Workflow.Run.Config
import Workflow.Run.Entry
import Workflow.Run.Error
import Workflow.Run.Lifecycle
import Workflow.Run.Result
import Workflow.Run.Visit
import Workflow.Schedule.Cron
import Workflow.Schedule.Due
import Workflow.Session
import Workflow.Store.Address
import Workflow.Store.Call
import Workflow.Store.Database
import Workflow.Store.Error
import Workflow.Store.Faults
import Workflow.Store.Memory
import Workflow.Store.Migration
import Workflow.Store.Row
import Workflow.Store.Statement
import Workflow.Template
import Workflow.Text.Base64
import Workflow.Text.Case
import Workflow.Text.Class
import Workflow.Text.Percent
import Workflow.Text.Punycode
import Workflow.Text.Quoted
import Workflow.Text.Similar
import Workflow.Text.Slug
import Workflow.Text.Utf8
import Workflow.Time.Calendar
import Workflow.Time.Instant
import Workflow.Time.Span
import Workflow.Uuid
import Workflow.Web.MediaType
import Workflow.Web.Message
import Workflow.Web.Route
import Workflow.Web.Service
import Workflow.World
