import TensorArena.Arena.Basic
import TensorArena.Arena.Ledger
import TensorArena.Arena.Memory
import TensorArena.Arena.Size
import TensorArena.Arena.Split
import TensorArena.Arena.Store
import TensorArena.Bytes
import TensorArena.Command.Arguments
import TensorArena.Command.Execute
import TensorArena.Command.Files
import TensorArena.Command.Inspect
import TensorArena.Command.Plan
import TensorArena.Command.Report
import TensorArena.Command.Run
import TensorArena.Config
import TensorArena.Graph.Basic
import TensorArena.Graph.Check
import TensorArena.Graph.Error
import TensorArena.Graph.Manifest
import TensorArena.Graph.Operator
import TensorArena.Graph.Sample
import TensorArena.Graph.Tensor
import TensorArena.Interpreter.Access
import TensorArena.Interpreter.Basic
import TensorArena.Interpreter.Binding
import TensorArena.Interpreter.Commit
import TensorArena.Interpreter.Error
import TensorArena.Interpreter.Invoke
import TensorArena.Interpreter.Kernel
import TensorArena.Interpreter.Operands
import TensorArena.Interpreter.Record
import TensorArena.Interpreter.Site
import TensorArena.Json.Basic
import TensorArena.Json.Numeral
import TensorArena.Json.Reader
import TensorArena.Json.Record
import TensorArena.Json.Writer
import TensorArena.Kernel.Access
import TensorArena.Kernel.Elementwise
import TensorArena.Kernel.Registry
import TensorArena.Kernel.Sample
import TensorArena.Log
import TensorArena.Main
import TensorArena.Number.Binary
import TensorArena.Number.Reader
import TensorArena.Number.Shortest
import TensorArena.Number.Text
import TensorArena.Plan.Basic
import TensorArena.Plan.Lifetime
import TensorArena.Plan.Liveness
import TensorArena.Plan.Strategy
import TensorArena.Profile.Basic
import TensorArena.Profile.Metrics
import TensorArena.Profile.Timing
import TensorArena.Tensor.DType
import TensorArena.Tensor.Packed
import TensorArena.Tensor.Shape
import TensorArena.Tensor.View
import TensorArena.Text.Basic
import TensorArena.Text.Quoted
import TensorArena.Toml.Basic
import TensorArena.Toml.Quoted
import TensorArena.Toml.Reader
import TensorArena.Toml.Scalar
import TensorArena.Toml.Writer
import TensorArena.Word
import TensorArena.Proofs.Arena.Positions
import TensorArena.Proofs.Arena.History
import TensorArena.Proofs.Interpreter.Tables
import TensorArena.Proofs.Plan.Contract
import TensorArena.Proofs.Plan.FirstFit
import TensorArena.Proofs.Plan.Linear
import TensorArena.Proofs.Interpreter.Runs
import TensorArena.Proofs.Interpreter.Since
import TensorArena.Proofs.Graph.Checked
import TensorArena.Proofs.Graph.Lifetimes
import TensorArena.Proofs.Interpreter.Prepare
import TensorArena.Proofs.Interpreter.Placing
import TensorArena.Proofs.Interpreter.Allotment
import TensorArena.Proofs.Memory.Ordered
import TensorArena.Proofs.Interpreter.Regions
import TensorArena.Proofs.Interpreter.Binding
import TensorArena.Proofs.Interpreter.Bound
import TensorArena.Proofs.Interpreter.Running
import TensorArena.Proofs.Memory.Join
import TensorArena.Proofs.Interpreter.Reach
import TensorArena.Proofs.Interpreter.Calls
import TensorArena.Proofs.Tenancy.Basic
import TensorArena.Proofs.Tenancy.Invariant
import TensorArena.Proofs.Tenancy.Apart
import TensorArena.Proofs.Tenancy.Ready
import TensorArena.Proofs.Reference.Meaning
import TensorArena.Proofs.Reference.Operands
import TensorArena.Proofs.Reference.Tracks
import TensorArena.Proofs.Reference.Running
import TensorArena.Proofs.Reference.Rounds
import TensorArena.Proofs.Reference.Steps
import TensorArena.Proofs.Reference.Counting
import TensorArena.Proofs.Reference.Outputs
import TensorArena.Proofs.Reference.Stateless
import TensorArena.Proofs.Reference.Kept
import TensorArena.Proofs.Command.Iterations
import TensorArena.Proofs.Plan.Reserved
import TensorArena.Proofs.Graph.Accepted
import TensorArena.Proofs.Footprint.Demand
import TensorArena.Proofs.Footprint.Requests
import TensorArena.Proofs.Footprint.Commit
import TensorArena.Proofs.Footprint.Alone
import TensorArena.Proofs.Footprint.Shared
import TensorArena.Proofs.Arena.Replay
import TensorArena.Proofs.Tensor.Counts
import TensorArena.Proofs.Tensor.Words
import TensorArena.Proofs.Tensor.Packed
import TensorArena.Proofs.Number.Whole
import TensorArena.Proofs.Graph.Constants
import TensorArena.Proofs.Arena.Recording
import TensorArena.Proofs.Interpreter.Errors
import TensorArena.Proofs.Interpreter.States
import TensorArena.Proofs.Tenancy.Lifecycle
import TensorArena.Proofs.Trace.Kernel
import TensorArena.Proofs.Trace.Pass
import TensorArena.Proofs.Trace.Course
import TensorArena.Proofs.Trace.Life
import TensorArena.Proofs.Arena.Balance
import TensorArena.Proofs.Interpreter.Terminal
import TensorArena.Proofs.Profile.Mirrors
import TensorArena.Proofs.Profile.Unprofiled
import TensorArena.Proofs.Profile.Hooks
import TensorArena.Proofs.Reference.Stateful
import TensorArena.Proofs.Reference.Reached
import TensorArena.Proofs.Reference.Counted
import TensorArena.Proofs.Tenancy.Following
import TensorArena.Proofs.Tenancy.Counting
import TensorArena.Proofs.Plan.Order
import TensorArena.Proofs.Plan.Lowest
import TensorArena.Proofs.Plan.Bounds
import TensorArena.Proofs.Interpreter.Failure
import TensorArena.Proofs.Interpreter.Confined
import TensorArena.Proofs.Tenancy.Failing
import TensorArena.Proofs.Plan.Pointwise
import TensorArena.Proofs.Graph.Spans
import TensorArena.Proofs.Memory.Pieces
import TensorArena.Proofs.Plan.Unbounded
import TensorArena.Proofs.Interpreter.Typed
import TensorArena.Proofs.Tenancy.Typed
import TensorArena.Proofs.Text.Decimal
import TensorArena.Proofs.Arena.SizeText
import TensorArena.Proofs.Profile.Recorded
import TensorArena.Proofs.Profile.Mean
import TensorArena.Proofs.Number.Rounded
import TensorArena.Proofs.Kernel.Elementwise
import TensorArena.Proofs.Interpreter.Written
import TensorArena.Proofs.Tenancy.Elementwise
import TensorArena.Proofs.Interpreter.RecordTables
import TensorArena.Proofs.Json.Written
import TensorArena.Proofs.Json.Settled
import TensorArena.Proofs.Graph.Definitions
import TensorArena.Proofs.Interpreter.Holdings
import TensorArena.Proofs.Tenancy.Lossless
import TensorArena.Proofs.Tenancy.Unready
