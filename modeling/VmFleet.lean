import VmFleet.Bounds
import VmFleet.Cli.Arguments
import VmFleet.Cli.Command
import VmFleet.Cli.Diagnostic
import VmFleet.Cli.Listing
import VmFleet.Cli.Run
import VmFleet.Client.Requests
import VmFleet.Config.Check
import VmFleet.Config.Record
import VmFleet.Config.Source
import VmFleet.Error
import VmFleet.Files.Path
import VmFleet.Files.Tree
import VmFleet.Json.Reader
import VmFleet.Json.Record
import VmFleet.Json.Token
import VmFleet.Json.Value
import VmFleet.Json.Writer
import VmFleet.Lifecycle.Handler
import VmFleet.Lifecycle.Path
import VmFleet.Lifecycle.Program
import VmFleet.Lifecycle.Recovery
import VmFleet.Lifecycle.World
import VmFleet.Main
import VmFleet.Net.Address
import VmFleet.Net.PoolNetwork
import VmFleet.Net.Subnet
import VmFleet.Pool.Allocator
import VmFleet.Pool.Form
import VmFleet.Pool.Record
import VmFleet.Pool.Utilization
import VmFleet.Proofs.Accepting
import VmFleet.Proofs.Acts
import VmFleet.Proofs.AddressKept
import VmFleet.Proofs.AddressText
import VmFleet.Proofs.AllocatorCalls
import VmFleet.Proofs.Asking
import VmFleet.Proofs.Attempts
import VmFleet.Proofs.Attended
import VmFleet.Proofs.CallOrder
import VmFleet.Proofs.Capturing
import VmFleet.Proofs.Changes
import VmFleet.Proofs.Claiming
import VmFleet.Proofs.Clock
import VmFleet.Proofs.Coherence
import VmFleet.Proofs.CompareAndSet
import VmFleet.Proofs.Confined
import VmFleet.Proofs.Consistency
import VmFleet.Proofs.Course
import VmFleet.Proofs.Creating
import VmFleet.Proofs.Crew
import VmFleet.Proofs.DataModel
import VmFleet.Proofs.Dates
import VmFleet.Proofs.Delays
import VmFleet.Proofs.Draining
import VmFleet.Proofs.Events
import VmFleet.Proofs.Filling
import VmFleet.Proofs.Fleet
import VmFleet.Proofs.Handling
import VmFleet.Proofs.Holders
import VmFleet.Proofs.HostKept
import VmFleet.Proofs.Hosts
import VmFleet.Proofs.Independence
import VmFleet.Proofs.JsonRecords
import VmFleet.Proofs.JsonText
import VmFleet.Proofs.Judging
import VmFleet.Proofs.Networks
import VmFleet.Proofs.Outcomes
import VmFleet.Proofs.Overruns
import VmFleet.Proofs.Ownership
import VmFleet.Proofs.Paging
import VmFleet.Proofs.PrintedSteps
import VmFleet.Proofs.Recovering
import VmFleet.Proofs.Reports
import VmFleet.Proofs.Resolving
import VmFleet.Proofs.RetryDelays
import VmFleet.Proofs.Returning
import VmFleet.Proofs.Rows
import VmFleet.Proofs.Seeding
import VmFleet.Proofs.Settling
import VmFleet.Proofs.SideBySide
import VmFleet.Proofs.Slots
import VmFleet.Proofs.Staleness
import VmFleet.Proofs.Stamps
import VmFleet.Proofs.StatusGraph
import VmFleet.Proofs.StepRecords
import VmFleet.Proofs.Sweeping
import VmFleet.Proofs.TaskColumns
import VmFleet.Proofs.TaskListing
import VmFleet.Proofs.TaskRecords
import VmFleet.Proofs.TimeLimits
import VmFleet.Proofs.Timestamps
import VmFleet.Proofs.ToolArguments
import VmFleet.Proofs.ToolOutput
import VmFleet.Proofs.VmRecords
import VmFleet.Proofs.VmUpdates
import VmFleet.Proofs.Working
import VmFleet.Proofs.WorkingDirectory
import VmFleet.Provision.Capture
import VmFleet.Provision.Facts
import VmFleet.Provision.Report
import VmFleet.Provision.Request
import VmFleet.Provision.Runner
import VmFleet.Provision.Step
import VmFleet.Queue.Backoff
import VmFleet.Queue.Enqueue
import VmFleet.Queue.Loop
import VmFleet.Queue.Worker
import VmFleet.Store.Addresses
import VmFleet.Store.Basic
import VmFleet.Store.Columns
import VmFleet.Store.Location
import VmFleet.Store.Opening
import VmFleet.Store.Snapshot
import VmFleet.Store.Stamp
import VmFleet.Store.Tasks
import VmFleet.Store.VmUpdate
import VmFleet.Store.Vms
import VmFleet.Task.Form
import VmFleet.Task.Record
import VmFleet.Text.Blank
import VmFleet.Text.Decimal
import VmFleet.Text.Lines
import VmFleet.Text.Quoted
import VmFleet.Text.Ranges
import VmFleet.Text.Table
import VmFleet.Text.Unprinted
import VmFleet.Text.Utf8
import VmFleet.Text.Width
import VmFleet.Time.Calendar
import VmFleet.Time.Duration
import VmFleet.Time.Instant
import VmFleet.Time.Timestamp
import VmFleet.Vm.Draft
import VmFleet.Vm.Form
import VmFleet.Vm.PublicId
import VmFleet.Vm.Record
import VmFleet.Vm.Status
