import ContractHost.Bytes
import ContractHost.CommandLine.Arguments
import ContractHost.CommandLine.Report
import ContractHost.CommandLine.Run
import ContractHost.Config.Basic
import ContractHost.Config.File
import ContractHost.Config.Record
import ContractHost.Contract
import ContractHost.Digest
import ContractHost.Document.Json
import ContractHost.Document.Node
import ContractHost.Document.Shorthand
import ContractHost.Document.Toml.Reader
import ContractHost.Document.Toml.Scalar
import ContractHost.Document.Toml.Tree
import ContractHost.Error
import ContractHost.Guest.Conduct
import ContractHost.Guest.Machine
import ContractHost.Guest.Memory
import ContractHost.Guest.Module
import ContractHost.Guest.Script
import ContractHost.Guest.Scripts
import ContractHost.Guest.Written
import ContractHost.Host.Basic
import ContractHost.Host.Calls
import ContractHost.Host.Describe
import ContractHost.Host.Invoke
import ContractHost.Host.Pools
import ContractHost.Instance
import ContractHost.Invocation.Context
import ContractHost.Invocation.Registry
import ContractHost.Ledger.Access
import ContractHost.Ledger.Basic
import ContractHost.Main
import ContractHost.OrderedMap
import ContractHost.Outcome
import ContractHost.Packet.Basic
import ContractHost.Packet.Decoding
import ContractHost.Packet.Encoding
import ContractHost.Packet.Lookup
import ContractHost.Pool.Basic
import ContractHost.Pool.Control
import ContractHost.Pool.Lease
import ContractHost.Proofs.CommandLine.Report
import ContractHost.Proofs.CommandLine.Transactions
import ContractHost.Proofs.Guest.Broken
import ContractHost.Proofs.Guest.Course
import ContractHost.Proofs.Guest.Follows
import ContractHost.Proofs.Guest.Instances
import ContractHost.Proofs.Guest.Linked
import ContractHost.Proofs.Host.Alike
import ContractHost.Proofs.Host.Breakdown
import ContractHost.Proofs.Host.CallTree
import ContractHost.Proofs.Host.Calling
import ContractHost.Proofs.Host.Cleanup
import ContractHost.Proofs.Host.Events
import ContractHost.Proofs.Host.Exchange
import ContractHost.Proofs.Host.Exports
import ContractHost.Proofs.Host.Failures
import ContractHost.Proofs.Host.Filing
import ContractHost.Proofs.Host.Frame
import ContractHost.Proofs.Host.Gas
import ContractHost.Proofs.Host.Guarded
import ContractHost.Proofs.Host.History
import ContractHost.Proofs.Host.Holding
import ContractHost.Proofs.Host.Idle
import ContractHost.Proofs.Host.Keeping
import ContractHost.Proofs.Host.Kindred
import ContractHost.Proofs.Host.Lasting
import ContractHost.Proofs.Host.Leases
import ContractHost.Proofs.Host.Lending
import ContractHost.Proofs.Host.Letters
import ContractHost.Proofs.Host.Nesting
import ContractHost.Proofs.Host.Opening
import ContractHost.Proofs.Host.Params
import ContractHost.Proofs.Host.Parting
import ContractHost.Proofs.Host.Passage
import ContractHost.Proofs.Host.Probes
import ContractHost.Proofs.Host.Propagation
import ContractHost.Proofs.Host.Reach
import ContractHost.Proofs.Host.Records
import ContractHost.Proofs.Host.Regions
import ContractHost.Proofs.Host.Registration
import ContractHost.Proofs.Host.Remarks
import ContractHost.Proofs.Host.Scheduling
import ContractHost.Proofs.Host.Takings
import ContractHost.Proofs.Host.Underway
import ContractHost.Proofs.Invocation.Cursors
import ContractHost.Proofs.Invocation.Handles
import ContractHost.Proofs.Invocation.Walks
import ContractHost.Proofs.Ledger.Interleaving
import ContractHost.Proofs.Ledger.Overlay
import ContractHost.Proofs.OrderedMap
import ContractHost.Proofs.Packet.Faults
import ContractHost.Proofs.Packet.Layout
import ContractHost.Proofs.Packet.Params
import ContractHost.Proofs.Packet.Pointing
import ContractHost.Proofs.Packet.Reading
import ContractHost.Proofs.Packet.Truncation
import ContractHost.Proofs.Packet.Views
import ContractHost.Proofs.Pool.Admission
import ContractHost.Proofs.Pool.Books
import ContractHost.Proofs.Pool.Bound
import ContractHost.Proofs.Pool.Callers
import ContractHost.Proofs.Pool.Conservation
import ContractHost.Proofs.Pool.Control
import ContractHost.Proofs.Pool.Counting
import ContractHost.Proofs.Pool.Drained
import ContractHost.Proofs.Pool.Endurance
import ContractHost.Proofs.Pool.Excess
import ContractHost.Proofs.Pool.Frame
import ContractHost.Proofs.Pool.Held
import ContractHost.Proofs.Pool.Places
import ContractHost.Proofs.Pool.Run
import ContractHost.Proofs.Pool.Settling
import ContractHost.Proofs.Pool.Sizing
import ContractHost.Proofs.Pool.Sources
import ContractHost.Proofs.Pool.Steady
import ContractHost.Proofs.Pool.Stuck
import ContractHost.Proofs.Pool.Work
import ContractHost.Proofs.Request.Alike
import ContractHost.Proofs.Request.CursorWalks
import ContractHost.Proofs.Request.Cursors
import ContractHost.Proofs.Request.Effects
import ContractHost.Proofs.Request.Emission
import ContractHost.Proofs.Request.Failing
import ContractHost.Proofs.Request.Isolation
import ContractHost.Proofs.Request.Iteration
import ContractHost.Proofs.Request.Paired
import ContractHost.Proofs.Request.PointReads
import ContractHost.Proofs.Request.Robust
import ContractHost.Proofs.Request.Rows
import ContractHost.Proofs.Request.Scheduling
import ContractHost.Proofs.Request.Standing
import ContractHost.Proofs.Request.Steps
import ContractHost.Proofs.Request.StoredKey
import ContractHost.Proofs.Request.Walking
import ContractHost.Proofs.Text.Order
import ContractHost.Request.Crypto
import ContractHost.Request.Dispatch
import ContractHost.Request.Method
import ContractHost.Request.StateKey
import ContractHost.Text.Graphic
import ContractHost.Text.Quoted
import ContractHost.Text.Utf8
