import KeyRegistry.Abi.Interface
import KeyRegistry.Abi.Layout
import KeyRegistry.Abi.Type
import KeyRegistry.Address
import KeyRegistry.AddressFile
import KeyRegistry.Artifact.Key
import KeyRegistry.Artifact.Store
import KeyRegistry.Binary64
import KeyRegistry.Bytes
import KeyRegistry.Call
import KeyRegistry.CommandLine.Arguments
import KeyRegistry.CommandLine.Execution
import KeyRegistry.CommandLine.Failure
import KeyRegistry.CommandLine.Output
import KeyRegistry.Duration
import KeyRegistry.FileSystem
import KeyRegistry.GasPlan
import KeyRegistry.Hash
import KeyRegistry.Hex
import KeyRegistry.Json.Number
import KeyRegistry.Json.Outline
import KeyRegistry.Json.Printer
import KeyRegistry.Json.Reader
import KeyRegistry.Json.Text
import KeyRegistry.Json.Value
import KeyRegistry.Keccak
import KeyRegistry.Main
import KeyRegistry.Mining.Controller
import KeyRegistry.Node.Scripted
import KeyRegistry.Node.Setting
import KeyRegistry.Node.StorageEmulation
import KeyRegistry.Node.Subscription
import KeyRegistry.Numeral
import KeyRegistry.Pipeline.Config
import KeyRegistry.Pipeline.Error
import KeyRegistry.Pipeline.Outcome
import KeyRegistry.Pipeline.Steps
import KeyRegistry.Program
import KeyRegistry.Quantity
import KeyRegistry.Receipt
import KeyRegistry.Receipt.Json
import KeyRegistry.Report.Kind
import KeyRegistry.Report.Record
import KeyRegistry.Report.Run
import KeyRegistry.Rpc.Client
import KeyRegistry.Rpc.Error
import KeyRegistry.Rpc.Event
import KeyRegistry.Rpc.Subscription
import KeyRegistry.Rpc.Wire
import KeyRegistry.Session
import KeyRegistry.Settings.Basic
import KeyRegistry.Settings.Document
import KeyRegistry.Settings.Storage
import KeyRegistry.Simulation.Basic
import KeyRegistry.StorageContract
import KeyRegistry.Text.Blank
import KeyRegistry.Text.Printable
import KeyRegistry.Text.Quoted
import KeyRegistry.Text.Utf8
import KeyRegistry.Toml.Reader
import KeyRegistry.Toml.Record
import KeyRegistry.Toml.Scalar
import KeyRegistry.Toml.Text
import KeyRegistry.Toml.Value
import KeyRegistry.ValueError
import KeyRegistry.Wei
import KeyRegistry.Proofs.Pipeline.Course
import KeyRegistry.Proofs.Pipeline.Moves
import KeyRegistry.Proofs.Pipeline.Operations
import KeyRegistry.Proofs.Pipeline.Invariant
import KeyRegistry.Proofs.Pipeline.Run
import KeyRegistry.Proofs.Pipeline.Conversation
import KeyRegistry.Proofs.Session
import KeyRegistry.Proofs.StorageContract.Conversation
import KeyRegistry.Proofs.Abi.RoundTrip
import KeyRegistry.Proofs.Node.Script
import KeyRegistry.Proofs.Abi.Interface
import KeyRegistry.Proofs.Node.StorageEmulation
import KeyRegistry.Proofs.StorageContract.Memory
import KeyRegistry.Proofs.StorageContract.Keys
import KeyRegistry.Proofs.Pipeline.Resubmission
import KeyRegistry.Proofs.Rpc.Delivery
import KeyRegistry.Proofs.Rpc.Resubmission
import KeyRegistry.Proofs.Mining.Evaluation
import KeyRegistry.Proofs.Mining.Chronicle
import KeyRegistry.Proofs.Mining.Discipline
import KeyRegistry.Proofs.Program.Suspension
import KeyRegistry.Proofs.Runtime.Interleaving
import KeyRegistry.Proofs.Session.Scopes
import KeyRegistry.Proofs.Runtime.Simulation
import KeyRegistry.Proofs.Session.LateLocks
import KeyRegistry.Proofs.Session.Works
import KeyRegistry.Proofs.Program.Interference
import KeyRegistry.Proofs.Node.Subscriptions
import KeyRegistry.Proofs.Mining.Schedule
import KeyRegistry.Proofs.Runtime.ControlLoop
import KeyRegistry.Proofs.Mining.Rounds
import KeyRegistry.Proofs.Mining.Ledger
import KeyRegistry.Proofs.Mining.Convergence
import KeyRegistry.Proofs.Mining.Ownership
import KeyRegistry.Proofs.Mining.Shutdown
import KeyRegistry.Proofs.Mining.Release
import KeyRegistry.Proofs.Mining.Endings
import KeyRegistry.Proofs.Abi.Reencoding
import KeyRegistry.Proofs.StorageContract.Overloads
import KeyRegistry.Proofs.Pipeline.Tally
import KeyRegistry.Proofs.Pipeline.EarlyFailure
import KeyRegistry.Proofs.Pipeline.Patience
import KeyRegistry.Proofs.Settings.Termination
import KeyRegistry.Proofs.Json.Outline
import KeyRegistry.Proofs.Json.Record
import KeyRegistry.Proofs.Rpc.Acknowledgement
import KeyRegistry.Proofs.Address
import KeyRegistry.Proofs.FileSystem
import KeyRegistry.Proofs.AddressFile
import KeyRegistry.Proofs.CommandLine.Deployment
import KeyRegistry.Proofs.CommandLine.Checks
import KeyRegistry.Proofs.Pipeline.Retries
import KeyRegistry.Proofs.Node.Receipts
import KeyRegistry.Proofs.Program.Timeline
import KeyRegistry.Proofs.Runtime.Solitary
import KeyRegistry.Proofs.Pipeline.Polling
import KeyRegistry.Proofs.Pipeline.Confirmation
import KeyRegistry.Proofs.CommandLine.Verdicts
import KeyRegistry.Proofs.Abi.Decoding
import KeyRegistry.Proofs.Abi.Machine
import KeyRegistry.Proofs.Abi.HeadTail
import KeyRegistry.Proofs.Abi.Resolution
import KeyRegistry.Proofs.Abi.TypeNames
import KeyRegistry.Proofs.Quantity
import KeyRegistry.Proofs.Rpc.Transaction
import KeyRegistry.Proofs.GasPlan
import KeyRegistry.Proofs.Rpc.Subscription
import KeyRegistry.Proofs.Mining.Cooperation
import KeyRegistry.Proofs.Mining.Accounting
import KeyRegistry.Proofs.Hexadecimal
import KeyRegistry.Proofs.ValueTexts
import KeyRegistry.Proofs.Json.Table
import KeyRegistry.Proofs.Json.Printing
import KeyRegistry.Proofs.Artifact.Loads
import KeyRegistry.Proofs.Artifact.Keys
import KeyRegistry.Proofs.Receipt.Parts
import KeyRegistry.Proofs.Receipt.Variants
import KeyRegistry.Proofs.ByteTexts
import KeyRegistry.Proofs.Text.Blank
import KeyRegistry.Proofs.Duration
import KeyRegistry.Proofs.Pipeline.Backoff
import KeyRegistry.Proofs.AddressFile.History
import KeyRegistry.Proofs.Json.Order
import KeyRegistry.Proofs.Abi.Spellings
import KeyRegistry.Proofs.GasPlan.Limits
import KeyRegistry.Proofs.Pipeline.Margins
import KeyRegistry.Proofs.Node.Turns
import KeyRegistry.Proofs.Node.Inclusions
import KeyRegistry.Proofs.Node.Standings
