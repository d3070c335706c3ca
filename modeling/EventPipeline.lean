import EventPipeline.Act
import EventPipeline.Bench.Schema
import EventPipeline.Bench.Script
import EventPipeline.Bench.Turns
import EventPipeline.Broker
import EventPipeline.Command
import EventPipeline.Config.Addresses
import EventPipeline.Config.Basic
import EventPipeline.Config.Files
import EventPipeline.Config.Load
import EventPipeline.Config.Placeholder
import EventPipeline.Config.Shape
import EventPipeline.Connection
import EventPipeline.Duration
import EventPipeline.Envelope.Basic
import EventPipeline.Envelope.Reader
import EventPipeline.Environment
import EventPipeline.Environment.File
import EventPipeline.Error
import EventPipeline.Escalation
import EventPipeline.FailureTopics
import EventPipeline.Handler
import EventPipeline.Json.Error
import EventPipeline.Json.Reader
import EventPipeline.Json.Schema
import EventPipeline.Json.Shape
import EventPipeline.Json.Value
import EventPipeline.Json.Writer
import EventPipeline.Log
import EventPipeline.LogFilter
import EventPipeline.Memory.Broker
import EventPipeline.Memory.World
import EventPipeline.Names
import EventPipeline.Number.Double
import EventPipeline.Number.Shortest
import EventPipeline.Offline.Consumer
import EventPipeline.Offline.Producer
import EventPipeline.Offline.Setup
import EventPipeline.Offline.World
import EventPipeline.Pipeline
import EventPipeline.Publisher
import EventPipeline.Registry
import EventPipeline.Shutdown
import EventPipeline.Table
import EventPipeline.Text.Alphanumeric
import EventPipeline.Text.Blank
import EventPipeline.Text.Cut
import EventPipeline.Text.Glyphless
import EventPipeline.Text.Octets
import EventPipeline.Text.Parts
import EventPipeline.Text.Pattern
import EventPipeline.Text.Quoted
import EventPipeline.Toml.Members
import EventPipeline.Toml.Number
import EventPipeline.Toml.Reader
import EventPipeline.Toml.Shape
import EventPipeline.Toml.Text
import EventPipeline.Toml.Value
import EventPipeline.Worker.Basic
import EventPipeline.Worker.Step
import EventPipeline.Main
import EventPipeline.Proofs.Json.Digits
import EventPipeline.Proofs.Json.Strings
import EventPipeline.Proofs.Number.Rounding
import EventPipeline.Proofs.Number.Shortest
import EventPipeline.Proofs.Json.Numbers
import EventPipeline.Proofs.Json.Canonical
import EventPipeline.Proofs.Json.RoundTrip
import EventPipeline.Proofs.Envelope.RoundTrip
import EventPipeline.Proofs.Worker.Dispatch
import EventPipeline.Proofs.Escalation
import EventPipeline.Proofs.Worker.Republish
import EventPipeline.Proofs.Worker.RetryRoute
import EventPipeline.Proofs.Memory.Broker
import EventPipeline.Proofs.Memory.Worker
import EventPipeline.Proofs.Memory.Recovery
import EventPipeline.Proofs.Memory.Added
import EventPipeline.Proofs.Pipeline.Runs
import EventPipeline.Proofs.Memory.Retries
import EventPipeline.Proofs.Worker.Calls
import EventPipeline.Proofs.Worker.Settlements
import EventPipeline.Proofs.Memory.Agenda
import EventPipeline.Proofs.Memory.Exhaustion
import EventPipeline.Proofs.Memory.Fate
import EventPipeline.Proofs.Memory.Course
import EventPipeline.Proofs.Memory.Confluence
import EventPipeline.Proofs.Memory.Survival
import EventPipeline.Proofs.Memory.Isolation
import EventPipeline.Proofs.Json.Depth
import EventPipeline.Proofs.Envelope.Readable
import EventPipeline.Proofs.Envelope.Sent
import EventPipeline.Proofs.Worker.Trouble
import EventPipeline.Proofs.Worker.Windup
import EventPipeline.Proofs.Pipeline.Shutdown
import EventPipeline.Proofs.Registry.History
import EventPipeline.Proofs.Registry.Reserved
import EventPipeline.Proofs.Worker.Misrouting
import EventPipeline.Proofs.Worker.Offers
import EventPipeline.Proofs.Pipeline.Report
import EventPipeline.Proofs.Envelope.Acceptance
import EventPipeline.Proofs.Publisher.Attempts
import EventPipeline.Proofs.Memory.Look
import EventPipeline.Proofs.Memory.Traffic
import EventPipeline.Proofs.Registry.Contents
import EventPipeline.Proofs.Duration
import EventPipeline.Proofs.Worker.Entries
import EventPipeline.Proofs.Worker.Turns
import EventPipeline.Proofs.Worker.Figures
import EventPipeline.Proofs.Worker.Backoff
import EventPipeline.Proofs.Pipeline.Causes
import EventPipeline.Proofs.Toml.Stops
import EventPipeline.Proofs.Toml.Local
import EventPipeline.Proofs.Toml.Values
import EventPipeline.Proofs.Toml.Places
import EventPipeline.Proofs.Toml.Holes
import EventPipeline.Proofs.Toml.Shapes
import EventPipeline.Proofs.Config.Loading
import EventPipeline.Proofs.Config.Placeholders
import EventPipeline.Proofs.Config.Addresses
import EventPipeline.Proofs.Config.Settings
import EventPipeline.Proofs.Config.Substitution
import EventPipeline.Proofs.Config.Listeners
