import MetricAlerts.Admission.Dialogue
import MetricAlerts.Admission.Disturbance
import MetricAlerts.Admission.History
import MetricAlerts.Admission.Overlay
import MetricAlerts.Admission.Request
import MetricAlerts.Admission.Store
import MetricAlerts.Admission.Written
import MetricAlerts.Alert.Event
import MetricAlerts.Alert.Log
import MetricAlerts.Ascending
import MetricAlerts.Audit.Record
import MetricAlerts.Batch.Pool
import MetricAlerts.Batch.Rotation
import MetricAlerts.Batch.Task
import MetricAlerts.Calendar.Civil
import MetricAlerts.Calendar.Day
import MetricAlerts.Calendar.DayText
import MetricAlerts.Calendar.Instant
import MetricAlerts.Command.Failure
import MetricAlerts.Command.Invocation
import MetricAlerts.Command.Option
import MetricAlerts.Command.Run
import MetricAlerts.Command.Screen
import MetricAlerts.Command.Workspace
import MetricAlerts.Decimal.Binary
import MetricAlerts.Decimal.FixedPlaces
import MetricAlerts.Decimal.Layout
import MetricAlerts.Decimal.Reading
import MetricAlerts.Decimal.Shortest
import MetricAlerts.Digest.Sha256
import MetricAlerts.Document.Basic
import MetricAlerts.Document.Fields
import MetricAlerts.Document.Json
import MetricAlerts.Engine.Pass
import MetricAlerts.Engine.Service
import MetricAlerts.Engine.Settings
import MetricAlerts.Engine.Verdict
import MetricAlerts.Evaluation.Report
import MetricAlerts.Evaluation.Trace
import MetricAlerts.Evaluation.TraceText
import MetricAlerts.Files.Items
import MetricAlerts.Files.Path
import MetricAlerts.Files.Tree
import MetricAlerts.Main
import MetricAlerts.Message.Draw
import MetricAlerts.Message.Pick
import MetricAlerts.Message.Render
import MetricAlerts.Message.Template
import MetricAlerts.Metric.Compute
import MetricAlerts.Metric.Glossary
import MetricAlerts.Metric.Log
import MetricAlerts.Metric.Record
import MetricAlerts.Metric.Series
import MetricAlerts.Metric.Shortfall
import MetricAlerts.Metric.Snapshot
import MetricAlerts.Metric.Source
import MetricAlerts.Rule.Basic
import MetricAlerts.Rule.Condition
import MetricAlerts.Rule.Fault
import MetricAlerts.Rule.Formula
import MetricAlerts.Rule.MessageSet
import MetricAlerts.Rule.Statistic
import MetricAlerts.Rule.Written
import MetricAlerts.Rulebook.Basic
import MetricAlerts.Rulebook.Edit
import MetricAlerts.Settings.Assignments
import MetricAlerts.Settings.Environment
import MetricAlerts.Table
import MetricAlerts.Text.Alphanumeric
import MetricAlerts.Text.Blank
import MetricAlerts.Text.Lowercase
import MetricAlerts.Text.Numeral
import MetricAlerts.Text.Slug
import MetricAlerts.Text.Uuid
import MetricAlerts.Toml.Reading
import MetricAlerts.Toml.Scalar
import MetricAlerts.Toml.Table
import MetricAlerts.Yaml.Cursor
import MetricAlerts.Yaml.Node
import MetricAlerts.Yaml.Plain
import MetricAlerts.Yaml.Scalar
import MetricAlerts.Yaml.Token
import MetricAlerts.Proofs.Admission.Decision
import MetricAlerts.Proofs.Admission.Interleaving
import MetricAlerts.Proofs.Admission.Linearization
import MetricAlerts.Proofs.Admission.View
import MetricAlerts.Proofs.Engine.Settlement
import MetricAlerts.Proofs.Engine.Rehearsal
import MetricAlerts.Proofs.Rulebook.Changes
import MetricAlerts.Proofs.Admission.Sequence
import MetricAlerts.Proofs.Engine.Row
import MetricAlerts.Proofs.Engine.AlertLimits
import MetricAlerts.Proofs.Text.Slug
import MetricAlerts.Proofs.Rule.Validity
import MetricAlerts.Proofs.Rulebook.Lineages
import MetricAlerts.Proofs.Rulebook.Trail
import MetricAlerts.Proofs.Admission.Faults
import MetricAlerts.Proofs.Engine.Outcomes
import MetricAlerts.Proofs.Engine.Accounts
import MetricAlerts.Proofs.Metric.Windows
import MetricAlerts.Proofs.Metric.Snapshot
import MetricAlerts.Proofs.Metric.Details
import MetricAlerts.Proofs.Evaluation.Plain
import MetricAlerts.Proofs.Message.Plain
import MetricAlerts.Proofs.Engine.PlainPass
import MetricAlerts.Proofs.Admission.Growth
import MetricAlerts.Proofs.Admission.Contract
import MetricAlerts.Proofs.Evaluation.Rewording
import MetricAlerts.Proofs.Engine.Footprint
import MetricAlerts.Proofs.Engine.SingleRule
import MetricAlerts.Proofs.Engine.InMemory
import MetricAlerts.Proofs.Engine.Independence
import MetricAlerts.Proofs.Metric.Lookback
import MetricAlerts.Proofs.Engine.Lookahead
import MetricAlerts.Proofs.Batch.Outcome
import MetricAlerts.Proofs.Batch.Rotation
import MetricAlerts.Proofs.Batch.Shift
import MetricAlerts.Proofs.Batch.Journey
import MetricAlerts.Proofs.Batch.Lifecycle
import MetricAlerts.Proofs.Admission.Apart
import MetricAlerts.Proofs.Batch.Handling
import MetricAlerts.Proofs.Batch.Crew
import MetricAlerts.Proofs.Batch.Call
import MetricAlerts.Proofs.Batch.OneWorker
import MetricAlerts.Proofs.Batch.Refusal
import MetricAlerts.Proofs.Batch.Fairness
import MetricAlerts.Proofs.Engine.Outage
import MetricAlerts.Proofs.Engine.Skipped
import MetricAlerts.Proofs.Command.Loading
import MetricAlerts.Proofs.Command.Validation
import MetricAlerts.Proofs.Calendar.Civil
import MetricAlerts.Proofs.Text.Numeral
import MetricAlerts.Proofs.Calendar.DayText
import MetricAlerts.Proofs.Files.Writing
import MetricAlerts.Proofs.Document.Equality
import MetricAlerts.Proofs.Admission.Written
import MetricAlerts.Proofs.Admission.Restart
import MetricAlerts.Proofs.Files.Duplicates
import MetricAlerts.Proofs.Rulebook.Creation
import MetricAlerts.Proofs.Admission.Forward
import MetricAlerts.Proofs.Decimal.Finite
import MetricAlerts.Proofs.Document.Values
import MetricAlerts.Proofs.Rule.Written
import MetricAlerts.Proofs.Evaluation.Written
import MetricAlerts.Proofs.Rule.Order
import MetricAlerts.Proofs.Files.Export
import MetricAlerts.Proofs.Engine.ReportOrder
import MetricAlerts.Proofs.Answers
import MetricAlerts.Proofs.Evaluation.Adequacy
import MetricAlerts.Proofs.Decimal.Rounding
import MetricAlerts.Proofs.Decimal.Storage
import MetricAlerts.Proofs.Decimal.Arithmetic
import MetricAlerts.Proofs.Decimal.Doubles
import MetricAlerts.Proofs.Metric.FlatBaseline
import MetricAlerts.Proofs.Metric.Relevance
import MetricAlerts.Proofs.Admission.Cooldown
import MetricAlerts.Proofs.Admission.Retries
import MetricAlerts.Proofs.Decimal.Overflow
import MetricAlerts.Proofs.Decimal.Range
import MetricAlerts.Proofs.Metric.Overflow
import MetricAlerts.Proofs.Text.Runs
import MetricAlerts.Proofs.Alert.Counts
import MetricAlerts.Proofs.Decimal.Fraction
import MetricAlerts.Proofs.Decimal.Order
import MetricAlerts.Proofs.Rule.Comparison
import MetricAlerts.Proofs.Message.Pick
import MetricAlerts.Proofs.Message.Pattern
import MetricAlerts.Proofs.Message.Matches
import MetricAlerts.Proofs.Message.Filling
import MetricAlerts.Proofs.Metric.Recording
import MetricAlerts.Proofs.Rulebook.Listing
import MetricAlerts.Proofs.Calendar.Range
import MetricAlerts.Proofs.Command.DayByDay
import MetricAlerts.Proofs.Files.Packaging
import MetricAlerts.Proofs.Rule.Depth
import MetricAlerts.Proofs.Message.Seed
