import DatabaseSession.Backend
import DatabaseSession.Binary64
import DatabaseSession.Binary64.Fixed
import DatabaseSession.Binary64.Shortest
import DatabaseSession.Catalog
import DatabaseSession.Courier
import DatabaseSession.Duration
import DatabaseSession.Error
import DatabaseSession.Event
import DatabaseSession.Heartbeat
import DatabaseSession.Json
import DatabaseSession.Json.Parser
import DatabaseSession.Json.Printer
import DatabaseSession.Link
import DatabaseSession.Options
import DatabaseSession.Registry
import DatabaseSession.Rehearsal.Cast
import DatabaseSession.Rehearsal.Document
import DatabaseSession.Rehearsal.Document.Moves
import DatabaseSession.Rehearsal.Document.Parts
import DatabaseSession.Rehearsal.Engine
import DatabaseSession.Rehearsal.Performance
import DatabaseSession.Rehearsal.Script
import DatabaseSession.Rehearsal.ScriptedBackend
import DatabaseSession.Rehearsal.Transcript
import DatabaseSession.Rehearsal.World
import DatabaseSession.Row
import DatabaseSession.Run
import DatabaseSession.Service
import DatabaseSession.Session
import DatabaseSession.Session.Answer
import DatabaseSession.Session.Calls
import DatabaseSession.Session.Status
import DatabaseSession.Settings
import DatabaseSession.Signal
import DatabaseSession.Sqlite.Client
import DatabaseSession.Sqlite.Cursor
import DatabaseSession.Sqlite.Layout
import DatabaseSession.Sqlite.Library
import DatabaseSession.Task
import DatabaseSession.Task.Run
import DatabaseSession.Text.Base64
import DatabaseSession.Text.Blank
import DatabaseSession.Text.FileName
import DatabaseSession.Text.Literal
import DatabaseSession.Text.Quoted
import DatabaseSession.Text.Unprintable
import DatabaseSession.Text.Utf8
import DatabaseSession.Turn
import DatabaseSession.Value
import DatabaseSession.Proofs.Course
import DatabaseSession.Proofs.Log
import DatabaseSession.Proofs.Effects
import DatabaseSession.Proofs.Delivery
import DatabaseSession.Proofs.Patience
import DatabaseSession.Proofs.Ending
import DatabaseSession.Proofs.Chunks
import DatabaseSession.Proofs.Supply
import DatabaseSession.Proofs.Streaming
import DatabaseSession.Proofs.Attempts
import DatabaseSession.Proofs.Reconnects
import DatabaseSession.Proofs.Retries
import DatabaseSession.Proofs.Killing
import DatabaseSession.Proofs.Stops
import DatabaseSession.Proofs.Usage
import DatabaseSession.Proofs.Teardown
import DatabaseSession.Proofs.Release
import DatabaseSession.Proofs.Moves
import DatabaseSession.Proofs.Lifetime
import DatabaseSession.Proofs.Signalling
import DatabaseSession.Proofs.Tally
import DatabaseSession.Proofs.Handling
import DatabaseSession.Proofs.Chronicle
import DatabaseSession.Proofs.Rounds
import DatabaseSession.Proofs.Opening
import DatabaseSession.Proofs.Interleaving
import DatabaseSession.Proofs.Succession
import DatabaseSession.Proofs.Cancellation
import DatabaseSession.Proofs.Custody
import DatabaseSession.Proofs.Handles
import DatabaseSession.Proofs.Segments
import DatabaseSession.Proofs.Stepping
import DatabaseSession.Proofs.ResultSets
import DatabaseSession.Proofs.Disposal
import DatabaseSession.Proofs.Stretches
import DatabaseSession.Proofs.Jobs
import DatabaseSession.Proofs.Publication
import DatabaseSession.Proofs.Footing
import DatabaseSession.Proofs.Schemas
import DatabaseSession.Proofs.Attaching
import DatabaseSession.Proofs.LastResult
import DatabaseSession.Proofs.Accounts
import DatabaseSession.Proofs.Statistics
import DatabaseSession.Proofs.Likeness
import DatabaseSession.Proofs.Parallels
import DatabaseSession.Proofs.Modes
import DatabaseSession.Proofs.Agreement
import DatabaseSession.Proofs.Reverting
import DatabaseSession.Proofs.Coalescing
import DatabaseSession.Proofs.Conduct
import DatabaseSession.Proofs.Dialling
import DatabaseSession.Proofs.Kills
import DatabaseSession.Proofs.Quelling
import DatabaseSession.Proofs.Trials
import DatabaseSession.Proofs.Shapes
import DatabaseSession.Proofs.Counters
import DatabaseSession.Proofs.Payloads
import DatabaseSession.Proofs.Descriptors
import DatabaseSession.Proofs.Cuts
import DatabaseSession.Proofs.Splitting
import DatabaseSession.Proofs.Setup
import DatabaseSession.Proofs.Intervals
import DatabaseSession.Proofs.Documents
import DatabaseSession.Proofs.Dispatches
import DatabaseSession.Proofs.Rerooting
