import TwoPhase.Channel.Recording
import TwoPhase.Initiator.Client
import TwoPhase.Initiator.Config
import TwoPhase.Initiator.Handle
import TwoPhase.Initiator.Mailbox
import TwoPhase.Initiator.Observation
import TwoPhase.Initiator.OutcomeCell
import TwoPhase.Initiator.Phase
import TwoPhase.Initiator.PreparedWait
import TwoPhase.Json.Ascii
import TwoPhase.Json.Fault
import TwoPhase.Json.Reader
import TwoPhase.Json.Shape
import TwoPhase.Json.Writer
import TwoPhase.Log.Note
import TwoPhase.Lookup
import TwoPhase.Named
import TwoPhase.Number.Binary64
import TwoPhase.Number.Layout
import TwoPhase.Number.Shortest
import TwoPhase.Operation.Basic
import TwoPhase.Operation.Failure
import TwoPhase.Operation.Json
import TwoPhase.Operation.Message
import TwoPhase.Operation.Payload
import TwoPhase.Operation.Table
import TwoPhase.Participant.Endpoint
import TwoPhase.Participant.FaultyJournal
import TwoPhase.Participant.Handler
import TwoPhase.Participant.Journal
import TwoPhase.Participant.JournalJson
import TwoPhase.Participant.KeyValue
import TwoPhase.Participant.Scripted
import TwoPhase.Participant.Transaction
import TwoPhase.Proofs.Agreement.ClientAndEndpoint
import TwoPhase.Proofs.Agreement.Joint
import TwoPhase.Proofs.Agreement.MessageHandling
import TwoPhase.Proofs.ClientThreads.Apologies
import TwoPhase.Proofs.ClientThreads.Basic
import TwoPhase.Proofs.ClientThreads.Callbacks
import TwoPhase.Proofs.ClientThreads.Closing
import TwoPhase.Proofs.ClientThreads.Deliveries
import TwoPhase.Proofs.ClientThreads.EventOrder
import TwoPhase.Proofs.ClientThreads.Frames
import TwoPhase.Proofs.ClientThreads.Histories
import TwoPhase.Proofs.ClientThreads.Laws
import TwoPhase.Proofs.ClientThreads.Ledger
import TwoPhase.Proofs.ClientThreads.MailboxThreads
import TwoPhase.Proofs.ClientThreads.Observations
import TwoPhase.Proofs.ClientThreads.Observers
import TwoPhase.Proofs.ClientThreads.OperationShare
import TwoPhase.Proofs.ClientThreads.OutcomeCellThreads
import TwoPhase.Proofs.ClientThreads.Outcomes
import TwoPhase.Proofs.ClientThreads.Owners
import TwoPhase.Proofs.ClientThreads.Prospects
import TwoPhase.Proofs.ClientThreads.Reports
import TwoPhase.Proofs.ClientThreads.Sends
import TwoPhase.Proofs.ClientThreads.Tables
import TwoPhase.Proofs.ClientThreads.Touch
import TwoPhase.Proofs.ClientThreads.Unmatched
import TwoPhase.Proofs.ClientThreads.Waits
import TwoPhase.Proofs.ClientThreads.Withdrawals
import TwoPhase.Proofs.EndpointThreads.Basic
import TwoPhase.Proofs.EndpointThreads.Chronicle
import TwoPhase.Proofs.EndpointThreads.Discipline
import TwoPhase.Proofs.EndpointThreads.EndpointJobs
import TwoPhase.Proofs.EndpointThreads.Handling
import TwoPhase.Proofs.EndpointThreads.Recovery
import TwoPhase.Proofs.EndpointThreads.Replies
import TwoPhase.Proofs.EndpointThreads.Staging
import TwoPhase.Proofs.Journal.Log
import TwoPhase.Proofs.Journal.Writers
import TwoPhase.Proofs.Lists
import TwoPhase.Proofs.Loopback.Basic
import TwoPhase.Proofs.Loopback.Grants
import TwoPhase.Proofs.Loopback.Labor
import TwoPhase.Proofs.Loopback.Legs
import TwoPhase.Proofs.Loopback.Mirror
import TwoPhase.Proofs.Loopback.Modes
import TwoPhase.Proofs.Loopback.Orders
import TwoPhase.Proofs.Loopback.Reception
import TwoPhase.Proofs.Loopback.Refusals
import TwoPhase.Proofs.Loopback.Rehearsal
import TwoPhase.Proofs.Loopback.Reports
import TwoPhase.Proofs.Loopback.Script
import TwoPhase.Proofs.Loopback.Store
import TwoPhase.Proofs.Loopback.Submissions
import TwoPhase.Proofs.Loopback.Weights
import TwoPhase.Proofs.Maps
import TwoPhase.Proofs.RecordingClient.Basic
import TwoPhase.Proofs.RecordingClient.Closing
import TwoPhase.Proofs.RecordingClient.Decisions
import TwoPhase.Proofs.RecordingClient.Isolation
import TwoPhase.Proofs.RecordingClient.Labor
import TwoPhase.Proofs.RecordingClient.Outcomes
import TwoPhase.Proofs.RecordingClient.Refusals
import TwoPhase.Proofs.RecordingClient.Sends
import TwoPhase.Proofs.RecordingClient.Statistics
import TwoPhase.Proofs.RecordingClient.Waits
import TwoPhase.Proofs.Retrieval
import TwoPhase.Proofs.SerialEndpoint.Basic
import TwoPhase.Proofs.SerialEndpoint.Decisions
import TwoPhase.Proofs.SerialEndpoint.Indifference
import TwoPhase.Proofs.SerialEndpoint.Staging
import TwoPhase.Proofs.Totals
import TwoPhase.Proofs.Wire.Doubles
import TwoPhase.Proofs.Wire.Entries
import TwoPhase.Proofs.Wire.Images
import TwoPhase.Proofs.Wire.Nesting
import TwoPhase.Proofs.Wire.Numerals
import TwoPhase.Proofs.Wire.Payloads
import TwoPhase.Proofs.Wire.Reading
import TwoPhase.Proofs.Wire.Reencoding
import TwoPhase.Proofs.Wire.Rounding
import TwoPhase.Proofs.Wire.Shapes
import TwoPhase.Proofs.Wire.Values
import TwoPhase.Rehearsal.Ensemble
import TwoPhase.Rehearsal.Move
import TwoPhase.Rehearsal.Play
import TwoPhase.Rehearsal.Record
import TwoPhase.Rehearsal.Script
import TwoPhase.Rehearsal.World
import TwoPhase.Span
import TwoPhase.Text.Described
import TwoPhase.Text.Octets
import TwoPhase.Text.Shown
import TwoPhase.Value.Basic
import TwoPhase.Value.Described
import TwoPhase.Value.Json
