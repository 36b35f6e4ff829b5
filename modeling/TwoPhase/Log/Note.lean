import TwoPhase.Initiator.Observation
import TwoPhase.Initiator.Phase
/-
The log. A note is a cause: something happened that a reader of the log may want to know. How it is
shown, its level and its fields, is one function each, and nothing else ever looks at the log.
-/

set_option autoImplicit false

namespace TwoPhase

/-- How much a note matters. -/
inductive Level where
  | error
  | warn
  | info
  | debug
  | trace
  deriving DecidableEq, Repr

/-- Something that happened and is worth a line in the log. -/
inductive Note where
  -- at the client
  | registered
  | inbound (kind : String) (id : Option OperationId)
  | sweptWhileSending (id : OperationId) (error : ChannelError)
  | operationNotSent (id : OperationId) (error : ChannelError)
  | decisionNotSent (id : OperationId) (decision : Decision) (error : ChannelError)
  | decisionRepeated (id : OperationId) (decision : Decision)
  | preparedAgain (id : OperationId) (phase : Phase)
  | late (id : OperationId) (kind : String)
  | unknown (id : OperationId) (kind : String)
  | outOfOrder (id : OperationId) (phase : Phase) (violation : Violation)
  | reportDropped (id : OperationId)
  | failingPending (id : OperationId) (phase : Phase) (request : Value)
  | callbackPanicked (id : OperationId) (callback : String)
  | clientGone (kind : String)
  | waiterSawCompletion (id : OperationId)
  -- by an observer, a sink or a listener
  | observed (observation : Observation)
  | reported (severity : Severity) (text : String)
  | listenerNotServed (id : OperationId) (error : ClientError)
  -- on a channel
  | noHandler (kind : String)
  -- at the participant
  | executeRepeated (id : OperationId)
  | operationPrepared (id : OperationId)
  | operationRejected (id : OperationId) (failure : Failure)
  | notPrepared (id : OperationId) (decision : Decision)
  | finalized (id : OperationId) (decision : Decision)
  | finalizeFailed (id : OperationId) (decision : Decision) (failure : Failure)
  | notJournaled (id : OperationId) (error : JournalError)

/-- The content of one field of a note. -/
inductive Detail where
  | text (s : String)
  | number (n : Nat)

namespace Note

/-- The level of a note. -/
def level : Note → Level
  | inbound .. | waiterSawCompletion _ => .trace
  | registered | sweptWhileSending .. | preparedAgain .. | late .. | reportDropped _
  | failingPending .. | clientGone _ | operationPrepared _ | finalized .. => .debug
  | operationRejected .. => .info
  | operationNotSent .. | decisionNotSent .. | decisionRepeated .. | unknown .. | outOfOrder ..
  | listenerNotServed .. | noHandler _ | executeRepeated _ | notPrepared ..
  | finalizeFailed .. => .warn
  | callbackPanicked .. | notJournaled .. => .error
  | observed o =>
    match o with
    | .submitted _ => .debug
    | .prepared _ | .decisionSent .. | .completed _ => .info
    | .failed .. | .violation _ | .channelClosed _ => .warn
  | reported s _ =>
    match s with
    | .error => .error
    | .warn => .warn
    | .info => .info

/-- The line of a note. -/
def line : Note → String
  | registered => "Transactional client registered on channel"
  | inbound .. => "Inbound notification"
  | sweptWhileSending .. => "Execute send failed after sweep"
  | operationNotSent .. => "Failed to send operation"
  | decisionNotSent .. => "Failed to send decision"
  | decisionRepeated .. => "Decision already made on this handle"
  | preparedAgain .. => "Duplicate prepared notification ignored"
  | late .. => "Late notification for finished operation"
  | unknown .. => "Notification for unknown operation dropped"
  | outOfOrder .. => "Out of order notification dropped"
  | reportDropped _ => "Message for finished operation dropped"
  | failingPending .. => "Failing pending operation"
  | callbackPanicked .. => "Caller callback panicked"
  | clientGone _ => "Client dropped, ignoring notification"
  | waiterSawCompletion _ => "Blocking listener saw completion"
  | observed o =>
    match o with
    | .submitted _ => "Operation submitted"
    | .prepared _ => "Operation prepared"
    | .decisionSent .. => "Decision sent"
    | .completed _ => "Operation completed"
    | .failed .. => "Operation failed"
    | .violation _ => "Protocol violation"
    | .channelClosed _ => "Channel closed, failing pending operations"
  | reported .. => "Operation report"
  | listenerNotServed .. => "Decision from listener failed"
  | noHandler _ => "No handler registered, dropping"
  | executeRepeated _ => "Duplicate execute ignored"
  | operationPrepared _ => "Operation prepared"
  | operationRejected .. => "Operation rejected"
  | notPrepared .. => "Decision for operation that is not prepared"
  | finalized .. => "Operation finalized"
  | finalizeFailed .. => "Finalization failed"
  | notJournaled .. => "Failed to journal participant event"

/-- The field that names an operation. -/
def operationField (id : OperationId) : String × Detail := ("operation_id", .text id.text)

/-- The field that names a decision. -/
def decisionField (d : Decision) : String × Detail := ("decision", .text d.text)

/-- A field of plain text. -/
def textField (name text : String) : String × Detail := (name, .text text)

/-- What a note says beside its line. -/
def details : Note → List (String × Detail)
  | registered => []
  | inbound kind id =>
    [textField "kind" kind,
      textField "operation_id" (String.ofList (Text.optional (id.map OperationId.describe)))]
  | sweptWhileSending id e | operationNotSent id e =>
    [operationField id, textField "error" e.message]
  | decisionNotSent id d e => [operationField id, decisionField d, textField "error" e.message]
  | decisionRepeated id d | notPrepared id d | finalized id d =>
    [operationField id, decisionField d]
  | preparedAgain id phase => [operationField id, textField "phase" phase.text]
  | late id kind | unknown id kind => [operationField id, textField "kind" kind]
  | outOfOrder id phase v =>
    [operationField id, textField "phase" phase.text, textField "violation" v.message]
  | reportDropped id | waiterSawCompletion id | executeRepeated id | operationPrepared id =>
    [operationField id]
  | failingPending id phase request =>
    [operationField id, textField "phase" phase.text,
      textField "request" (String.ofList request.describe)]
  | callbackPanicked id callback => [operationField id, textField "callback" callback]
  | clientGone kind | noHandler kind => [textField "kind" kind]
  | observed o =>
    match o with
    | .submitted id | .prepared id | .completed id => [operationField id]
    | .decisionSent id d => [operationField id, decisionField d]
    | .failed id f =>
      [operationField id, textField "kind" f.kind.tag, textField "error" f.message]
    | .violation v => [textField "violation" v.message]
    | .channelClosed n => [("pending", .number n)]
  | reported _ text => [textField "message" text]
  | listenerNotServed id e => [operationField id, textField "error" e.message]
  | operationRejected id f => [operationField id, textField "error" f.message]
  | finalizeFailed id d f => [operationField id, decisionField d, textField "error" f.message]
  | notJournaled id e => [operationField id, textField "error" e.message]

/-- All fields of a note; its line is the field `message`. -/
def fields (n : Note) : List (String × Detail) := textField "message" n.line :: n.details

end Note

end TwoPhase
