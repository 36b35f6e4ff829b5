import TwoPhase.Operation.Basic
import TwoPhase.Span
/-
How operations end and what can go wrong around them. A `Failure` is carried to the listener of an
operation; the errors below it are returned to whoever called. Errors are causes, and their wording
is in one function each.
-/

set_option autoImplicit false

namespace TwoPhase

/-! ## Failures and outcomes -/

/-- What made an operation fail. -/
inductive FailureKind where
  /-- The participant refused the operation or its decision. -/
  | rejected
  /-- The channel went away while the operation was pending. -/
  | channelClosed
  /-- The decision could not be sent. -/
  | sendFailed
  deriving DecidableEq, Repr

/-- The name of the kind's tag. -/
def FailureKind.tag : FailureKind → String
  | .rejected => "Rejected"
  | .channelClosed => "ChannelClosed"
  | .sendFailed => "SendFailed"

/-- Why an operation failed. -/
structure Failure where
  kind : FailureKind
  message : String
  deriving DecidableEq, Repr

namespace Failure

/-- The participant says no. -/
def rejected (message : String) : Failure := ⟨.rejected, message⟩

/-- What every pending operation fails with when the channel closes. -/
def channelClosed : Failure := ⟨.channelClosed, "channel closed before the operation finished"⟩

/-- A decision that could not be sent. -/
def sendFailed (decision : Decision) (reason : String) : Failure :=
  ⟨.sendFailed, "failed to send " ++ decision.text ++ ": " ++ reason⟩

/-- Whether the channel is to blame. -/
def isChannelClosed (f : Failure) : Bool := f.kind == .channelClosed

/-- The description of a failure. -/
def describe (f : Failure) : List Char :=
  Text.recorded "FailureDescription"
    [("kind", f.kind.tag.toList), ("message", Text.quoted f.message)]

end Failure

/-- The end of an operation. -/
inductive Outcome where
  | completed (result : Value)
  | failed (failure : Failure)

/-- The failure of an operation that failed. -/
def Outcome.failure? : Outcome → Option Failure
  | .completed _ => none
  | .failed f => some f

/-! ## Errors -/

/-- What a channel reports to whoever uses it. -/
inductive ChannelError where
  | closed
  | refused (reason : String)
  | alreadyRegistered
  deriving DecidableEq, Repr

/-- The text of a channel's error. -/
def ChannelError.message : ChannelError → String
  | .closed => "Channel closed"
  | .refused reason => "Send error: " ++ reason
  | .alreadyRegistered => "A handler is already registered on this channel"

/-- Why a wait ended without what was waited for. -/
inductive WaitError where
  | timeout (span : Span)
  | interrupted
  deriving DecidableEq, Repr

/-- The text of a wait's error. -/
def WaitError.message : WaitError → String
  | .timeout span => "Timed out after " ++ span.describe
  | .interrupted => "Wait interrupted"

/-- What the client answers a caller whose request it could not serve. -/
inductive ClientError where
  | channelUnavailable (reason : String)
  | serialization (reason : String)
  | sendFailed (id : OperationId) (decision : Decision) (reason : String)
  | alreadyFinalized (id : OperationId)
  | channelClosed (id : OperationId)
  | registration (cause : ChannelError)
  | wait (cause : WaitError)
  deriving DecidableEq, Repr

namespace ClientError

/-- The text of a client's error. -/
def message : ClientError → String
  | channelUnavailable reason => "Channel unavailable: " ++ reason
  | serialization reason => "Failed to encode operation: " ++ reason
  | sendFailed id decision reason =>
    "Failed to send " ++ decision.text ++ " for operation " ++ id.text ++ ": " ++ reason
  | alreadyFinalized id => "Operation " ++ id.text ++ " already finalized"
  | channelClosed id => "Channel closed before operation " ++ id.text ++ " was prepared"
  | registration cause => "Failed to register client on channel: " ++ cause.message
  | wait cause => cause.message

/-- The text of the error behind a client's error, where there is one. The error of a wait is shown
as itself and so has none behind it. -/
def source? : ClientError → Option String
  | registration cause => some cause.message
  | _ => none

/-- The channel was never opened, or is closed by now. -/
def notOpen : ClientError := channelUnavailable "channel is not open"

/-- The client no longer takes operations. -/
def clientClosed : ClientError := channelUnavailable "client is closed"

end ClientError

/-- What a journal reports. -/
inductive JournalError where
  | storage (reason : String)
  | notFound (id : OperationId)
  deriving DecidableEq, Repr

/-- The text of a journal's error. -/
def JournalError.message : JournalError → String
  | .storage reason => "Storage error: " ++ reason
  | .notFound id => "Not found: " ++ id.text

end TwoPhase
