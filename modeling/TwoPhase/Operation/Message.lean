import TwoPhase.Operation.Failure
/-
The messages between a client and a participant. Those of the client submit an operation or decide
one; those of the participant say how far an operation has come. The close of the channel reaches
the client as one more message of that second kind, about no operation in particular.
-/

set_option autoImplicit false

namespace TwoPhase

/-- From the client to the participant. -/
inductive Outbound where
  | execute (id : OperationId) (payload : List UInt8)
  | commit (id : OperationId)
  | rollback (id : OperationId)
  deriving DecidableEq

namespace Outbound

/-- The message that carries a decision. -/
def decide (id : OperationId) : Decision → Outbound
  | .commit => commit id
  | .rollback => rollback id

/-- The operation that a message is about. -/
def id : Outbound → OperationId
  | execute id _ | commit id | rollback id => id

/-- The short name of a message. -/
def kind : Outbound → String
  | execute .. => "execute"
  | commit _ => "commit"
  | rollback _ => "rollback"

/-- Whether a message decides an operation. -/
def isDecision : Outbound → Bool
  | execute .. => false
  | _ => true

end Outbound

/-- From the participant to the client, and the close of the channel. -/
inductive Inbound where
  | prepared (id : OperationId) (result : Value)
  | completed (id : OperationId) (result : Value)
  | failed (id : OperationId) (failure : Failure)
  | report (id : OperationId) (severity : Severity) (text : String)
  | channelClosed

namespace Inbound

/-- The operation that a message is about. -/
def id? : Inbound → Option OperationId
  | prepared id _ | completed id _ | failed id _ | report id _ _ => some id
  | channelClosed => none

/-- The short name of a message. -/
def kind : Inbound → String
  | prepared .. => "prepared"
  | completed .. => "completed"
  | failed .. => "failed"
  | report .. => "message"
  | channelClosed => "channel_closed"

/-- Equality of messages, with values compared as doubles have it. -/
def same : Inbound → Inbound → Bool
  | prepared i v, prepared j w => i == j && v.same w
  | completed i v, completed j w => i == j && v.same w
  | failed i f, failed j g => i == j && f == g
  | report i s t, report j u v => i == j && s == u && t == v
  | channelClosed, channelClosed => true
  | _, _ => false

end Inbound

end TwoPhase
