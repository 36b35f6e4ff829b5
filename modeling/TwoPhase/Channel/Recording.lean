import TwoPhase.Operation.Message
/-
A channel that keeps what is sent over it, for a participant that is played by someone else. It can
be closed, and told to refuse messages.
-/

set_option autoImplicit false

namespace TwoPhase

/-- A channel without a far end. -/
structure RecordingChannel where
  isOpen : Bool
  refusing : Bool
  sent : List Outbound

namespace RecordingChannel

/-- An open channel over which nothing was sent. -/
def fresh : RecordingChannel := ⟨true, false, []⟩

/-- A channel that was never opened. -/
def unopened : RecordingChannel := ⟨false, false, []⟩

/-- Keeps a message, unless the channel is closed or refuses it. -/
def send (c : RecordingChannel) (m : Outbound) : Except ChannelError Unit × RecordingChannel :=
  if c.isOpen then
    if c.refusing then (.error (.refused "connection reset by peer"), c)
    else (.ok (), { c with sent := c.sent ++ [m] })
  else (.error .closed, c)

/-- A channel keeps a message that it takes, and nothing of one that it refuses. -/
theorem send_cases (c : RecordingChannel) (m : Outbound) :
    c.send m = (.ok (), { c with sent := c.sent ++ [m] }) ∨ ∃ e, c.send m = (.error e, c) := by
  rw [send]
  split
  · split
    · exact Or.inr ⟨_, rfl⟩
    · exact Or.inl rfl
  · exact Or.inr ⟨_, rfl⟩

/-- How many decisions were sent for an operation. -/
def decisionsSent (c : RecordingChannel) (id : OperationId) : Nat :=
  c.sent.countP fun m => m.isDecision && m.id == id

end RecordingChannel

/-- The channels that need no network: one that keeps what is sent, and one whose far end is a
participant in the same process, which has answered by the time a message counts as sent. -/
inductive Channel where
  | recording (c : RecordingChannel)
  | loopback (isOpen : Bool)

namespace Channel

/-- Whether a channel is open. -/
def isOpen : Channel → Bool
  | recording c => c.isOpen
  | loopback isOpen => isOpen

/-- The channel after it was closed. -/
def close : Channel → Channel
  | recording c => recording { c with isOpen := false }
  | loopback _ => loopback false

end Channel

end TwoPhase
