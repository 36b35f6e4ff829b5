import TwoPhase.Initiator.Handle
import TwoPhase.Participant.Handler
import TwoPhase.Rehearsal.Script
/-
What a rehearsal shows: the reply to each step, and the occurrences in between, in their order.
-/

set_option autoImplicit false

namespace TwoPhase.Rehearsal

/-! ## Replies -/

/-- Why a step could not do what it says. -/
inductive Refusal where
  /-- There is no client. -/
  | noClient
  /-- Nobody holds a handle of that name. -/
  | noHandle
  | client (e : ClientError)
  | channel (e : ChannelError)
  | journal (e : JournalError)

/-- What a handle shows. -/
structure HandleInfo where
  id : OperationId
  preparedResult : Value
  failure : Option Failure
  outcome : Option Outcome

/-- What a handle shows at a client. -/
def HandleInfo.of (c : Client) (h : Handle) : HandleInfo :=
  ⟨h.id, h.preparedResult c, h.failure?, h.outcome? c⟩

/-- What a client shows. -/
structure ClientStatus where
  pending : Nat
  closed : Bool
  stats : Stats
  description : String
  maxFrameBytes : UInt64

/-- What a client shows. -/
def ClientStatus.of (c : Client) : ClientStatus :=
  ⟨c.pending.size, c.closed, c.stats, c.describe, c.config.maxFrameBytes⟩

/-- The answer to a step. -/
inductive Reply where
  | nothing
  /-- It was done. -/
  | agreed
  | refused (r : Refusal)
  /-- It is not known yet. -/
  | notYet
  | operation (id : OperationId)
  | operations (ids : List OperationId)
  | count (n : Nat)
  | truth (b : Bool)
  | text (s : String)
  | phase (p : Option Phase)
  | value (v : Option Value)
  | outcome (o : Outcome)
  | handle (h : HandleInfo)
  | status (s : ClientStatus)
  | messages (ms : List Outbound)
  | participant (prepared : List OperationId) (committed : Option Value)
  | entries (es : List JournalEntry)
  | recorder (r : Option Recorder)
  | reports (rs : Option (List Report))

namespace Reply

/-- The reply for a request that ends well with `f`, or not. -/
def ofClient {α : Type} (f : α → Reply) : Except ClientError α → Reply
  | .ok a => f a
  | .error e => .refused (.client e)

/-- The reply for a question to a journal. -/
def ofJournal {α : Type} (f : α → Reply) : Except JournalError α → Reply
  | .ok a => f a
  | .error e => .refused (.journal e)

/-- The reply for a send. -/
def ofSend : Except ChannelError Unit → Reply
  | .ok () => .agreed
  | .error e => .refused (.channel e)

end Reply

/-! ## Occurrences -/

/-- Something that is seen while a step runs. -/
inductive Occurrence where
  /-- A line of the log. -/
  | noted (n : Note)
  /-- The observer was called. -/
  | observed (o : Observation)
  /-- The client handed a message to the channel. -/
  | sent (m : Outbound)
  /-- The channel did not take it. -/
  | notSent (m : Outbound) (e : ChannelError)
  /-- A recorder was called. -/
  | told (recorder : String) (id : OperationId) (callback : Callback)
  /-- A collector was called. -/
  | reported (collector : String) (r : Report)
  /-- A subscriber to an outcome was called. -/
  | outcome (tag : String) (o : Outcome)
  /-- A step inside a callback was answered. -/
  | hooked (hook : String) (r : Reply)
  /-- A step during a wait was answered. -/
  | meanwhile (r : Reply)
  /-- A message reached a capture, by its number. -/
  | received (capture : Nat) (m : Inbound)

/-- The notes among occurrences. -/
def Occurrence.notes (os : List Occurrence) : List Note :=
  os.filterMap fun
    | .noted n => some n
    | _ => none

end TwoPhase.Rehearsal
