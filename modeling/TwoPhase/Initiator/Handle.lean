import TwoPhase.Initiator.Client
/-
Handles. A live handle belongs to an operation that was prepared, and lets its holder decide it and
follow it to its end. A failed handle stands in for an operation that never got prepared: it refuses
both decisions, and its outcome is the failure.
-/

set_option autoImplicit false

namespace TwoPhase

/-- What the caller of an operation holds once the first phase is over. -/
inductive Handle where
  | live (id : OperationId)
  | failed (id : OperationId) (failure : Failure)

namespace Handle

/-- The operation of a handle. -/
def id : Handle → OperationId
  | live id | failed id _ => id

/-- Why the operation of a failed handle never got prepared. -/
def failure? : Handle → Option Failure
  | live _ => none
  | failed _ f => some f

/-- The result of preparing; a failed handle shows its failure in the shape of a result. -/
def preparedResult (c : Client) : Handle → Value
  | live id => ((c.handles.get? id).map (·.result)).getD .undefined
  | failed _ f => Value.failed f.message

/-- Where the outcome of a handle's operation is published. -/
def cell (c : Client) : Handle → OutcomeCell
  | live id => c.cell id
  | failed _ f => .resolved (.failed f)

/-- The outcome, once it is known. -/
def outcome? (c : Client) (h : Handle) : Option Outcome := (h.cell c).outcome

/-- The bound on a wait for the outcome when the caller gives none. -/
def defaultTimeout (c : Client) : Handle → Span
  | live _ => c.config.finalOutcomeTimeout
  | failed .. => Config.finalOutcomeTimeout {}

/-- The description of a handle. -/
def describe (c : Client) (h : Handle) : String :=
  String.ofList <| Text.recorded "PreparedOperation"
    [("id", h.id.describe), ("prepared_result", (h.preparedResult c).describe),
      ("failure", Text.optional (h.failure?.map Failure.describe)),
      ("done", Text.truth (h.outcome? c).isSome)]

end Handle

/-- Where a caller waits for its operation to be prepared. The first handle that arrives stays; an
interrupt is kept until a wait takes it. -/
structure PreparedSlot where
  handle : Option Handle
  interrupted : Bool

namespace PreparedSlot

/-- Nothing arrived yet. -/
def vacant : PreparedSlot := ⟨none, false⟩

/-- A handle arrives; only the first one counts. -/
def fill (s : PreparedSlot) (h : Handle) : PreparedSlot :=
  match s.handle with
  | some _ => s
  | none => { s with handle := some h }

/-- The operation of the slot ends before it was prepared, or after. -/
def fail (s : PreparedSlot) (id : OperationId) (f : Failure) : PreparedSlot := s.fill (.failed id f)

/-- Releases the wait, or the next one. -/
def interrupt (s : PreparedSlot) : PreparedSlot := { s with interrupted := true }

/-- Whether a handle arrived. -/
def isReady (s : PreparedSlot) : Bool := s.handle.isSome

/-- What a waiter sees: the handle before anything else, then an interrupt, which it takes away, and
otherwise nothing yet. -/
def poll (s : PreparedSlot) : Option (Except WaitError Handle) × PreparedSlot :=
  match s.handle with
  | some h => (some (.ok h), s)
  | none => if s.interrupted then (some (.error .interrupted), ⟨none, false⟩) else (none, s)

/-- The slot after a callback of its operation. Completions and reports leave it alone. -/
def notify (s : PreparedSlot) (id : OperationId) : Callback → PreparedSlot
  | .prepared _ => s.fill (.live id)
  | .failed f => s.fail id f
  | _ => s

end PreparedSlot

/-- How a blocking submission ends when its wait has: a handle that failed because the channel went
away is the loss of the channel, every other handle is returned. -/
def Handle.orChannelLost (id : OperationId) (h : Handle) : Except ClientError Handle :=
  match h.failure? with
  | some f => if f.isChannelClosed then .error (.channelClosed id) else .ok h
  | none => .ok h

end TwoPhase
