import TwoPhase.Initiator.Mailbox
import TwoPhase.Participant.Journal
/-
Scripts. A rehearsal runs a client, a channel and a participant without a network, and a script says
what their surroundings do: which calls are made from outside, and what the foreign code does while
it is called. A step may hold further steps, which are taken while a caller waits.
-/

set_option autoImplicit false

namespace TwoPhase

/-! ## Recorders -/

/-- What a recorder does with the handle of an operation that got prepared. -/
inductive Policy where
  /-- It keeps the handle for others to decide. -/
  | hold
  /-- It commits from inside the callback. -/
  | commit
  /-- It rolls back from inside the callback. -/
  | rollback
  deriving DecidableEq, Repr

/-- The decision that a policy makes on its own. -/
def Policy.decision? : Policy → Option Decision
  | .hold => none
  | .commit => some .commit
  | .rollback => some .rollback

/-- A listener that keeps every callback in order, and the operation it was last handed. -/
structure Recorder where
  policy : Policy
  events : List (OperationId × Callback)
  prepared : Option OperationId

namespace Recorder

/-- A recorder that heard nothing yet. -/
def fresh (policy : Policy) : Recorder := ⟨policy, [], none⟩

/-- Takes a callback down. -/
def hear (r : Recorder) (id : OperationId) (callback : Callback) : Recorder :=
  let prepared := match callback with
    | .prepared _ => some id
    | _ => r.prepared
  { r with events := r.events ++ [(id, callback)], prepared := prepared }

/-- How many operations the recorder saw end. -/
def terminalCount (r : Recorder) : Nat := r.events.countP fun e => e.2.outcome?.isSome

end Recorder

/-! ## Steps -/

namespace Rehearsal

/-- One thing that a script does. Recorders, collectors, handles, futures and captures go by name. -/
inductive Step where
  -- at the client
  | execute (recorder : String) (policy : Policy) (operation : Operation)
  | executeBlocking (handle : String) (operation : Operation) (during : List Step)
  | closeClient
  | dropClient
  | secondClient
  | phaseOf (id : OperationId)
  | status
  -- with a handle
  | decide (handle : String) (decision : Decision)
  | inspect (handle : String)
  | describe (handle : String)
  | subscribe (handle tag : String)
  | await (handle : String) (bound : Option Span) (during : List Step)
  | interrupt (handle : String)
  | future (handle name : String)
  | poll (future : String)
  -- on the channel
  | deliver (m : Inbound)
  | closeChannel
  | refuseSends (on : Bool)
  | isOpen
  | sent
  | decisionsSent (id : OperationId)
  | capture (name : String)
  | send (m : Outbound)
  -- at the participant
  | participant (name : String)
  | receive (m : Outbound)
  | committed (name : String)
  | finalize (id : OperationId) (decision : Decision)
  | read (id : OperationId)
  | operations
  | recover
  -- among the bystanders
  | recorder (name : String)
  | reports (collector : String)

mutual

/-- How much work a step can cause: what it holds, and the size of what it submits. -/
def Step.weight : Step → Nat
  | .execute _ _ op => 1 + op.request.weight
  | .executeBlocking _ op during => 1 + op.request.weight + Step.weights during
  | .await _ _ during => 1 + Step.weights during
  | .send m | .receive m =>
    match m with
    | .execute _ payload => 1 + payload.length
    | _ => 1
  | _ => 1

/-- The weight of all steps. -/
def Step.weights : List Step → Nat
  | [] => 0
  | s :: rest => s.weight + Step.weights rest

end

/-! ## Hooks -/

/-- What foreign code does the first time it is reached under a name. A hook is used up by that. -/
structure Hook where
  name : String
  steps : List Step
  /-- Whether the callback panics after the steps. -/
  panics : Bool
  /-- The error with which a send ends after the steps. -/
  error : Option ChannelError

/-- Takes the first hook of a name out of a list. -/
def Hook.take? (name : String) : List Hook → Option (Hook × List Hook)
  | [] => none
  | h :: rest =>
    if h.name = name then some (h, rest) else (take? name rest).map fun (g, others) => (g, h :: others)

end Rehearsal

end TwoPhase
