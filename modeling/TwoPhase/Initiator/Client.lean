import TwoPhase.Initiator.Config
import TwoPhase.Initiator.Mailbox
import TwoPhase.Initiator.OutcomeCell
import TwoPhase.Log.Note
import TwoPhase.Operation.Payload
import TwoPhase.Operation.Table
/-
The client: it submits operations, follows each of them through its two phases, passes on the
decisions of its callers and tells them how their operations end.

Callers, listeners, observers and the channel are all foreign code, and all of them may call the
client again while it is calling them, from the same thread or from others. So the client is given
as the moves it makes between two points where another thread may get in. A thread inside the client
is a stack of frames: what it still has to do (`Task`) and the foreign code that it is inside of
(`Upcall`). `Client.perform` makes one move; `Upcall.resume` says how the thread goes on when foreign
code has answered. What happens inside one move happens under one lock, and no lock is ever held
from one move to the next.
-/

set_option autoImplicit false

namespace TwoPhase

/-! ## State -/

/-- An operation that has not ended: what was asked, how far it has come, and its decision. -/
structure Pending where
  operation : Operation
  phase : Phase
  decision : Option Decision

/-- What an operation's caller is told through: the mailbox that orders the callbacks and the cell
that publishes the outcome. It outlives the pending entry, for as long as anyone holds a handle. -/
structure Delivery where
  listener : Listener
  sink : Sink
  mailbox : Mailbox Callback
  outcome : OutcomeCell

/-- The part of a handle that its copies share: the result of preparing, and whether any of them was
already asked to decide. -/
structure LiveHandle where
  result : Value
  asked : Bool

/-- The state that the threads inside a client share. -/
structure Client where
  config : Config
  nextId : OperationId
  closed : Bool
  pending : Table Pending
  deliveries : Table Delivery
  handles : Table LiveHandle
  stats : Stats

/-- A client that has not been used. -/
def Client.fresh (config : Config) : Client where
  config := config
  nextId := ⟨1⟩
  closed := false
  pending := .empty
  deliveries := .empty
  handles := .empty
  stats := {}

namespace Client

/-! ## Foreign code -/

/-- A call out of the client. -/
inductive Upcall where
  /-- Tells the observer. -/
  | observe (o : Observation)
  /-- Hands a message to the channel. -/
  | send (m : Outbound)
  /-- Calls the listener or, with a report, the sink of an operation. -/
  | notify (id : OperationId) (callback : Callback)
  /-- Calls a subscriber to the outcome of an operation. -/
  | outcome (id : OperationId) (tag : String) (o : Outcome)

/-- What foreign code answers. -/
inductive Answer where
  /-- It returned. -/
  | returned
  /-- It panicked, which the client survives in callbacks. -/
  | panicked
  /-- The channel took the message, or did not. -/
  | sent (result : Except ChannelError Unit)

/-- What a thread inside the client is about to do. -/
inductive Task where
  /-- Checks and encodes an operation for a listener; whether the channel is open was just asked. -/
  | submit (channelOpen : Bool) (listener : Listener) (operation : Operation)
  /-- Gives an encoded operation its identifier and its place in the table. -/
  | enlist (listener : Listener) (operation : Operation) (payload : List UInt8)
  /-- Learns whether the channel took a submission. -/
  | submissionSent (id : OperationId) (result : Except ChannelError Unit)
  /-- A handle is asked to decide. -/
  | decide (id : OperationId) (decision : Decision)
  /-- Records the decision of a prepared operation. -/
  | claim (id : OperationId) (decision : Decision)
  /-- Learns whether the channel took a decision. -/
  | decisionSent (id : OperationId) (decision : Decision) (result : Except ChannelError Unit)
  /-- Tells the caller of a handle how its request ended. -/
  | decided (id : OperationId) (decision : Decision) (result : Except ClientError Unit)
  /-- Takes a message that the channel delivers. -/
  | dispatch (m : Inbound)
  /-- Moves an operation to its prepared phase. -/
  | accept (id : OperationId) (result : Value)
  /-- Ends an operation; the kind is what the cause is called in the log. -/
  | finish (id : OperationId) (outcome : Outcome) (kind : String)
  /-- Passes a report on. -/
  | report (id : OperationId) (severity : Severity) (text : String)
  /-- Ends every pending operation. -/
  | sweep
  /-- Counts an observation and tells the observer. -/
  | announce (o : Observation)
  /-- Hands out the callbacks of an operation until none is left. -/
  | drain (id : OperationId)
  /-- Goes on after a callback. -/
  | called (id : OperationId) (callback : Callback) (panicked : Bool)
  /-- Publishes the outcome of an operation. -/
  | resolve (id : OperationId) (outcome : Outcome)
  /-- Adds a subscriber to the outcome of an operation. -/
  | subscribe (id : OperationId) (tag : String)
  /-- Enters foreign code. -/
  | raise (u : Upcall)

/-- One frame of a thread: something to do, or the foreign code it is inside of. -/
inductive Frame where
  | todo (t : Task)
  | inside (u : Upcall)

/-- How a thread goes on when foreign code has answered. -/
def Upcall.resume : Upcall → Answer → List Frame
  | .send (.execute id _), .sent result => [.todo (.submissionSent id result)]
  | .send (.execute id _), _ => [.todo (.submissionSent id (.ok ()))]
  | .send (.commit id), .sent result => [.todo (.decisionSent id .commit result)]
  | .send (.commit id), _ => [.todo (.decisionSent id .commit (.ok ()))]
  | .send (.rollback id), .sent result => [.todo (.decisionSent id .rollback result)]
  | .send (.rollback id), _ => [.todo (.decisionSent id .rollback (.ok ()))]
  | .notify id callback, .panicked => [.todo (.called id callback true)]
  | .notify id callback, _ => [.todo (.called id callback false)]
  | .observe _, _ => []
  | .outcome .., _ => []

/-! ## Moves -/

/-- What a move shows to the outside. -/
inductive Event where
  /-- A line for the log. -/
  | noted (n : Note)
  /-- A callback was decided on and queued. -/
  | queued (id : OperationId) (callback : Callback)
  /-- Foreign code was entered. -/
  | began (u : Upcall)
  /-- A caller learned how its submission ended; the identifier is the one it was given, if any. -/
  | submission (id : Option OperationId) (result : Except ClientError OperationId)
  /-- A caller learned how its decision ended. -/
  | decision (id : OperationId) (decision : Decision) (result : Except ClientError Unit)

/-- The effect of one move: the new state, the frames that take the place of the one that moved, and
what the move showed. -/
structure Stride where
  client : Client
  frames : List Frame
  events : List Event

/-- Changes the delivery of an operation. -/
def modifyDelivery (c : Client) (id : OperationId) (f : Delivery → Delivery) : Client :=
  { c with deliveries := c.deliveries.modify id f }

/-- Queues a callback and says whether whoever queued it must deliver. -/
def enqueue (c : Client) (id : OperationId) (callback : Callback) : Client × Bool :=
  match c.deliveries.get? id with
  | none => (c, false)
  | some d =>
    let (mailbox, owed) := d.mailbox.enqueue callback
    ({ c with deliveries := c.deliveries.insert id { d with mailbox := mailbox } }, owed)

/-- The frame of a deliverer, where delivery is owed. -/
def drainIf (id : OperationId) (owed : Bool) : List Frame :=
  if owed then [.todo (.drain id)] else []

/-- Adds one to a counter. -/
def count (c : Client) (counter : Counter) : Client := { c with stats := c.stats.count counter }

/-- A submission that was refused before it was given an identifier. -/
def refuse (c : Client) (e : ClientError) : Stride := ⟨c, [], [.submission none (.error e)]⟩

/-- Drops a message about an operation that is not pending. If this client submitted it the message
is merely late; otherwise it violates the protocol. -/
def drop (c : Client) (id : OperationId) (kind : String) : Stride :=
  if id < c.nextId then ⟨c.count .duplicates, [], [.noted (.late id kind)]⟩
  else
    ⟨c, [.todo (.announce (.violation (.unknownOperation id kind)))], [.noted (.unknown id kind)]⟩

/-- The observation of an operation's end. -/
def ended (id : OperationId) : Outcome → Observation
  | .completed _ => .completed id
  | .failed f => .failed id f

/-- The phase that an outcome leads to. -/
def finalPhase : Outcome → Phase
  | .completed _ => .completed
  | .failed _ => .failed

/-- Gives an operation an identifier, a place in the table and a delivery. -/
def enlist (c : Client) (listener : Listener) (operation : Operation) (payload : List UInt8) :
    Stride :=
  if c.closed then c.refuse .clientClosed
  else
    let id := c.nextId
    let client := { c with
      nextId := id.next
      pending := c.pending.insert id ⟨operation, .submitted, none⟩
      deliveries := c.deliveries.insert id ⟨listener, operation.sink, .idle, .vacant⟩ }
    ⟨client, [.todo (.announce (.submitted id)), .todo (.raise (.send (.execute id payload)))], []⟩

/-- A submission that the channel refused leaves the table, unless a sweep was faster: then the
listener has heard of its failure, and the caller has an operation that ended. -/
def submissionSent (c : Client) (id : OperationId) : Except ChannelError Unit → Stride
  | .ok () => ⟨c, [], [.submission (some id) (.ok id)]⟩
  | .error e =>
    let c := c.count .sendFailures
    if c.pending.contains id then
      ⟨{ c with pending := c.pending.erase id }, [],
        [.noted (.operationNotSent id e),
          .submission (some id) (.error (.channelUnavailable e.message))]⟩
    else
      ⟨c, [], [.noted (.sweptWhileSending id e), .submission (some id) (.ok id)]⟩

/-- The first request of any copy of a handle goes on to the table; every later one is refused. -/
def decide (c : Client) (id : OperationId) (d : Decision) : Stride :=
  match c.handles.get? id with
  | none => ⟨c, [.todo (.decided id d (.error (.alreadyFinalized id)))], []⟩
  | some handle =>
    if handle.asked then
      ⟨c, [.todo (.decided id d (.error (.alreadyFinalized id)))], [.noted (.decisionRepeated id d)]⟩
    else
      ⟨{ c with handles := c.handles.insert id { handle with asked := true } },
        [.todo (.claim id d)], []⟩

/-- A decision is taken down only for an operation that is prepared and has none yet. -/
def claim (c : Client) (id : OperationId) (d : Decision) : Stride :=
  match c.pending.get? id with
  | some entry =>
    if entry.phase = .prepared ∧ entry.decision = none then
      ⟨{ c with pending := c.pending.insert id { entry with decision := some d } },
        [.todo (.raise (.send (.decide id d)))], []⟩
    else ⟨c, [.todo (.decided id d (.error (.alreadyFinalized id)))], []⟩
  | none => ⟨c, [.todo (.decided id d (.error (.alreadyFinalized id)))], []⟩

/-- A decision that the channel refused ends the operation for that reason. -/
def decisionSent (c : Client) (id : OperationId) (d : Decision) :
    Except ChannelError Unit → Stride
  | .ok () =>
    ⟨c, [.todo (.announce (.decisionSent id d)), .todo (.decided id d (.ok ()))], []⟩
  | .error e =>
    ⟨c.count .sendFailures,
      [.todo (.finish id (.failed (.sendFailed d e.message)) "send_failed"),
        .todo (.decided id d (.error (.sendFailed id d e.message)))],
      [.noted (.decisionNotSent id d e)]⟩

/-- The task that an inbound message stands for. -/
def taskOf : Inbound → Task
  | .prepared id result => .accept id result
  | .completed id result => .finish id (.completed result) "completed"
  | .failed id failure => .finish id (.failed failure) "failed"
  | .report id severity text => .report id severity text
  | .channelClosed => .sweep

/-- Accepts the news that an operation is prepared: it changes phase, a handle comes into being, and
the callback that carries the handle is queued, all at once. -/
def accept (c : Client) (id : OperationId) (result : Value) : Stride :=
  match c.pending.get? id with
  | none => c.drop id "prepared"
  | some entry =>
    if entry.phase.allows .prepared then
      let c := { c with
        pending := c.pending.insert id { entry with phase := .prepared }
        handles := c.handles.insert id ⟨result, false⟩ }
      let (c, owed) := c.enqueue id (.prepared result)
      ⟨c, .todo (.announce (.prepared id)) :: drainIf id owed, [.queued id (.prepared result)]⟩
    else ⟨c.count .duplicates, [], [.noted (.preparedAgain id entry.phase)]⟩

/-- Ends an operation: it leaves the table, and its last callback is queued, all at once. A completion
of an operation that is not prepared violates the protocol and changes nothing. -/
def finish (c : Client) (id : OperationId) (outcome : Outcome) (kind : String) : Stride :=
  match c.pending.get? id with
  | none => c.drop id kind
  | some entry =>
    if entry.phase.allows (finalPhase outcome) then
      let c := { c with pending := c.pending.erase id }
      let (c, owed) := c.enqueue id outcome.callback
      ⟨c, .todo (.announce (ended id outcome)) :: drainIf id owed, [.queued id outcome.callback]⟩
    else
      let violation := Violation.completedBeforePrepared id
      ⟨c, [.todo (.announce (.violation violation))],
        [.noted (.outOfOrder id entry.phase violation)]⟩

/-- Queues a report for the sink of a pending operation; any other report is dropped. -/
def report (c : Client) (id : OperationId) (severity : Severity) (text : String) : Stride :=
  if c.pending.contains id then
    let (c, owed) := c.enqueue id (.report severity text)
    ⟨c, drainIf id owed, [.queued id (.report severity text)]⟩
  else ⟨c, [], [.noted (.reportDropped id)]⟩

/-- Queues the failure of each operation in a list and collects who must deliver. -/
def failAll : Client → List OperationId → Client × List (OperationId × Bool)
  | c, [] => (c, [])
  | c, id :: rest =>
    let (c, owed) := c.enqueue id (.failed .channelClosed)
    let (c, more) := failAll c rest
    (c, (id, owed) :: more)

/-- Closes the table: whatever is pending fails, in the order of submission, and nothing is taken in
any more. Only the first sweep is observed as the close of the channel. -/
def sweep (c : Client) : Stride :=
  let entries := c.pending.entries
  let cleared : Client := { c with closed := true, pending := .empty }
  let (swept, owed) := cleared.failAll c.pending.ids
  let first := if c.closed then [] else [Frame.todo (.announce (.channelClosed entries.length))]
  let each := owed.flatMap fun (id, mine) =>
    Frame.todo (.announce (.failed id .channelClosed)) :: drainIf id mine
  let notes := entries.map fun (id, entry) =>
    Event.noted (.failingPending id entry.phase entry.operation.request)
  let queued := entries.map fun (id, _) => Event.queued id (.failed .channelClosed)
  ⟨swept, first ++ each, notes ++ queued⟩

/-- Takes the next callback out of a mailbox, or stops being its deliverer. -/
def drain (c : Client) (id : OperationId) : Stride :=
  match c.deliveries.get? id with
  | none => ⟨c, [], []⟩
  | some d =>
    let (next, mailbox) := d.mailbox.pop
    let c := { c with deliveries := c.deliveries.insert id { d with mailbox := mailbox } }
    match next with
    | none => ⟨c, [], []⟩
    | some callback => ⟨c, [.todo (.raise (.notify id callback)), .todo (.drain id)], []⟩

/-- After the last callback of an operation its outcome is published; a panic is only noted. -/
def called (c : Client) (id : OperationId) (callback : Callback) (panicked : Bool) : Stride :=
  let frames := match callback.outcome? with
    | some o => [Frame.todo (.resolve id o)]
    | none => []
  let sink := match callback with
    | .report .. => "report"
    | other => other.kind
  ⟨c, frames, if panicked then [.noted (.callbackPanicked id sink)] else []⟩

/-- Publishes an outcome and calls the subscribers that waited for it. -/
def resolve (c : Client) (id : OperationId) (outcome : Outcome) : Stride :=
  match c.deliveries.get? id with
  | none => ⟨c, [], []⟩
  | some d =>
    let (cell, tags) := d.outcome.resolve outcome
    ⟨{ c with deliveries := c.deliveries.insert id { d with outcome := cell } },
      tags.map fun tag => .todo (.raise (.outcome id tag outcome)), []⟩

/-- Adds a subscriber, or calls it at once where the outcome is known. -/
def subscribe (c : Client) (id : OperationId) (tag : String) : Stride :=
  match c.deliveries.get? id with
  | none => ⟨c, [], []⟩
  | some d =>
    let (cell, known) := d.outcome.subscribe tag
    let frames := match known with
      | some o => [Frame.todo (.raise (.outcome id tag o))]
      | none => []
    ⟨{ c with deliveries := c.deliveries.insert id { d with outcome := cell } }, frames, []⟩

/-- One move of a thread whose topmost frame is a task. -/
def perform (c : Client) : Task → Stride
  | .submit channelOpen listener operation =>
    if channelOpen then
      match operation.payload.encode c.config.maxFrameBytes.toNat with
      | .error e => c.refuse (.serialization e.message)
      | .ok payload => ⟨c, [.todo (.enlist listener operation payload)], []⟩
    else c.refuse .notOpen
  | .enlist listener operation payload => c.enlist listener operation payload
  | .submissionSent id result => c.submissionSent id result
  | .decide id d => c.decide id d
  | .claim id d => c.claim id d
  | .decisionSent id d result => c.decisionSent id d result
  | .decided id d result => ⟨c, [], [.decision id d result]⟩
  | .dispatch m => ⟨c, [.todo (taskOf m)], [.noted (.inbound m.kind m.id?)]⟩
  | .accept id result => c.accept id result
  | .finish id outcome kind => c.finish id outcome kind
  | .report id severity text => c.report id severity text
  | .sweep => c.sweep
  | .announce o => ⟨c.count o.counter, [.todo (.raise (.observe o))], []⟩
  | .drain id => c.drain id
  | .called id callback panicked => c.called id callback panicked
  | .resolve id outcome => c.resolve id outcome
  | .subscribe id tag => c.subscribe id tag
  | .raise u => ⟨c, [.inside u], [.began u]⟩

/-! ## Questions about a client -/

/-- The phase of a pending operation. -/
def phaseOf (c : Client) (id : OperationId) : Option Phase := (c.pending.get? id).map (·.phase)

/-- The outcome cell of an operation. -/
def cell (c : Client) (id : OperationId) : OutcomeCell :=
  ((c.deliveries.get? id).map (·.outcome)).getD .vacant

/-- Releases the threads that wait for the outcome of an operation. -/
def interrupt (c : Client) (id : OperationId) : Client :=
  c.modifyDelivery id fun d => { d with outcome := d.outcome.interrupt }

/-- The description of a client. -/
def describe (c : Client) : String :=
  String.ofList <| Text.recorded "TransactionalClient"
    [("pending", Number.digits c.pending.size), ("closed", Text.truth c.closed)]

end Client

end TwoPhase
