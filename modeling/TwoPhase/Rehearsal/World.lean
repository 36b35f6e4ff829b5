import TwoPhase.Channel.Recording
import TwoPhase.Participant.Endpoint
import TwoPhase.Participant.FaultyJournal
import TwoPhase.Participant.Handler
import TwoPhase.Rehearsal.Record
/-
The world of a rehearsal: a client, a channel, a participant and everyone around them. One thread
runs through all of them, so there is one stack of frames; whoever calls someone else pushes what the
other one has to do on top of how it goes on itself.
-/

set_option autoImplicit false

namespace TwoPhase.Rehearsal

/-! ## Surroundings -/

/-- Whether the script's client exists. -/
inductive Connection where
  /-- It could not register, or was never asked to. -/
  | absent
  | held
  /-- It is being dropped. -/
  | leaving
  | dropped
  deriving DecidableEq, Repr

/-- Who gets what arrives over the channel. -/
inductive Receiver where
  | client
  | capture (number : Nat)
  deriving DecidableEq, Repr

/-- What the observer of the client does with each call. -/
structure Observer where
  /-- It shows the call and then runs its hook. -/
  shows : Bool
  /-- It writes to the log. -/
  logs : Bool

/-- Where the reply of an inner step is shown. -/
inductive Place where
  | hook (name : String)
  | wait

/-- What the surroundings are about to do. -/
inductive Act where
  /-- Takes a step. -/
  | step (s : Step)
  /-- Shows the reply of an inner step. -/
  | publish (p : Place)
  /-- Gives the reply of the step that is under way. -/
  | give (r : Reply)
  /-- Runs the hook of a name, if one is left, and then returns into the client. -/
  | leave (hook : String) (u : Client.Upcall)
  /-- Runs the hook of a name, if one is left. -/
  | cue (hook : String)
  /-- Returns into the client. -/
  | answer (u : Client.Upcall) (a : Client.Answer)
  /-- Returns into the participant. -/
  | answerEndpoint (u : Endpoint.Upcall) (a : Endpoint.Answer)
  /-- Hands a message to the channel; a hook may have an error in store. -/
  | transmit (m : Outbound) (error : Option ChannelError)
  /-- Lets the handler decide on a request after its reports were made. -/
  | conclude (id : OperationId) (payload : Payload)
  /-- Notes that the decision of a recorder was refused. -/
  | noteRefusal (id : OperationId)
  /-- Goes on with a wait for an outcome: what was seen so far, and the steps left to take. -/
  | awaiting (h : Handle) (since : UInt64) (bound : Span)
      (seen : Option (Except WaitError Outcome)) (during : List Step)
  /-- Learns how a blocking submission began. -/
  | blocking (slot : Nat) (handle : String) (during : List Step)
  /-- Goes on with a wait for a prepared operation. -/
  | retrieving (slot : Nat) (id : OperationId) (handle : String)
      (seen : Option (Except WaitError Handle)) (during : List Step)
  /-- The client is gone. -/
  | left

/-- One frame of the thread. -/
inductive Frame where
  | client (f : Client.Frame)
  | endpoint (f : Endpoint.Frame)
  | act (a : Act)

/-- How the participant of a rehearsal handles requests, and what it shows of its state. -/
structure Stage (σ : Type) where
  handler : Handler σ
  committed : σ → String → Option Value

/-! ## The world -/

/-- Everything that a rehearsal remembers. Occurrences are kept in reverse. -/
structure World (σ : Type) where
  client : Client
  connection : Connection
  observer : Observer
  channel : Channel
  receiver : Option Receiver
  endpoint : Endpoint
  journal : FaultyJournal
  store : σ
  recorders : List (String × Recorder)
  collectors : List (String × List Report)
  /-- The captures that names stand for, by number. -/
  captures : List (String × Nat)
  /-- How many captures there are. -/
  captureCount : Nat
  handles : List (String × Handle)
  futures : List (String × Handle)
  slots : List PreparedSlot
  hooks : List Hook
  stack : List Frame
  reply : Reply
  seen : List Occurrence

namespace World

variable {σ : Type}

/-- A world in which nothing happened yet. -/
def fresh (channel : Channel) (journal : FaultyJournal) (store : σ) (hooks : List Hook) : World σ where
  client := .fresh {}
  connection := .absent
  observer := ⟨false, false⟩
  channel := channel
  receiver := none
  endpoint := .fresh
  journal := journal
  store := store
  recorders := []
  collectors := []
  captures := []
  captureCount := 0
  handles := []
  futures := []
  slots := []
  hooks := hooks
  stack := []
  reply := .nothing
  seen := []

/-- Something is seen. -/
def see (w : World σ) (o : Occurrence) : World σ := { w with seen := o :: w.seen }

/-- A line of the log is seen. -/
def note (w : World σ) (n : Note) : World σ := w.see (.noted n)

/-- Puts frames on top of the stack. -/
def push (w : World σ) (frames : List Frame) : World σ := { w with stack := frames ++ w.stack }

/-- Puts things for the surroundings to do on top of the stack. -/
def act (w : World σ) (acts : List Act) : World σ := w.push (acts.map .act)

/-- Sets the reply of the step that is under way. -/
def answer (w : World σ) (r : Reply) : World σ := { w with reply := r }

/-! ## Questions -/

/-- The client, while the script holds it. -/
def held? (w : World σ) : Option Client :=
  match w.connection with
  | .held => some w.client
  | _ => none

/-- Whether anyone still keeps the client's state alive: the script, or a handle of a prepared
operation. -/
def isReachable (w : World σ) : Bool :=
  match w.connection with
  | .held | .leaving => true
  | _ =>
    (w.handles ++ w.futures).any (fun h => h.2.failure?.isNone) ||
      w.recorders.any (fun r => r.2.prepared.isSome)

/-- The handle of a name. -/
def handle? (w : World σ) (name : String) : Option Handle := w.handles.lookup name

/-- What a waiter's slot holds. -/
def slot (w : World σ) (n : Nat) : PreparedSlot := w.slots.getD n .vacant

/-! ## Changes -/

/-- Changes a waiter's slot. -/
def modifySlot (w : World σ) (n : Nat) (f : PreparedSlot → PreparedSlot) : World σ :=
  { w with slots := w.slots.modify n f }

/-- Keeps a handle under a name. -/
def keep (w : World σ) (name : String) (h : Handle) : World σ :=
  { w with handles := Named.put name h w.handles }

/-- The recorder of a name exists from its first use on; its policy stays what it was then. -/
def enlistRecorder (w : World σ) (name : String) (policy : Policy) : World σ :=
  { w with recorders := Named.update name (Recorder.fresh policy) id w.recorders }

/-- The collector of a sink exists from its first use on. -/
def enlistSink (w : World σ) : Sink → World σ
  | .collector name => { w with collectors := Named.update name [] id w.collectors }
  | _ => w

/-- Registers a receiver on the channel, which takes only one. -/
def register (w : World σ) (r : Receiver) : Except ChannelError (World σ) :=
  match w.receiver with
  | some _ => .error .alreadyRegistered
  | none => .ok { w with receiver := some r }

/-- Builds a client and registers it on the channel. -/
def connect (w : World σ) (config : Config) (observer : Observer) : World σ × Except ClientError Unit :=
  match w.register .client with
  | .error e => (w, .error (.registration e))
  | .ok w =>
    (({ w with client := .fresh config, connection := .held, observer := observer }).note .registered,
      .ok ())

/-- Adds a capture, which the name then stands for even if the channel refuses it. -/
def addCapture (w : World σ) (name : String) : World σ × Except ChannelError Unit :=
  let n := w.captureCount
  let w := { w with captures := Named.put name n w.captures, captureCount := n + 1 }
  match w.register (.capture n) with
  | .error e => (w, .error e)
  | .ok w => (w, .ok ())

end World

end TwoPhase.Rehearsal
