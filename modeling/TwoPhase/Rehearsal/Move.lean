import TwoPhase.Rehearsal.World
/-
The moves of a rehearsal. Client and participant make their own moves; here the foreign code around
them gets its part: the observer, recorders and collectors, the channel, the handler and the journal,
and the script. Every call that one of them makes into another is a frame pushed on the stack, so a
callback that calls back is nothing special.
-/

set_option autoImplicit false

namespace TwoPhase.Rehearsal

/-! ## Names of hooks -/

/-- The short name of an observation. -/
def observationName : Observation → String
  | .submitted _ => "submitted"
  | .prepared _ => "prepared"
  | .decisionSent .. => "decision_sent"
  | .completed _ => "completed"
  | .failed .. => "failed"
  | .violation _ => "violation"
  | .channelClosed _ => "channel_closed"

/-- The hook that is run before a message is handed to the channel. -/
def sendHook (m : Outbound) : String := "send:" ++ m.kind

/-- The hook of a call of the observer. -/
def observerHook (o : Observation) : String := "observer:" ++ observationName o

/-- The hook of a call of a recorder. -/
def recorderHook (name : String) (callback : Callback) : String := callback.kind ++ ":" ++ name

/-- The hook of a call of a collector. -/
def sinkHook (name : String) : String := "sink:" ++ name

/-- The hook of a call of a subscriber. -/
def outcomeHook (tag : String) : String := "outcome:" ++ tag

/-- Only callbacks survive a panic; whoever else is called always returns. -/
def mayPanic : Client.Upcall → Bool
  | .notify .. => true
  | _ => false

namespace World

variable {σ : Type}

/-! ## Hooks -/

/-- Takes the first hook of a name, if one is left. -/
def takeHook (w : World σ) (name : String) : World σ × Option Hook :=
  match Hook.take? name w.hooks with
  | some (h, rest) => ({ w with hooks := rest }, some h)
  | none => (w, none)

/-- Takes steps one after the other and shows each reply. -/
def stepsAt (p : Place) (steps : List Step) : List Act :=
  steps.flatMap fun s => [.step s, .publish p]

/-- The steps of a hook. -/
def hookActs (name : String) : Option Hook → List Act
  | some h => stepsAt (.hook name) h.steps
  | none => []

/-- Runs a hook. -/
def runHook (w : World σ) (name : String) : World σ :=
  let (w, hook) := w.takeHook name
  w.act (hookActs name hook)

/-- Runs a hook and then returns into the client, by a panic if the hook says so. -/
def leave (w : World σ) (name : String) (u : Client.Upcall) : World σ :=
  let (w, hook) := w.takeHook name
  let panics := mayPanic u && (hook.map (·.panics)).getD false
  w.act (hookActs name hook ++ [.answer u (if panics then .panicked else .returned)])

/-! ## Messages -/

/-- Passes a message to whoever is registered on the channel. A client that nobody can reach any more
does not hear it. -/
def pass (w : World σ) (m : Inbound) : World σ :=
  match w.receiver with
  | none => w
  | some .client =>
    if w.isReachable then w.push [.client (.todo (.dispatch m))] else w.note (.clientGone m.kind)
  | some (.capture n) => (w.see (.received n m)).act [.cue m.kind]

/-- Passes on a message that arrives over the channel from afar. -/
def arrive (w : World σ) (m : Inbound) : World σ :=
  match w.channel, w.receiver with
  | .recording _, none => w.note (.noHandler m.kind)
  | _, _ => w.pass m

/-- Hands a message to the channel. Whether the channel takes it is known at once; what the far end
then has to do comes before the sender goes on. -/
def carry (w : World σ) (m : Outbound) : World σ × List Frame × Except ChannelError Unit :=
  match w.channel with
  | .recording c =>
    let (result, c) := c.send m
    ({ w with channel := .recording c }, [], result)
  | .loopback isOpen =>
    if isOpen ∧ w.receiver.isSome then (w, [.endpoint (.todo (.receive m))], .ok ())
    else (w, [], .error .closed)

/-- Shows that a message was not taken, if it was not. -/
def seeSent (w : World σ) (m : Outbound) : Except ChannelError Unit → World σ
  | .ok () => w
  | .error e => w.see (.notSent m e)

/-- Hands a message of the client to the channel, unless a hook has an error for it. -/
def transmit (w : World σ) (m : Outbound) (error : Option ChannelError) : World σ :=
  let w := w.see (.sent m)
  let (w, far, result) : World σ × List Frame × Except ChannelError Unit := match error with
    | some e => (w, [], .error e)
    | none => w.carry m
  (w.seeSent m result).push (far ++ [.act (.answer (.send m) (.sent result))])

/-! ## Calls out of the client -/

/-- The observer is called. -/
def observe (w : World σ) (o : Observation) : World σ :=
  let w := if w.observer.shows then w.see (.observed o) else w
  let w := if w.observer.logs then w.note (.observed o) else w
  if w.observer.shows then w.act [.leave (observerHook o) (.observe o)]
  else w.act [.answer (.observe o) .returned]

/-- A recorder is called. It decides by its policy before its hook is run. -/
def tellRecorder (w : World σ) (name : String) (id : OperationId) (callback : Callback) : World σ :=
  let w := w.see (.told name id callback)
  let r := (w.recorders.lookup name).getD (.fresh .hold)
  let w := { w with recorders := Named.put name (r.hear id callback) w.recorders }
  let after := Frame.act (.leave (recorderHook name callback) (.notify id callback))
  match callback with
  | .prepared _ =>
    let w := w.keep name (.live id)
    match r.policy.decision? with
    | none => w.push [after]
    | some d => w.push [.client (.todo (.decide id d)), .act (.noteRefusal id), after]
  | _ => w.push [after]

/-- A waiter is called. -/
def tellWaiter (w : World σ) (n : Nat) (id : OperationId) (callback : Callback) : World σ :=
  let w := w.modifySlot n fun s => s.notify id callback
  let w := match callback with
    | .complete _ => w.note (.waiterSawCompletion id)
    | _ => w
  w.act [.answer (.notify id callback) .returned]

/-- The sink of an operation gets a report. -/
def tellSink (w : World σ) (sink : Sink) (id : OperationId) (r : Report) : World σ :=
  let u := Client.Upcall.notify id (.report r.severity r.text)
  match sink with
  | .discard => w.act [.answer u .returned]
  | .log => (w.note (.reported r.severity r.text)).act [.answer u .returned]
  | .collector name =>
    let w := w.see (.reported name r)
    let w := { w with collectors := Named.update name [] (· ++ [r]) w.collectors }
    (w.note (.reported r.severity r.text)).act [.leave (sinkHook name) u]

/-- A callback of an operation goes to its listener, and a report to its sink. -/
def notify (w : World σ) (id : OperationId) (callback : Callback) : World σ :=
  match w.client.deliveries.get? id, callback with
  | some d, .report severity text => w.tellSink d.sink id ⟨severity, text⟩
  | some d, _ =>
    match d.listener with
    | .recorder name => w.tellRecorder name id callback
    | .waiter n => w.tellWaiter n id callback
  | none, _ => w.act [.answer (.notify id callback) .returned]

/-- Foreign code is entered from the client. -/
def enter (w : World σ) : Client.Upcall → World σ
  | .observe o => w.observe o
  | .send m =>
    let (w, hook) := w.takeHook (sendHook m)
    w.act (hookActs (sendHook m) hook ++ [.transmit m (hook.bind (·.error))])
  | .notify id callback => w.notify id callback
  | .outcome id tag o =>
    (w.see (.outcome tag o)).act [.leave (outcomeHook tag) (.outcome id tag o)]

/-- What a move of the client shows. The end of a request is the reply of the step that made it. -/
def seeEvent (w : World σ) : Client.Event → World σ
  | .noted n => w.note n
  | .submission _ result => w.answer (.ofClient .operation result)
  | .decision _ _ result => w.answer (.ofClient (fun _ => .agreed) result)
  | .queued .. | .began _ => w

/-- The client moves. -/
def moveClient (w : World σ) : Client.Frame → World σ
  | .todo t =>
    let s := w.client.perform t
    let w := s.events.foldl seeEvent { w with client := s.client }
    w.push (s.frames.map .client)
  | .inside u => w.enter u

/-! ## Calls out of the participant -/

/-- The time in a rehearsal, which stands still. -/
def now : UInt64 := 0

/-- The participant goes on after foreign code has answered. -/
def resumeEndpoint (w : World σ) (u : Endpoint.Upcall) (a : Endpoint.Answer) : World σ :=
  w.push ((u.resume a).map .endpoint)

/-- Foreign code is entered from the participant. -/
def enterEndpoint (w : World σ) (stage : Stage σ) : Endpoint.Upcall → World σ
  | .prepare id p =>
    let reports := stage.handler.reports w.store id p
    w.push (reports.map (fun r => .endpoint (.todo (.raise (.reply (.report id r.severity r.text)))))
      ++ [.act (.conclude id p)])
  | .finalize t d =>
    let (result, store) := stage.handler.finalize w.store t.id d
    { w with store := store }.resumeEndpoint (.finalize t d) (.handled result)
  | .record id event =>
    let (result, journal) := w.journal.append id event now
    { w with journal := journal }.resumeEndpoint (.record id event) (.journaled result)
  | .reply m => (w.act [.answerEndpoint (.reply m) .returned]).pass m

/-- The participant moves. -/
def moveEndpoint (w : World σ) (stage : Stage σ) : Endpoint.Frame → World σ
  | .todo t =>
    let s := w.endpoint.perform now t
    let w := s.notes.foldl note { w with endpoint := s.endpoint }
    w.push (s.frames.map .endpoint)
  | .inside u => w.enterEndpoint stage u

/-! ## The script -/

/-- Does something with the client, if the script holds one. -/
def withClient (w : World σ) (f : Client → World σ) : World σ :=
  match w.held? with
  | some c => f c
  | none => w.answer (.refused .noClient)

/-- Does something with the handle of a name, if there is one. -/
def withHandle (w : World σ) (name : String) (f : Handle → World σ) : World σ :=
  match w.handle? name with
  | some h => f h
  | none => w.answer (.refused .noHandle)

/-- Does something and replies with nothing afterwards. -/
def silently (w : World σ) (frames : List Frame) : World σ :=
  w.push (frames ++ [.act (.give .nothing)])

/-- Submits an operation for a listener. -/
def submit (w : World σ) (listener : Listener) (operation : Operation) : Frame :=
  .client (.todo (.submit w.channel.isOpen listener operation))

/-- Takes a step that concerns the client. -/
def stepAtClient (w : World σ) : Step → World σ
  | .execute name policy op =>
    w.withClient fun _ =>
      let w := (w.enlistRecorder name policy).enlistSink op.sink
      w.push [w.submit (.recorder name) op]
  | .executeBlocking name op during =>
    w.withClient fun _ =>
      let n := w.slots.length
      let w := { w.enlistSink op.sink with slots := w.slots ++ [PreparedSlot.vacant] }
      w.push [w.submit (.waiter n) op, .act (.blocking n name during)]
  | .closeClient => w.withClient fun _ => w.silently [.client (.todo .sweep)]
  | .dropClient =>
    match w.held? with
    | none => w.answer .nothing
    | some _ =>
      { w with connection := .leaving }.push [.client (.todo .sweep), .act .left]
  | .secondClient =>
    match w.register .client with
    | .error e => w.answer (.refused (.client (.registration e)))
    | .ok _ => w.answer (.count 0)
  | .phaseOf id => w.withClient fun c => w.answer (.phase (c.phaseOf id))
  | .status => w.withClient fun c => w.answer (.status (.of c))
  | _ => w

/-- Takes a step that concerns a handle. -/
def stepAtHandle (w : World σ) : Step → World σ
  | .decide name d =>
    w.withHandle name fun
      | .live id => w.push [.client (.todo (.decide id d))]
      | .failed id _ => w.answer (.refused (.client (.alreadyFinalized id)))
  | .inspect name => w.withHandle name fun h => w.answer (.handle (.of w.client h))
  | .describe name => w.withHandle name fun h => w.answer (.text (h.describe w.client))
  | .subscribe name tag =>
    w.withHandle name fun
      | .live id => w.silently [.client (.todo (.subscribe id tag))]
      | .failed id f =>
        w.silently [.client (.todo (.raise (.outcome id tag (.failed f))))]
  | .await name bound during =>
    w.withHandle name fun h =>
      w.act [.awaiting h (h.cell w.client).interrupts (bound.getD (h.defaultTimeout w.client)) none
        during]
  | .interrupt name =>
    w.withHandle name fun h =>
      match h with
      | .live id => { w with client := w.client.interrupt id }.answer .nothing
      | .failed .. => w.answer .nothing
  | .future name future =>
    w.withHandle name fun h =>
      { w with futures := Named.put future h w.futures }.answer .nothing
  | .poll future =>
    match w.futures.lookup future with
    | none => w.answer (.refused .noHandle)
    | some h =>
      w.answer <| match h.outcome? w.client with
        | some o => .outcome o
        | none => .notYet
  | _ => w

/-- Asks something of a channel that keeps what is sent; other channels have no answer. -/
def askRecording (w : World σ) (f : RecordingChannel → World σ) : World σ :=
  match w.channel with
  | .recording c => f c
  | .loopback _ => w.answer .nothing

/-- Takes a step that concerns the channel. -/
def stepAtChannel (w : World σ) : Step → World σ
  | .deliver m => w.askRecording fun _ => (w.act [.give .nothing]).arrive m
  | .closeChannel =>
    ({ w with channel := w.channel.close }.act [.give .nothing]).arrive .channelClosed
  | .refuseSends on =>
    w.askRecording fun c => { w with channel := .recording { c with refusing := on } }.answer .nothing
  | .isOpen => w.answer (.truth w.channel.isOpen)
  | .sent => w.askRecording fun c => w.answer (.messages c.sent)
  | .decisionsSent id => w.askRecording fun c => w.answer (.count (c.decisionsSent id))
  | .capture name =>
    let (w, result) := w.addCapture name
    w.answer (.ofSend result)
  | .send m =>
    let (w, far, result) := w.carry m
    w.push (far ++ [.act (.give (.ofSend result))])
  | _ => w

/-- Takes a step that concerns the participant. -/
def stepAtParticipant (w : World σ) (stage : Stage σ) : Step → World σ
  | .participant name =>
    match w.channel with
    | .loopback _ => w.answer (.participant w.endpoint.preparedIds (stage.committed w.store name))
    | .recording _ => w.answer .nothing
  | .receive m => w.silently [.endpoint (.todo (.receive m))]
  | .committed name => w.answer (.value (stage.committed w.store name))
  | .finalize id d =>
    let (result, store) := stage.handler.finalize w.store id d
    { w with store := store }.answer <| .outcome <| match result with
      | .ok v => .completed v
      | .error f => .failed f
  | .read id => w.answer (.ofJournal .entries (w.journal.read id))
  | .operations => w.answer (.ofJournal .operations w.journal.operations)
  | .recover => w.answer (.ofJournal .operations w.journal.prepared)
  | _ => w

/-- Takes a step. -/
def step (w : World σ) (stage : Stage σ) (s : Step) : World σ :=
  match s with
  | .execute .. | .executeBlocking .. | .closeClient | .dropClient | .secondClient | .phaseOf _
  | .status => w.stepAtClient s
  | .decide .. | .inspect _ | .describe _ | .subscribe .. | .await .. | .interrupt _ | .future ..
  | .poll _ => w.stepAtHandle s
  | .deliver _ | .closeChannel | .refuseSends _ | .isOpen | .sent | .decisionsSent _ | .capture _
  | .send _ => w.stepAtChannel s
  | .participant _ | .receive _ | .committed _ | .finalize .. | .read _ | .operations
  | .recover => w.stepAtParticipant stage s
  | .recorder name => w.answer (.recorder (w.recorders.lookup name))
  | .reports name => w.answer (.reports (w.collectors.lookup name))

/-! ## Waits -/

/-- Takes a step during a wait for an outcome and shows its reply. An interrupt belongs to the wait that
it ends, and has no reply of its own. -/
def stepInWait : Step → List Act
  | .interrupt name => [.step (.interrupt name)]
  | s => [.step s, .publish .wait]

/-- Goes on with a wait for an outcome. What the waiter sees first counts, and a wait during which
nothing comes ends by its bound. -/
def awaiting (w : World σ) (h : Handle) (since : UInt64) (bound : Span)
    (seen : Option (Except WaitError Outcome)) (during : List Step) : World σ :=
  let seen := seen.or ((h.cell w.client).poll since)
  match during with
  | s :: rest => w.act (stepInWait s ++ [.awaiting h since bound seen rest])
  | [] =>
    w.answer <| match seen with
      | some (.ok o) => .outcome o
      | some (.error e) => .refused (.client (.wait e))
      | none =>
        if bound.hasDeadline then .refused (.client (.wait (.timeout bound))) else .notYet

/-- Learns how a blocking submission began. The steps that the script has for the wait are taken even
if there is nothing to wait for. -/
def blocking (w : World σ) (n : Nat) (name : String) (during : List Step) : World σ :=
  match w.reply with
  | .operation id => w.act [.retrieving n id name none during]
  | refusal => w.act (stepsAt .wait during ++ [.give refusal])

/-- How a wait for a prepared operation ends: with what the waiter saw, or by its bound. -/
def retrieved (w : World σ) (id : OperationId) (name : String)
    (seen : Option (Except WaitError Handle)) : World σ :=
  match seen, w.client.config.prepareTimeout with
  | some (.ok h), _ =>
    match h.orChannelLost id with
    | .ok h => (w.keep name h).answer (.handle (.of w.client h))
    | .error e => w.answer (.refused (.client e))
  | some (.error e), _ => w.answer (.refused (.client (.wait e)))
  | none, some bound =>
    w.answer (if bound.hasDeadline then .refused (.client (.wait (.timeout bound))) else .notYet)
  | none, none => w.answer .notYet

/-- Goes on with a wait for a prepared operation. -/
def retrieving (w : World σ) (n : Nat) (id : OperationId) (name : String)
    (seen : Option (Except WaitError Handle)) (during : List Step) : World σ :=
  let (seen, w) := match seen with
    | some r => (some r, w)
    | none =>
      let (r, s) := (w.slot n).poll
      (r, w.modifySlot n fun _ => s)
  match during with
  | s :: rest => w.act [.step s, .publish .wait, .retrieving n id name seen rest]
  | [] => w.retrieved id name seen

/-! ## One move -/

/-- Shows the reply of an inner step. -/
def publish (w : World σ) : Place → World σ
  | .hook name => w.see (.hooked name w.reply)
  | .wait => w.see (.meanwhile w.reply)

/-- The surroundings move. -/
def moveAct (w : World σ) (stage : Stage σ) : Act → World σ
  | .step s => w.step stage s
  | .publish p => w.publish p
  | .give r => w.answer r
  | .leave name u => w.leave name u
  | .cue name => w.runHook name
  | .answer u a => w.push ((u.resume a).map .client)
  | .answerEndpoint u a => w.resumeEndpoint u a
  | .transmit m error => w.transmit m error
  | .conclude id p =>
    let (result, store) := stage.handler.prepare w.store id p
    { w with store := store }.resumeEndpoint (.prepare id p) (.handled result)
  | .noteRefusal id =>
    match w.reply with
    | .refused (.client e) => w.note (.listenerNotServed id e)
    | _ => w
  | .awaiting h since bound seen during => w.awaiting h since bound seen during
  | .blocking n name during => w.blocking n name during
  | .retrieving n id name seen during => w.retrieving n id name seen during
  | .left => { w with connection := .dropped }.answer .nothing

/-- The topmost frame makes its move; without frames nothing happens any more. -/
def move (w : World σ) (stage : Stage σ) : World σ :=
  match w.stack with
  | [] => w
  | .client f :: rest => { w with stack := rest }.moveClient f
  | .endpoint f :: rest => { w with stack := rest }.moveEndpoint stage f
  | .act a :: rest => { w with stack := rest }.moveAct stage a

end World

end TwoPhase.Rehearsal
