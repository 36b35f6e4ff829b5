import TwoPhase.Proofs.RecordingClient.Refusals
import TwoPhase.Proofs.ClientThreads.Closing
/-
What comes of a close, and of everything that is asked afterwards.

What a close tells is settled by its sweep (`ClientThreads.closed_since`). Here it comes back, over a
channel that records, whatever listeners decide in the meantime; and so does every later request, with a
refusal and without a trace.
-/

set_option autoImplicit false

namespace TwoPhase

open Client (Task Frame Upcall Answer Event)

/-- A client that was swept refuses everything, and what has an encoding for want of a channel. -/
theorem Client.Swept.refusal {c : Client} (h : c.Swept) (isOpen : Bool) (operation : Operation) :
    ∃ e, c.refusal? isOpen operation = some e ∧
      ∀ payload, operation.payload.encode c.config.maxFrameBytes.toNat = .ok payload →
        ∃ reason, e = .channelUnavailable reason := by
  cases isOpen with
  | false => exact ⟨.notOpen, rfl, fun _ _ => ⟨_, rfl⟩⟩
  | true =>
    rw [refusal?, if_pos rfl]
    cases operation.payload.encode c.config.maxFrameBytes.toNat with
    | error cause => exact ⟨_, rfl, fun _ hencoded => by cases hencoded⟩
    | ok payload => exact ⟨.clientClosed, if_pos h.closed, fun _ _ => ⟨_, rfl⟩⟩

namespace RecordingClient

variable {habit : Listener → OperationId → Value → Policy} {b : RecordingClient}

/-- How a recording client with a closed client takes what is asked of it. -/
structure Shut (habit : Listener → OperationId → Value → Policy) (b : RecordingClient) : Prop where
  /-- A submission is refused, for want of a channel if it can be encoded, and leaves no trace. -/
  executes : ∀ listener operation, ∃ e b', Executed habit b listener operation (.error e) b' ∧
    b.Unharmed b' ∧ b.Untouched b' ∧
    ∀ payload, operation.payload.encode b.client.config.maxFrameBytes.toNat = .ok payload →
      ∃ reason, e = .channelUnavailable reason
  /-- A decision comes too late, and nobody but the handle notices. -/
  decides : ∀ id d, ∃ b', Answered habit { b with stack := .todo (.decide id d) :: b.stack } id d b.stack b'
      (.error (.alreadyFinalized id)) ∧
    Unnoticed { b with stack := .todo (.decide id d) :: b.stack } b'
  /-- Another close changes nothing. -/
  closes : ∀ r : Request, r.closes = true → ∃ b',
    Returns habit b.stack { b with stack := .todo r.task :: b.stack } b' ∧ b.Unharmed b' ∧ b.Untouched b'

/-- What was asked of nobody is decided at once. -/
theorem answered_of_unheld {c : Client} {channel : RecordingChannel} {floor : List Frame}
    {past : List Mark} {id : OperationId} (hhandle : c.handles.get? id = none) (d : Decision) :
    ∃ b', Answered habit ⟨c, channel, .todo (.decide id d) :: floor, past⟩ id d floor b'
        (.error (.alreadyFinalized id)) ∧
      Unnoticed ⟨c, channel, .todo (.decide id d) :: floor, past⟩ b' := by
  have hdecide : c.perform (.decide id d) =
      ⟨c, [.todo (.decided id d (.error (.alreadyFinalized id)))], []⟩ := by
    simp [Client.perform, Client.decide, hhandle]
  refine ⟨_, ⟨.todo [] rfl hdecide (.decided _), List.getLast?_concat⟩, rfl, rfl, fun _ => rfl,
    fun i => ?_⟩
  simp [ClientThreads.turns, clientThreads, Client.marks, Client.allots, hdecide, Mark.turns,
    Event.begunAbout]

/-- A close goes on after its sweep. -/
theorem returns_of_sweep {c : Client} {channel : RecordingChannel} {floor : List Frame}
    {past : List Mark} {r : Request} (hr : r.closes = true) {b' : RecordingClient}
    (h : Returns habit floor ⟨(c.perform .sweep).client, channel, (c.perform .sweep).frames ++ floor,
      past ++ c.closing r⟩ b') :
    Returns habit floor ⟨c, channel, .todo r.task :: floor, past⟩ b' := by
  cases r with
  | close => exact .todo [] rfl rfl h
  | deliver m =>
    cases m with
    | channelClosed =>
      rw [Client.closing, ← List.append_assoc] at h
      exact .todo [] rfl rfl (.todo [] rfl rfl h)
    | _ => contradiction
  | _ => contradiction

/-- What another close is remembered by: nobody is called, and no identifier is given. -/
theorem closing_of_swept {c : Client} (h : c.Swept) {r : Request} (hr : r.closes = true) :
    (c.closing r).flatMap Mark.entered = [] ∧ (c.closing r).flatMap Mark.given = [] ∧
      ∀ i, (c.closing r).flatMap (Mark.turns i) = [] := by
  have hsweep : c.marks .sweep = [.moved .sweep []] := by
    rw [Client.marks, h.sweep]
    rfl
  cases r with
  | close =>
    have hclosing : c.closing .close = [.moved .sweep []] := hsweep
    rw [hclosing]
    exact ⟨rfl, rfl, fun _ => rfl⟩
  | deliver m =>
    cases m with
    | channelClosed =>
      rw [Client.closing, hsweep]
      exact ⟨rfl, rfl, fun _ => rfl⟩
    | _ => contradiction
  | _ => contradiction

/-- **A closed client refuses everything**, and nothing changes by it. -/
theorem shut_of_swept (h : b.client.Swept) : b.Shut habit where
  executes listener operation := by
    obtain ⟨e, hrefusal, hreason⟩ := h.refusal b.channel.isOpen operation
    obtain ⟨b', hexecuted, hunharmed, huntouched⟩ := @refused_early habit b listener operation e hrefusal
    exact ⟨e, b', hexecuted, hunharmed, huntouched, hreason⟩
  decides id d := by
    cases hhandle : b.client.handles.get? id with
    | none => exact answered_of_unheld hhandle d
    | some handle => exact answered_of_late hhandle (Or.inr (h.empty id))
  closes r hr := by
    obtain ⟨hentered, hgiven, hturns⟩ := closing_of_swept h hr
    refine ⟨{ b with past := b.past ++ b.client.closing r }, returns_of_sweep hr ?_,
      ⟨rfl, rfl, rfl, rfl, rfl, rfl, fun _ _ => rfl, fun _ => rfl, fun i => ?_⟩,
      rfl, _, rfl, hentered, hgiven⟩
    · rw [h.sweep]
      exact .back rfl
    · simp [clientThreads, ClientThreads.turns, hturns i]

/-- **A close comes back**, and by then everything has been told. -/
theorem returns_of_closes {config : Config} {schedule : List Choice}
    (hgiven : (ClientThreads.run config schedule).given.length < 2 ^ 64 - 1)
    (hidle : (ClientThreads.run config schedule).frames = [])
    (hopen : (ClientThreads.run config schedule).client.closed = false) {n : Nat}
    (hn : (ClientThreads.run config schedule).threads[n]? = some []) {r : Request} (hr : r.closes = true)
    (habit : Listener → OperationId → Value → Policy) (channel : RecordingChannel) :
    ∃ b', Returns habit []
        ⟨(ClientThreads.run config schedule).client, channel, [.todo r.task],
          (ClientThreads.run config schedule).past⟩ b' ∧
      (ClientThreads.run config schedule).ClosedSince
        ⟨b'.client, (ClientThreads.run config schedule).threads, b'.past⟩
        True := by
  have hsince := ClientThreads.closed_since hgiven hidle hopen hn hr
  have hrun := ClientThreads.foldl_sweeping hr hn
  obtain ⟨before, after, rfl, hthreads, hset⟩ := around hn
  let swept : RecordingClient :=
    ⟨((ClientThreads.run config schedule).client.perform .sweep).client, channel,
      ((ClientThreads.run config schedule).client.perform .sweep).frames,
      (ClientThreads.run config schedule).past ++ (ClientThreads.run config schedule).client.closing r⟩
  obtain ⟨b', hreturns⟩ := @returns_of_above habit [] swept swept.stack (List.append_nil _).symm
  refine ⟨b', returns_of_sweep hr (by rw [List.append_nil]; exact hreturns), ?_⟩
  -- the moves of the recording client are choices of its threads
  obtain ⟨choices, hchoices⟩ := hreturns.among before after
  have hswept :
      swept.among before after = ClientThreads.run config (schedule ++ r.sweeping before.length) := by
    rw [ClientThreads.run_append, hrun, hset]
    rfl
  have hend : (⟨b'.client, (ClientThreads.run config schedule).threads, b'.past⟩ : ClientThreads) =
      ClientThreads.run config (schedule ++ r.sweeping before.length ++ choices) := by
    rw [ClientThreads.run_append, ← hswept, ← hchoices, hthreads, among, hreturns.stack]
  rw [hend]
  obtain ⟨hordered, hclosed, ⟨marks, hpast, hprefix, htold, hdeclined⟩, hresolved⟩ := hsince choices
  have hdone : ∃ first later, choices = first ++ later ∧
      (ClientThreads.run config (schedule ++ r.sweeping before.length ++ first)).threads[before.length]? =
        some [] := ⟨choices, [], (List.append_nil _).symm, by rw [← hend]; exact hn⟩
  exact ⟨hordered, hclosed, ⟨marks, hpast, hprefix, fun _ => htold hdone, hdeclined⟩,
    fun _ => hresolved hdone⟩

end RecordingClient

/-- What becomes of the threads one of which closes the client. -/
structure ClosedForGood (config : Config) (schedule : List Choice) (n : Nat) (r : Request) : Prop where
  /-- Over a channel that records the close comes back, and everything has been told by then. -/
  returns : ∀ (habit : Listener → OperationId → Value → Policy) (channel : RecordingChannel), ∃ b',
    RecordingClient.Returns habit []
      ⟨(ClientThreads.run config schedule).client, channel, [.todo r.task],
        (ClientThreads.run config schedule).past⟩ b' ∧
    (ClientThreads.run config schedule).ClosedSince
      ⟨b'.client, (ClientThreads.run config schedule).threads, b'.past⟩ True
  /-- Whatever is done in the meantime and later, nothing else is told. -/
  since : ∀ more : List Choice,
    (ClientThreads.run config schedule).ClosedSince
      (ClientThreads.run config (schedule ++ r.sweeping n ++ more))
      (∃ first later, more = first ++ later ∧
        (ClientThreads.run config (schedule ++ r.sweeping n ++ first)).threads[n]? = some [])
  /-- And at every later moment, on every thread, whatever is asked is refused without a trace. -/
  shut : ∀ (more : List Choice) (before after : List (List Frame)) (b : RecordingClient),
    ClientThreads.run config (schedule ++ r.sweeping n ++ more) = b.among before after →
    ∀ habit : Listener → OperationId → Value → Policy, b.Shut habit

/-- **A close is complete, in order and final**, in every state in which nobody is inside the client. -/
theorem closed_for_good {config : Config} {schedule : List Choice}
    (hgiven : (ClientThreads.run config schedule).given.length < 2 ^ 64 - 1)
    (hidle : (ClientThreads.run config schedule).frames = [])
    (hopen : (ClientThreads.run config schedule).client.closed = false) {n : Nat}
    (hn : (ClientThreads.run config schedule).threads[n]? = some []) {r : Request} (hr : r.closes = true) :
    ClosedForGood config schedule n r where
  returns := RecordingClient.returns_of_closes hgiven hidle hopen hn hr
  since := ClientThreads.closed_since hgiven hidle hopen hn hr
  shut more before after b hb habit := by
    have hswept := (ClientThreads.closed_since hgiven hidle hopen hn hr more).swept
    rw [hb] at hswept
    exact RecordingClient.shut_of_swept hswept

/-- An operation that is prepared, and one that is not. -/
def RecordingClient.unfinished : RecordingClient :=
  run (fun _ _ _ => .hold) {} [.execute (.recorder "first") ⟨.undefined, [], .discard⟩,
    .execute (.recorder "second") ⟨.undefined, [], .discard⟩, .deliver (.prepared ⟨1⟩ .undefined)]

theorem closed_for_good_of_unfinished : ∃ schedule,
    ClientThreads.run {} schedule = RecordingClient.unfinished.clientThreads ∧
      (ClientThreads.run {} schedule).given.length < 2 ^ 64 - 1 ∧
      (ClientThreads.run {} schedule).frames = [] ∧ (ClientThreads.run {} schedule).client.closed = false ∧
      (ClientThreads.run {} schedule).threads[0]? = some [] ∧
      (ClientThreads.run {} schedule).client.pending.ids = [⟨1⟩, ⟨2⟩] ∧
      (ClientThreads.run {} schedule).client.phaseOf ⟨1⟩ = some .prepared ∧
      ClosedForGood {} schedule 0 (.deliver .channelClosed) := by
  obtain ⟨hvisited, hidle⟩ := @RecordingClient.visited_run (fun _ _ _ => .hold) {}
    [.execute (.recorder "first") ⟨.undefined, [], .discard⟩,
      .execute (.recorder "second") ⟨.undefined, [], .discard⟩, .deliver (.prepared ⟨1⟩ .undefined)]
  obtain ⟨schedule, hschedule⟩ := RecordingClient.reachable_clientThreads hvisited
  have hclientThreads : ClientThreads.run {} schedule = RecordingClient.unfinished.clientThreads :=
    hschedule.symm
  have hgiven : (ClientThreads.run {} schedule).given.length < 2 ^ 64 - 1 := by
    rw [hclientThreads]
    decide +kernel
  have hstack : RecordingClient.unfinished.stack = [] := hidle
  have hframes : (ClientThreads.run {} schedule).frames = [] := by
    rw [hclientThreads, ClientThreads.frames, RecordingClient.clientThreads, hstack]
    rfl
  have hthread : (ClientThreads.run {} schedule).threads[0]? = some [] := by
    rw [hclientThreads, RecordingClient.clientThreads, hstack]
    rfl
  have hopen : (ClientThreads.run {} schedule).client.closed = false := by
    rw [hclientThreads]
    decide +kernel
  refine ⟨schedule, hclientThreads, hgiven, hframes, hopen, hthread, ?_, ?_,
    closed_for_good hgiven hframes hopen hthread rfl⟩
  · rw [hclientThreads]
    decide +kernel
  · rw [hclientThreads]
    decide +kernel

end TwoPhase
