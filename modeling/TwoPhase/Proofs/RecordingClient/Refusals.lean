import TwoPhase.Proofs.RecordingClient.Decisions
import TwoPhase.Proofs.ClientThreads.Histories
import TwoPhase.Proofs.ClientThreads.Laws
/-
What a refused submission leaves behind.

A submission is refused before its operation is given an identifier, or by the channel afterwards. What
comes before the identifier is the client's alone (`Client.refusal?`), whatever the channel is; and what
the channel refuses has been entered into the table by then and is taken out again. Here the channel is
the one of a recording client, and the recording client need not be one that grew up alone: it may be any
thread of a client (`RecordingClient.among`), whose other threads stand wherever they stand.
-/

set_option autoImplicit false

namespace TwoPhase

open Client (Task Frame Upcall Answer Event)

/-! ## Before the identifier -/

namespace Client

/-- Why a submission is refused before its operation is given an identifier: the channel is not open, or
else the operation has no encoding, or else the client is closed. -/
def refusal? (c : Client) (isOpen : Bool) (operation : Operation) : Option ClientError :=
  if isOpen then
    match operation.payload.encode c.config.maxFrameBytes.toNat with
    | .error e => some (.serialization e.message)
    | .ok _ => if c.closed then some .clientClosed else none
  else some .notOpen

/-- The client once it has given an operation its identifier. -/
def enrolled (c : Client) (listener : Listener) (operation : Operation) : Client :=
  { c with
    nextId := c.nextId.next
    pending := c.pending.insert c.nextId ⟨operation, .submitted, none⟩
    deliveries := c.deliveries.insert c.nextId ⟨listener, operation.sink, .idle, .vacant⟩ }

variable {c : Client} {isOpen : Bool} {listener : Listener} {operation : Operation} {e : ClientError}

/-- What is refused for the client's own reasons is refused at once, or in the move after it. -/
theorem refuse_of_refusal (h : c.refusal? isOpen operation = some e) :
    (c.perform (.submit isOpen listener operation) = c.refuse e ∧
        c.marks (.submit isOpen listener operation) =
          [.moved (.submit isOpen listener operation) [.submission none (.error e)]]) ∨
      ∃ payload, c.perform (.submit isOpen listener operation) =
          ⟨c, [.todo (.enlist listener operation payload)], []⟩ ∧
        c.perform (.enlist listener operation payload) = c.refuse e ∧
        c.marks (.submit isOpen listener operation) = [.moved (.submit isOpen listener operation) []] ∧
        c.marks (.enlist listener operation payload) =
          [.moved (.enlist listener operation payload) [.submission none (.error e)]] := by
  -- the channel and the encoding are checked first, the closed client only under the lock
  cases isOpen with
  | false =>
    obtain rfl := Option.some.inj h
    exact Or.inl ⟨rfl, rfl⟩
  | true =>
    rw [refusal?, if_pos rfl] at h
    cases hencode : operation.payload.encode c.config.maxFrameBytes.toNat with
    | error cause =>
      rw [hencode] at h
      obtain rfl := Option.some.inj h
      have hsubmit : c.perform (.submit true listener operation) =
          c.refuse (.serialization cause.message) := by simp [perform, hencode]
      exact Or.inl ⟨hsubmit, by rw [marks, hsubmit]; rfl⟩
    | ok payload =>
      rw [hencode] at h
      by_cases hclosed : c.closed = true
      · simp only [hclosed, if_true] at h
        obtain rfl := Option.some.inj h
        have hsubmit : c.perform (.submit true listener operation) =
            ⟨c, [.todo (.enlist listener operation payload)], []⟩ := by simp [perform, hencode]
        have henlist : c.perform (.enlist listener operation payload) = c.refuse .clientClosed := by
          simp [perform, enlist, hclosed]
        have hallots : c.allots (.enlist listener operation payload) = none := if_pos hclosed
        exact Or.inr ⟨payload, hsubmit, henlist, by rw [marks, hsubmit]; rfl,
          by rw [marks, henlist, hallots]; rfl⟩
      · simp [hclosed] at h

/-- Whatever is not refused for such a reason is given an identifier. -/
theorem enroll_of_unrefused (h : c.refusal? isOpen operation = none) :
    isOpen = true ∧ ∃ payload,
      operation.payload.encode c.config.maxFrameBytes.toNat = .ok payload ∧ c.closed = false ∧
      c.perform (.submit true listener operation) =
        ⟨c, [.todo (.enlist listener operation payload)], []⟩ ∧
      c.perform (.enlist listener operation payload) =
        ⟨c.enrolled listener operation, [.todo (.announce (.submitted c.nextId)),
          .todo (.raise (.send (.execute c.nextId payload)))], []⟩ := by
  cases isOpen with
  | false => contradiction
  | true =>
    rw [refusal?, if_pos rfl] at h
    cases hencode : operation.payload.encode c.config.maxFrameBytes.toNat with
    | error cause =>
      rw [hencode] at h
      contradiction
    | ok payload =>
      rw [hencode] at h
      have hclosed : c.closed = false := by simpa using h
      exact ⟨rfl, payload, rfl, hclosed, by simp [perform, hencode],
        by simp [perform, enlist, hclosed, enrolled]⟩

/-- What is remembered of a submission that is refused for the client's own reasons. -/
inductive Refusal (listener : Listener) (operation : Operation) (e : ClientError) : List Mark → Prop
  | atOnce (isOpen : Bool) : Refusal listener operation e
      [.moved (.submit isOpen listener operation) [.submission none (.error e)]]
  | unlisted (isOpen : Bool) (payload : List UInt8) : Refusal listener operation e
      [.moved (.submit isOpen listener operation) [],
        .moved (.enlist listener operation payload) [.submission none (.error e)]]

/-- Nobody is called in the course of it, no identifier is given, and its last word is the refusal. -/
theorem Refusal.quiet {news : List Mark} (h : Refusal listener operation e news) :
    news.flatMap Mark.entered = [] ∧ news.flatMap Mark.given = [] ∧
      (∀ i, news.flatMap (Mark.turns i) = []) ∧
      ∃ t, news.getLast? = some (.moved t [.submission none (.error e)]) := by
  cases h <;> exact ⟨rfl, rfl, fun _ => rfl, _, rfl⟩

/-! ## After the identifier -/

/-- The client once the channel has refused an operation that had its identifier. -/
def skipped (c : Client) (listener : Listener) (operation : Operation) : Client :=
  { c with
    nextId := c.nextId.next
    deliveries := c.deliveries.insert c.nextId ⟨listener, operation.sink, .idle, .vacant⟩
    stats := (c.stats.count .submitted).count .sendFailures }

/-- What is remembered of a submission up to the moment when the channel has answered. -/
def sending (c : Client) (listener : Listener) (operation : Operation) (payload : List UInt8)
    (result : Except ChannelError Unit) : List Mark :=
  [.moved (.submit true listener operation) [], .moved (.enlist listener operation payload) [],
    .enlisted c.nextId, .moved (.announce (.submitted c.nextId)) [],
    .moved (.raise (.observe (.submitted c.nextId))) [.began (.observe (.submitted c.nextId))],
    .answered (.observe (.submitted c.nextId)) .returned,
    .moved (.raise (.send (.execute c.nextId payload))) [.began (.send (.execute c.nextId payload))],
    .answered (.send (.execute c.nextId payload)) (.sent result)]

/-- What is remembered of a submission that the channel refuses. -/
def unsent (c : Client) (listener : Listener) (operation : Operation) (payload : List UInt8)
    (cause : ChannelError) : List Mark :=
  c.sending listener operation payload (.error cause) ++
    [.moved (.submissionSent c.nextId (.error cause))
      [.noted (.operationNotSent c.nextId cause),
        .submission (some c.nextId) (.error (.channelUnavailable cause.message))]]

/-- In the course of it the observer is told of the submission and the message goes to the channel. One
identifier is given, the submitter is told of the refusal, and no callback begins or ends. -/
theorem unsent_shows (c : Client) (listener : Listener) (operation : Operation) (payload : List UInt8)
    (cause : ChannelError) :
    (c.unsent listener operation payload cause).flatMap Mark.entered =
        [.observe (.submitted c.nextId), .send (.execute c.nextId payload)] ∧
      (c.unsent listener operation payload cause).flatMap Mark.given = [c.nextId] ∧
      .error (.channelUnavailable cause.message) ∈
        (c.unsent listener operation payload cause).flatMap (Mark.answers c.nextId) ∧
      ∀ i, (c.unsent listener operation payload cause).flatMap (Mark.turns i) = [] := by
  refine ⟨rfl, rfl, ?_, fun i => ?_⟩
  · simp [unsent, Mark.answers, Event.answerFor]
  · by_cases hid : c.nextId = i <;>
      simp [unsent, sending, Mark.turns, Event.begunAbout, Upcall.about, Upcall.callback?, Outbound.id,
        hid, List.filterMap_cons]

/-- What is taken out of the table again was put there by the same submission. -/
theorem submissionSent_of_refused {cause : ChannelError}
    (hunused : c.pending.get? c.nextId = none) :
    ((c.enrolled listener operation).count .submitted).perform (.submissionSent c.nextId (.error cause)) =
      ⟨c.skipped listener operation, [], [.noted (.operationNotSent c.nextId cause),
        .submission (some c.nextId) (.error (.channelUnavailable cause.message))]⟩ := by
  have hentry : (c.pending.insert c.nextId ⟨operation, .submitted, none⟩).contains c.nextId = true := by
    rw [Table.contains, Table.get?_insert, if_pos rfl]
    rfl
  simp only [perform, submissionSent, count, enrolled, hentry, if_true, Table.erase_insert hunused]
  rfl

end Client

/-- The last thing that happened is that a submitter was told a result. -/
def Told (past : List Mark) (result : Except ClientError OperationId) : Prop :=
  ∃ t shown id?, past.getLast? = some (.moved t (shown ++ [.submission id? result]))

theorem Told.unique {past : List Mark} {result result' : Except ClientError OperationId}
    (h : Told past result) (h' : Told past result') : result = result' := by
  obtain ⟨t, shown, id?, htold⟩ := h
  obtain ⟨t', shown', id?', htold'⟩ := h'
  obtain ⟨-, hevents⟩ := Mark.moved.inj (Option.some.inj (htold.symm.trans htold'))
  have hevent := (List.append_inj' hevents rfl).2
  simp only [List.cons.injEq, Event.submission.injEq, and_true] at hevent
  exact hevent.2

namespace RecordingClient

/-! ## Submissions that come back -/

/-- A submission has come back, and its caller was told how it went. -/
structure Executed (habit : Listener → OperationId → Value → Policy) (b : RecordingClient)
    (listener : Listener) (operation : Operation) (result : Except ClientError OperationId)
    (b' : RecordingClient) : Prop where
  returns : Returns habit b.stack
    { b with stack := .todo (.submit b.channel.isOpen listener operation) :: b.stack } b'
  told : Told b'.past result

variable {habit : Listener → OperationId → Value → Policy} {b b' b'' : RecordingClient}
  {listener : Listener} {operation : Operation} {result result' : Except ClientError OperationId}

theorem Executed.unique (h : Executed habit b listener operation result b')
    (h' : Executed habit b listener operation result' b'') : b' = b'' ∧ result = result' := by
  obtain rfl := h.returns.unique h'.returns
  exact ⟨rfl, h.told.unique h'.told⟩

section

variable {c : Client} {channel : RecordingChannel} {floor : List Frame} {past : List Mark}

/-- What the client refuses by itself comes back without anything having changed. -/
theorem executed_of_refusal {e : ClientError} (h : c.refusal? channel.isOpen operation = some e) :
    ∃ news, Client.Refusal listener operation e news ∧
      Executed habit ⟨c, channel, floor, past⟩ listener operation (.error e)
        ⟨c, channel, floor, past ++ news⟩ := by
  rcases Client.refuse_of_refusal h with ⟨hsubmit, hmarks⟩ | ⟨payload, hsubmit, henlist, hfirst, hlast⟩
  · refine ⟨_, .atOnce channel.isOpen, ?_, _, [], none, List.getLast?_concat ..⟩
    refine .todo [] rfl hsubmit ?_
    rw [hmarks]
    exact .back rfl
  · refine ⟨_, .unlisted channel.isOpen payload, ?_, .enlist listener operation payload, [], none,
      by simp⟩
    refine .todo [] rfl hsubmit (.todo [] rfl henlist ?_)
    rw [hfirst, hlast, List.append_assoc]
    exact .back rfl

theorem Returns.answered {u : Upcall} {b' : RecordingClient} (above : List Frame)
    (h : Returns habit floor ⟨c, (reply channel u).2, u.resume (reply channel u).1 ++ (above ++ floor),
      past ++ [.answered u (reply channel u).1]⟩ b') :
    Returns habit floor ⟨c, channel, .inside u :: (above ++ floor), past⟩ b' := by
  refine .on rfl ?_
  rw [move_inside rfl]
  exact h

/-- What the client does not refuse by itself is put to the channel. -/
theorem returns_of_sending {payload : List UInt8} {result : Except ChannelError Unit}
    {channel' : RecordingChannel} {b' : RecordingClient}
    (hsubmit : c.perform (.submit true listener operation) =
      ⟨c, [.todo (.enlist listener operation payload)], []⟩)
    (henlist : c.perform (.enlist listener operation payload) =
      ⟨c.enrolled listener operation, [.todo (.announce (.submitted c.nextId)),
        .todo (.raise (.send (.execute c.nextId payload)))], []⟩)
    (hclosed : c.closed = false)
    (hsend : channel.send (.execute c.nextId payload) = (result, channel'))
    (h : Returns habit floor ⟨(c.enrolled listener operation).count .submitted, channel',
      .todo (.submissionSent c.nextId result) :: floor,
      past ++ c.sending listener operation payload result⟩ b') :
    Returns habit floor ⟨c, channel, .todo (.submit true listener operation) :: floor, past⟩ b' := by
  have hmarks : past ++ c.marks (.submit true listener operation) ++
      c.marks (.enlist listener operation payload) =
      past ++ [.moved (.submit true listener operation) [],
        .moved (.enlist listener operation payload) [], .enlisted c.nextId] := by
    rw [Client.marks, Client.marks, hsubmit, henlist, List.append_assoc]
    simp [Client.allots, hclosed]
  refine .todo [] rfl hsubmit (.todo [] rfl henlist ?_)
  rw [hmarks]
  -- the message waits below while the observer is told
  refine .todo [.todo (.raise (.send (.execute c.nextId payload)))] rfl rfl ?_
  refine .todo [.todo (.raise (.send (.execute c.nextId payload)))] rfl rfl ?_
  refine .answered [.todo (.raise (.send (.execute c.nextId payload)))] ?_
  refine .todo [] rfl rfl (.sent hsend ?_)
  simpa [Client.sending, Client.marks, Client.allots, Client.perform, Client.Upcall.resume, reply,
    Observation.counter] using h

/-- A submission that comes to the channel is answered as the channel answers. -/
theorem executed_of_sending (hunrefused : c.refusal? channel.isOpen operation = none)
    (hunused : c.pending.get? c.nextId = none) : ∃ payload,
    operation.payload.encode c.config.maxFrameBytes.toNat = .ok payload ∧
      ((channel.send (.execute c.nextId payload)).1 = .ok () →
        ∃ b', Executed habit ⟨c, channel, floor, past⟩ listener operation (.ok c.nextId) b') ∧
      ∀ cause, channel.send (.execute c.nextId payload) = (.error cause, channel) →
        Executed habit ⟨c, channel, floor, past⟩ listener operation
          (.error (.channelUnavailable cause.message))
          ⟨c.skipped listener operation, channel, floor,
            past ++ c.unsent listener operation payload cause⟩ := by
  obtain ⟨hopen, payload, hencode, hclosed, hsubmit, henlist⟩ :=
    Client.enroll_of_unrefused hunrefused
  refine ⟨payload, hencode, fun hsend => ?_, fun cause hsend => ?_⟩
  · refine ⟨⟨(c.enrolled listener operation).count .submitted,
      (channel.send (.execute c.nextId payload)).2, floor,
      past ++ c.sending listener operation payload (.ok ()) ++
        [.moved (.submissionSent c.nextId (.ok ())) [.submission (some c.nextId) (.ok c.nextId)]]⟩,
      ?_, _, [], _, List.getLast?_concat ..⟩
    rw [hopen]
    refine returns_of_sending hsubmit henlist hclosed (Prod.ext hsend rfl) ?_
    exact .todo [] rfl rfl (.back rfl)
  · -- the entry is taken out again, and the submitter is told why
    have hsent : ((c.enrolled listener operation).count .submitted).perform
        (.submissionSent c.nextId (.error cause)) = _ := Client.submissionSent_of_refused hunused
    refine ⟨?_, .submissionSent c.nextId (.error cause), [.noted (.operationNotSent c.nextId cause)],
      some c.nextId, by simp [Client.unsent]⟩
    rw [hopen, Client.unsent, ← List.append_assoc]
    refine returns_of_sending hsubmit henlist hclosed hsend (.todo [] rfl hsent ?_)
    rw [Client.marks, hsent]
    exact .back rfl

end

/-! ## What is as it was -/

/-- Nothing changed that anyone knows of: not the channel and what it keeps, not the table and the
handles, no outcome, and no callback began or ended. An operation that no one can name may have got a
mailbox. -/
structure Unharmed (b b' : RecordingClient) : Prop where
  stack : b'.stack = b.stack
  channel : b'.channel = b.channel
  config : b'.client.config = b.client.config
  closed : b'.client.closed = b.client.closed
  pending : b'.client.pending = b.client.pending
  handles : b'.client.handles = b.client.handles
  deliveries : ∀ i, i ≠ b.client.nextId →
    b'.client.deliveries.get? i = b.client.deliveries.get? i
  cells : ∀ i, b'.client.cell i = b.client.cell i
  turns : ∀ i, b'.clientThreads.turns i = b.clientThreads.turns i

/-- Not even the client changed, nobody was called, and no identifier was given. -/
structure Untouched (b b' : RecordingClient) : Prop where
  client : b'.client = b.client
  silent : ∃ news, b'.past = b.past ++ news ∧ news.flatMap Mark.entered = [] ∧
    news.flatMap Mark.given = []

/-- An identifier was given and is lost, the observer was told of the submission, and the channel was
asked. -/
structure Skipped (before after : List (List Frame)) (b b' : RecordingClient) : Prop where
  nextId : b'.client.nextId = b.client.nextId.next
  stats : b'.client.stats = (b.client.stats.count .submitted).count .sendFailures
  entered : ∃ payload news, b'.past = b.past ++ news ∧ news.flatMap Mark.entered =
    [.observe (.submitted b.client.nextId), .send (.execute b.client.nextId payload)]
  /-- Whatever happens from then on, the identifier is not given again, and no submission is answered
  with it. -/
  lost : ∀ more : List Choice,
    (more.foldl ClientThreads.act (b'.among before after)).given.length < 2 ^ 64 - 1 →
    (more.foldl ClientThreads.act (b'.among before after)).given.count b.client.nextId = 1 ∧
      .ok b.client.nextId ∉ (more.foldl ClientThreads.act (b'.among before after)).answers b.client.nextId

/-- What is left of a submission that was refused: nothing, or an identifier. -/
structure Refused (before after : List (List Frame)) (b : RecordingClient) (operation : Operation)
    (e : ClientError) (b' : RecordingClient) : Prop where
  unharmed : b.Unharmed b'
  early : b.client.refusal? b.channel.isOpen operation ≠ none →
    b.client.refusal? b.channel.isOpen operation = some e ∧ b.Untouched b'
  late : b.client.refusal? b.channel.isOpen operation = none →
    ∃ payload cause, operation.payload.encode b.client.config.maxFrameBytes.toNat = .ok payload ∧
      b.channel.send (.execute b.client.nextId payload) = (.error cause, b.channel) ∧
      e = .channelUnavailable cause.message ∧ b.Skipped before after b'

/-- An identifier that was not given belongs to nothing yet. -/
theorem next_unused {config : Config} {schedule : List Choice}
    (hgiven : (ClientThreads.run config schedule).given.length < 2 ^ 64 - 1) :
    (ClientThreads.run config schedule).client.pending.get?
      (ClientThreads.run config schedule).client.nextId = none ∧
      (ClientThreads.run config schedule).client.deliveries.get?
        (ClientThreads.run config schedule).client.nextId = none := by
  have hblank :
      (ClientThreads.run config schedule).share (ClientThreads.run config schedule).client.nextId =
      .blank := by
    by_contra hshare
    exact ClientThreads.next_not_given config schedule (Nat.lt_of_lt_of_le hgiven (Nat.sub_le _ _))
      (ClientThreads.mem_given_of_share config schedule hgiven hshare)
  exact ⟨congrArg (fun d : OperationShare => d.view.entry) hblank,
    congrArg (fun d : OperationShare => d.view.delivery) hblank⟩

/-- Whatever moves a recording client makes, the threads that it belongs to can make the same. -/
theorem among_iterate (b : RecordingClient) (before after : List (List Frame)) (n : Nat) :
    ∃ choices : List Choice, ((move habit)^[n] b).among before after =
      choices.foldl ClientThreads.act (b.among before after) := by
  induction n with
  | zero => exact ⟨[], rfl⟩
  | succ n ih =>
    rw [Function.iterate_succ_apply']
    obtain ⟨first, hfirst⟩ := ih
    obtain ⟨rest, hrest⟩ := @among_move habit ((move habit)^[n] b) before after
    exact ⟨first ++ rest, by rw [hrest, hfirst, List.foldl_append]⟩

theorem Returns.among {floor : List Frame} (h : Returns habit floor b b')
    (before after : List (List Frame)) : ∃ choices : List Choice,
    b'.among before after = choices.foldl ClientThreads.act (b.among before after) := by
  obtain ⟨n, rfl⟩ := h.iterate
  exact b.among_iterate before after n

/-- Where a submission has come back to is again a moment of all threads. -/
theorem Executed.reached {config : Config} {schedule : List Choice} {before after : List (List Frame)}
    (h : Executed habit b listener operation result b') (haway : isAway b.stack = true)
    (hclientThreads : ClientThreads.run config schedule = b.among before after) :
    ∃ schedule, b'.among before after = ClientThreads.run config schedule := by
  obtain ⟨choices, hchoices⟩ := h.returns.among before after
  refine ⟨schedule ++ .ask before.length (.submit b.channel.isOpen listener operation) :: choices, ?_⟩
  rw [hchoices, ClientThreads.run_append, hclientThreads, List.foldl_cons]
  simp [among, ClientThreads.act, haway, Request.task]

section

variable {config : Config} {schedule : List Choice} {before after : List (List Frame)} {e : ClientError}

/-- An identifier whose submission was refused is lost. -/
theorem lost_of_refused (hclientThreads : b'.among before after = ClientThreads.run config schedule)
    {id : OperationId} (hmem : id ∈ (b'.among before after).given)
    (hrefused : (b'.among before after).Refused id) (more : List Choice)
    (hgiven : (more.foldl ClientThreads.act (b'.among before after)).given.length < 2 ^ 64 - 1) :
    (more.foldl ClientThreads.act (b'.among before after)).given.count id = 1 ∧
      .ok id ∉ (more.foldl ClientThreads.act (b'.among before after)).answers id := by
  rw [hclientThreads] at hmem hrefused hgiven ⊢
  rw [← ClientThreads.run_append] at hgiven ⊢
  have hgrows := ClientThreads.past_run config schedule more
  refine ⟨Nat.le_antisymm (ClientThreads.count_given_le config _ id hgiven) ?_,
    ClientThreads.not_ok_of_refused config _ hgiven (ClientThreads.refused_grow hgrows id hrefused)⟩
  exact List.count_pos_iff.mpr ((ClientThreads.given_grow hgrows).subset hmem)

/-- What is refused before an identifier is given leaves nothing behind. -/
theorem refused_early (hrefusal : b.client.refusal? b.channel.isOpen operation = some e) :
    ∃ b', Executed habit b listener operation (.error e) b' ∧ b.Unharmed b' ∧ b.Untouched b' := by
  obtain ⟨c, channel, floor, past⟩ := b
  obtain ⟨news, hnews, hexecuted⟩ :=
    @executed_of_refusal habit listener operation c channel floor past e hrefusal
  obtain ⟨hentered, hgiven, hturns, -⟩ := hnews.quiet
  refine ⟨_, hexecuted, ⟨rfl, rfl, rfl, rfl, rfl, rfl, fun _ _ => rfl, fun _ => rfl, fun i => ?_⟩,
    rfl, news, rfl, hentered, hgiven⟩
  simp [clientThreads, ClientThreads.turns, hturns i]

/-- What is refused by the channel leaves an identifier behind. -/
theorem refused_late (hclientThreads : ClientThreads.run config schedule = b.among before after)
    (haway : isAway b.stack = true)
    (hgiven : (ClientThreads.run config schedule).given.length < 2 ^ 64 - 1)
    (hunrefused : b.client.refusal? b.channel.isOpen operation = none)
    (h : Executed habit b listener operation (.error e) b') :
    b.Unharmed b' ∧ ∃ payload cause,
      operation.payload.encode b.client.config.maxFrameBytes.toNat = .ok payload ∧
      b.channel.send (.execute b.client.nextId payload) = (.error cause, b.channel) ∧
      e = .channelUnavailable cause.message ∧ b.Skipped before after b' := by
  obtain ⟨hpending, hdelivery⟩ := next_unused hgiven
  rw [hclientThreads] at hpending hdelivery
  obtain ⟨schedule', hschedule⟩ := h.reached haway hclientThreads
  obtain ⟨c, channel, floor, past⟩ := b
  obtain ⟨payload, hencode, htaken, hrefused⟩ :=
    @executed_of_sending habit listener operation c channel floor past hunrefused hpending
  rcases channel.send_cases (.execute c.nextId payload) with hsend | ⟨cause, hsend⟩
  · -- a submission that the channel takes is not refused
    obtain ⟨b'', hok⟩ := htaken (congrArg Prod.fst hsend)
    cases (hok.unique h).2
  obtain ⟨rfl, herror⟩ := (hrefused cause hsend).unique h
  obtain rfl := Except.error.inj herror
  obtain ⟨hentered, hgave, hanswers, hturns⟩ := c.unsent_shows listener operation payload cause
  have hmem : c.nextId ∈ (past ++ c.unsent listener operation payload cause).flatMap Mark.given := by
    rw [List.flatMap_append, hgave]
    exact List.mem_append_right _ (List.mem_singleton_self _)
  have hrefused : .error (.channelUnavailable cause.message) ∈
      (past ++ c.unsent listener operation payload cause).flatMap (Mark.answers c.nextId) := by
    rw [List.flatMap_append]
    exact List.mem_append_right _ hanswers
  refine ⟨⟨rfl, rfl, rfl, rfl, rfl, rfl, fun i hi => ?_, fun i => ?_, fun i => ?_⟩, payload, cause,
    hencode, hsend, rfl, rfl, rfl, ⟨payload, _, rfl, hentered⟩,
    lost_of_refused hschedule hmem ⟨_, hrefused⟩⟩
  · exact (Table.get?_insert ..).trans (if_neg hi)
  · by_cases hi : i = c.nextId
    · subst hi
      have hnone : c.deliveries.get? c.nextId = none := hdelivery
      simp [Client.cell, Client.skipped, Table.get?_insert, hnone]
    · simp [Client.cell, Client.skipped, Table.get?_insert, hi]
  · simp [clientThreads, ClientThreads.turns, hturns i]

/-- **A refused submission leaves everything as it was**, but for an identifier if the channel refused
it. -/
theorem refused (hclientThreads : ClientThreads.run config schedule = b.among before after)
    (haway : isAway b.stack = true)
    (hgiven : (ClientThreads.run config schedule).given.length < 2 ^ 64 - 1)
    (h : Executed habit b listener operation (.error e) b') :
    b.Refused before after operation e b' := by
  cases hrefusal : b.client.refusal? b.channel.isOpen operation with
  | some e' =>
    obtain ⟨b'', hexecuted, hunharmed, huntouched⟩ := @refused_early habit b listener operation e' hrefusal
    obtain ⟨rfl, herror⟩ := hexecuted.unique h
    obtain rfl := Except.error.inj herror
    refine ⟨hunharmed, fun _ => ⟨hrefusal, huntouched⟩, fun hnone => ?_⟩
    cases hrefusal.symm.trans hnone
  | none =>
    obtain ⟨hunharmed, hlate⟩ := refused_late hclientThreads haway hgiven hrefusal h
    exact ⟨hunharmed, fun hsome => absurd hrefusal hsome, fun _ => hlate⟩

/-- How a recording client takes a submission: with the first reason to refuse it that the client has, or
else with the channel's answer; and what it refuses leaves everything as it was. -/
structure Answering (habit : Listener → OperationId → Value → Policy)
    (before after : List (List Frame)) (b : RecordingClient) (listener : Listener) (operation : Operation) :
    Prop where
  refuses : ∀ e, b.client.refusal? b.channel.isOpen operation = some e →
    ∃ b', Executed habit b listener operation (.error e) b'
  sends : b.client.refusal? b.channel.isOpen operation = none → ∃ payload,
    operation.payload.encode b.client.config.maxFrameBytes.toNat = .ok payload ∧
      ((b.channel.send (.execute b.client.nextId payload)).1 = .ok () →
        ∃ b', Executed habit b listener operation (.ok b.client.nextId) b') ∧
      ∀ cause, b.channel.send (.execute b.client.nextId payload) = (.error cause, b.channel) →
        ∃ b', Executed habit b listener operation (.error (.channelUnavailable cause.message)) b'
  refused : ∀ e b', Executed habit b listener operation (.error e) b' →
    b.Refused before after operation e b'

theorem answering (hclientThreads : ClientThreads.run config schedule = b.among before after)
    (haway : isAway b.stack = true)
    (hgiven : (ClientThreads.run config schedule).given.length < 2 ^ 64 - 1)
    (habit : Listener → OperationId → Value → Policy) (listener : Listener) (operation : Operation) :
    b.Answering habit before after listener operation where
  refuses e he := by
    obtain ⟨b', hexecuted, -⟩ := @refused_early habit b listener operation e he
    exact ⟨b', hexecuted⟩
  sends hunrefused := by
    obtain ⟨hpending, -⟩ := next_unused hgiven
    rw [hclientThreads] at hpending
    obtain ⟨payload, hencode, htaken, hrefused⟩ := @executed_of_sending habit listener operation
      b.client b.channel b.stack b.past hunrefused hpending
    exact ⟨payload, hencode, htaken, fun cause hcause => ⟨_, hrefused cause hcause⟩⟩
  refused _ _ h := refused hclientThreads haway hgiven h

end

end RecordingClient

end TwoPhase
