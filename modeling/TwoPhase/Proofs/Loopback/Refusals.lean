import TwoPhase.Proofs.RecordingClient.Refusals
import TwoPhase.Proofs.Loopback.Mirror
import TwoPhase.Proofs.Loopback.Submissions
/-
What a refused submission leaves behind at either channel.

Over a channel that calls straight through, a submission that got its identifier is handed to the
participant, and whatever happens there, the send returns well; so only the client refuses, and does so
before anyone else could notice.
-/

set_option autoImplicit false

namespace TwoPhase

open Client (Task)

namespace Loopback

variable {σ : Type}

/-! ## Submissions that come back -/

/-- The moves that the thread makes until its stack is down to a floor. -/
inductive Returns (S : Setting σ) (floor : List Frame) : Loopback σ → Loopback σ → Prop
  | back {c : Loopback σ} (h : c.stack = floor) : Returns S floor c c
  | on {c c' : Loopback σ} {f : Frame} {above : List Frame} (hstack : c.stack = f :: (above ++ floor))
      (h : Returns S floor (c.move S) c') : Returns S floor c c'

variable {S : Setting σ} {floor : List Frame} {c c' c'' : Loopback σ}

/-- Whether a frame is on its way to an identifier. -/
def Frame.submits : Frame → Bool
  | .client (.todo (.submit ..)) | .client (.todo (.enlist ..)) => true
  | _ => false

theorem submits_perform {k : Client} {t : Task} (ht : (Frame.client (.todo t)).submits = false) :
    ∀ f ∈ (k.perform t).frames, (Frame.client f).submits = false := by
  intro f hf
  cases k.perform_leaves t f hf with
  | encoded => contradiction
  | @inbound m => cases m <;> rfl
  | _ => rfl

theorem submits_resume (u : Client.Upcall) (a : Client.Answer) :
    ∀ f ∈ u.resume a, (Frame.client f).submits = false := by
  have hresumes := u.resumes a
  generalize u.resume a = frames at hresumes
  cases hresumes <;> simp [Frame.submits]

/-- A move leaves alone what is below the topmost frame, and only what is on its way to an identifier leads
there. -/
theorem stack_step (c : Loopback σ) (rest : List Frame) (f : Frame) :
    ∃ first, (step S c rest f).stack = first ++ rest ∧
      (f.submits = false → ∀ g ∈ first, g.submits = false) := by
  have near {frames : List Client.Frame} (h : ∀ g ∈ frames, (Frame.client g).submits = false) :
      ∀ g ∈ frames.map Frame.client, g.submits = false := List.forall_mem_map.mpr h
  -- the far end only comes back to the client with messages, which submit nothing
  have far (frames : List Endpoint.Frame) : ∀ g ∈ frames.map Frame.endpoint, g.submits = false :=
    List.forall_mem_map.mpr fun _ _ => rfl
  cases f with
  | client f =>
    cases f with
    | todo t =>
      refine ⟨_, rfl, fun hf => near fun g hg => ?_⟩
      rcases List.mem_append.mp hg with hg | hg
      · obtain ⟨id, decision, -, rfl⟩ := RecordingClient.mem_wishes hg
        rfl
      · exact submits_perform hf g hg
    | inside u =>
      by_cases hsend : ∃ m, u = .send m ∧ c.isOpen = true
      · obtain ⟨m, rfl, hopen⟩ := hsend
        exact ⟨[.endpoint (.todo (.receive m)), .returning m], by simp [step, call, hopen],
          fun _ => by simp [Frame.submits]⟩
      · have hclosed : ∀ m, u = .send m → c.isOpen = false := fun m hm =>
          Bool.eq_false_iff.mpr fun hopen => hsend ⟨m, hm, hopen⟩
        obtain ⟨a, hanswer⟩ := call_answered hclosed rest
        exact ⟨_, by rw [step, hanswer, answer], fun _ => near (submits_resume u a)⟩
  | returning m => exact ⟨_, rfl, fun _ => near (submits_resume _ _)⟩
  | conclude id p => exact ⟨[_], rfl, fun _ => far [_]⟩
  | endpoint f =>
    cases f with
    | todo t => exact ⟨_, rfl, fun _ => far _⟩
    | inside u =>
      cases u with
      | prepare id p =>
        let reports := (S.handler.reports c.store id p).map fun r : Report =>
          Endpoint.Frame.todo (.raise (.reply (.report id r.severity r.text)))
        refine ⟨reports.map .endpoint ++ [.conclude id p], by simp [step, serve, reports], fun _ => ?_⟩
        exact List.forall_mem_append.mpr ⟨far reports, by simp [Frame.submits]⟩
      | finalize t d => exact ⟨[_], rfl, fun _ => far [_]⟩
      | record id event => exact ⟨[_], rfl, fun _ => far [_]⟩
      | reply m => exact ⟨[_], rfl, fun _ => @near [_] (by simp [Frame.submits])⟩

namespace Returns

theorem stack (h : Returns S floor c c') : c'.stack = floor := by
  induction h with
  | back h => exact h
  | on _ _ ih => exact ih

/-- What has not come back goes on. -/
theorem next {f : Frame} {above : List Frame} (h : Returns S floor c c')
    (hstack : c.stack = f :: (above ++ floor)) : Returns S floor (c.move S) c' := by
  cases h with
  | back h => exact absurd (congrArg List.length (h.symm.trans hstack)) (by simp; omega)
  | on _ h => exact h

/-- A call comes back in one way. -/
theorem unique (h : Returns S floor c c') (h' : Returns S floor c c'') : c' = c'' := by
  induction h with
  | back h =>
    cases h' with
    | back _ => rfl
    | on hstack _ => exact absurd (congrArg List.length (h.symm.trans hstack)) (by simp; omega)
  | on hstack _ ih => exact ih (h'.next hstack)

/-- What comes back to a floor comes by whatever stands on it. -/
theorem through {mid : List Frame} (h : Returns S floor c c') {above : List Frame}
    (hstack : c.stack = above ++ (mid ++ floor)) :
    ∃ between, between.stack = mid ++ floor ∧ Returns S floor between c' := by
  induction h generalizing above with
  | @back c h =>
    obtain rfl : mid = [] := by
      have hlength := congrArg List.length (h.symm.trans hstack)
      simp only [List.length_append] at hlength
      exact List.eq_nil_of_length_eq_zero (by omega)
    exact ⟨c, h, .back h⟩
  | @on c c' f others hothers h ih =>
    cases above with
    | nil => exact ⟨c, hstack, .on hothers h⟩
    | cons g above =>
      obtain ⟨first, hfirst, -⟩ := @stack_step σ S { c with age := c.age + 1 } (above ++ (mid ++ floor)) g
      refine @ih (first ++ above) ?_
      rw [move_cons hstack, List.append_assoc]
      exact hfirst

end Returns

/-- A submission has come back, and its caller was told how it went. -/
structure Executed (S : Setting σ) (c : Loopback σ) (listener : Listener) (operation : Operation)
    (result : Except ClientError OperationId) (c' : Loopback σ) : Prop where
  returns : Returns S c.stack
    { c with stack := .client (.todo (.submit c.isOpen listener operation)) :: c.stack } c'
  told : Told c'.past result

variable {listener : Listener} {operation : Operation} {result result' : Except ClientError OperationId}

theorem Executed.unique (h : Executed S c listener operation result c')
    (h' : Executed S c listener operation result' c'') : c' = c'' ∧ result = result' := by
  obtain rfl := h.returns.unique h'.returns
  exact ⟨rfl, h.told.unique h'.told⟩

theorem Returns.todo {t : Task} {client : Client} {frames : List Client.Frame}
    {shown : List Client.Event} (above : List Frame)
    (hstack : c.stack = .client (.todo t) :: (above ++ floor))
    (hwish : RecordingClient.wish? S.habit c.client t = none)
    (hperform : c.client.perform t = ⟨client, frames, shown⟩)
    (h : Returns S floor
      { c with
        client := client
        stack := frames.map .client ++ (above ++ floor)
        past := c.past ++ c.client.marks t
        age := c.age + 1 } c') : Returns S floor c c' := by
  refine .on hstack ?_
  rw [move_cons hstack, step, RecordingClient.wishes, hwish, hperform]
  exact h

/-- What comes back goes on after a move of the client that leads to no wish. -/
theorem Returns.afterTodo {t : Task} {client : Client} {frames : List Client.Frame}
    {shown : List Client.Event} (h : Returns S floor c c') (above : List Frame)
    (hstack : c.stack = .client (.todo t) :: (above ++ floor))
    (hwish : RecordingClient.wish? S.habit c.client t = none)
    (hperform : c.client.perform t = ⟨client, frames, shown⟩) : Returns S floor
      { c with
        client := client
        stack := frames.map .client ++ (above ++ floor)
        past := c.past ++ c.client.marks t
        age := c.age + 1 } c' := by
  have hnext := h.next hstack
  rw [move_cons hstack, step, RecordingClient.wishes, hwish, hperform] at hnext
  exact hnext

/-- What comes back goes on when foreign code has returned that is not the channel. -/
theorem Returns.afterCall {u : Client.Upcall} (h : Returns S floor c c') (above : List Frame)
    (hstack : c.stack = .client (.inside u) :: (above ++ floor)) (hu : ∀ m, u ≠ .send m) :
    Returns S floor
      { c with
        stack := (u.resume .returned).map .client ++ (above ++ floor)
        past := c.past ++ [.answered u .returned]
        age := c.age + 1 } c' := by
  have hnext := h.next hstack
  rw [move_cons hstack, step, call_of_ne_send hu] at hnext
  exact hnext

/-- What the client refuses by itself comes back without anything having changed. -/
theorem executed_of_refusal {e : ClientError}
    (h : c.client.refusal? c.isOpen operation = some e) :
    ∃ news moves, Client.Refusal listener operation e news ∧
      Executed S c listener operation (.error e)
        { c with past := c.past ++ news, age := c.age + moves } := by
  rcases Client.refuse_of_refusal h with ⟨hsubmit, hmarks⟩ | ⟨payload, hsubmit, henlist, hfirst, hlast⟩
  · refine ⟨_, 1, .atOnce c.isOpen, ?_, _, [], none, List.getLast?_concat ..⟩
    refine .todo [] rfl rfl hsubmit ?_
    rw [hmarks]
    exact .back rfl
  · refine ⟨_, 2, .unlisted c.isOpen payload, ?_, .enlist listener operation payload, [], none, by simp⟩
    refine .todo [] rfl rfl hsubmit (.todo [] rfl rfl henlist ?_)
    dsimp only
    rw [hfirst, hlast, List.append_assoc]
    exact .back rfl

/-- Once the far end is done with a submission, the send returns well, and so does the submission. -/
theorem told_of_returning {id : OperationId} {payload : List UInt8}
    (hstack : c.stack = .returning (.execute id payload) :: floor) (h : Returns S floor c c') :
    Told c'.past (.ok id) := by
  have hanswered := @Returns.next _ _ _ _ _ _ [] h hstack
  rw [move_cons hstack] at hanswered
  have hback := hanswered.afterTodo [] rfl rfl rfl
  obtain rfl := hback.unique (.back rfl)
  exact ⟨.submissionSent id (.ok ()), [], some id, by simp [Client.marks, Client.perform,
    Client.submissionSent, Client.allots, step, answer]⟩

/-- A submission that reached the participant: its operation was given an identifier and is enrolled, the
observer has been told, and nothing has changed otherwise. -/
structure Handed (c : Loopback σ) (listener : Listener) (operation : Operation) (payload : List UInt8)
    (c' : Loopback σ) : Prop where
  encoded : operation.payload.encode c.client.config.maxFrameBytes.toNat = .ok payload
  stack : c'.stack = .endpoint (.todo (.receive (.execute c.client.nextId payload))) ::
    .returning (.execute c.client.nextId payload) :: c.stack
  client : c'.client = (c.client.enrolled listener operation).count .submitted
  endpoint : c'.endpoint = c.endpoint
  store : c'.store = c.store
  past : ∃ news, c'.past = c.past ++ news ∧ (∀ i, news.head? ≠ some (.enlisted i)) ∧
    submissions news = [(c.client.nextId, operation)] ∧ news.flatMap Mark.given = [c.client.nextId] ∧
    ∀ i, news.flatMap (Mark.turns i) = []

/-- What the client does not refuse by itself reaches the participant. -/
theorem handed_of_unrefused (hunrefused : c.client.refusal? c.isOpen operation = none)
    (h : Returns S c.stack
      { c with stack := .client (.todo (.submit c.isOpen listener operation)) :: c.stack } c') :
    ∃ payload handed, Handed c listener operation payload handed ∧ Returns S c.stack handed c' := by
  obtain ⟨hopen, payload, hencoded, hclosed, hsubmit, henlist⟩ := Client.enroll_of_unrefused hunrefused
  rw [hopen] at h
  have henrolled := (h.afterTodo [] rfl rfl hsubmit).afterTodo [] rfl rfl henlist
  -- the message waits below while the observer is told
  have hobserving := (henrolled.afterTodo
    [.client (.todo (.raise (.send (.execute c.client.nextId payload))))] rfl rfl rfl).afterTodo
    [.client (.todo (.raise (.send (.execute c.client.nextId payload))))] rfl rfl rfl
  have hobserved := hobserving.afterCall
    [.client (.todo (.raise (.send (.execute c.client.nextId payload))))] rfl nofun
  have hsending := hobserved.afterTodo [] rfl rfl rfl
  have hcalled := @Returns.next _ _ _ _ _ _ [] hsending rfl
  rw [move_cons rfl] at hcalled
  have hpast : c.past ++ c.client.marks (.submit true listener operation) ++
      c.client.marks (.enlist listener operation payload) ++
      [.moved (.announce (.submitted c.client.nextId)) []] ++
      [.moved (.raise (.observe (.submitted c.client.nextId)))
        [.began (.observe (.submitted c.client.nextId))]] ++
      [.answered (.observe (.submitted c.client.nextId)) .returned] ++
      [.moved (.raise (.send (.execute c.client.nextId payload)))
        [.began (.send (.execute c.client.nextId payload))]] =
      c.past ++ [.moved (.submit true listener operation) [],
        .moved (.enlist listener operation payload) [],
        .enlisted c.client.nextId, .moved (.announce (.submitted c.client.nextId)) [],
        .moved (.raise (.observe (.submitted c.client.nextId)))
          [.began (.observe (.submitted c.client.nextId))],
        .answered (.observe (.submitted c.client.nextId)) .returned,
        .moved (.raise (.send (.execute c.client.nextId payload)))
          [.began (.send (.execute c.client.nextId payload))]] := by
    rw [Client.marks, Client.marks, hsubmit, henlist]
    simp [Client.allots, hclosed]
  refine ⟨payload, _, ?_, hcalled⟩
  refine ⟨hencoded, rfl, rfl, rfl, rfl, _, hpast, by simp, rfl, by simp [Mark.given], fun i => ?_⟩
  by_cases hid : c.client.nextId = i <;>
    simp [Mark.turns, Client.Event.begunAbout, Client.Upcall.about, Client.Upcall.callback?, hid,
      List.filterMap_cons]

/-- What the client does not refuse by itself is not refused. -/
theorem ok_of_unrefused (hunrefused : c.client.refusal? c.isOpen operation = none)
    (h : Executed S c listener operation result c') : result = .ok c.client.nextId := by
  obtain ⟨payload, handed, hhanded, hreturns⟩ := handed_of_unrefused hunrefused h.returns
  -- the far end stands on the send, and is done when that returns
  obtain ⟨between, hbetween, hleft⟩ := @Returns.through _ _ _ _ _
    [.returning (.execute c.client.nextId payload)] hreturns
    [.endpoint (.todo (.receive (.execute c.client.nextId payload)))] hhanded.stack
  exact h.told.unique (told_of_returning hbetween hleft)

/-- Nothing changed at either end, nobody was called and no identifier was given. -/
structure Untouched (c c' : Loopback σ) : Prop where
  same : c' = { c with past := c'.past, age := c'.age }
  silent : ∃ news, c'.past = c.past ++ news ∧ news.flatMap Mark.entered = [] ∧
    news.flatMap Mark.given = [] ∧ ∀ i, news.flatMap (Mark.turns i) = []

/-- How a loopback takes a submission that it refuses: with the first reason that the client has, and
without a trace. -/
structure Answering (S : Setting σ) (c : Loopback σ) (listener : Listener) (operation : Operation) :
    Prop where
  refuses : ∀ e, c.client.refusal? c.isOpen operation = some e →
    ∃ c', Executed S c listener operation (.error e) c'
  refused : ∀ e c', Executed S c listener operation (.error e) c' →
    c.client.refusal? c.isOpen operation = some e ∧ c.Untouched c'

/-- Only the client refuses over a channel that calls straight through. -/
theorem answering (S : Setting σ) (c : Loopback σ) (listener : Listener) (operation : Operation) :
    Answering S c listener operation where
  refuses e he := by
    obtain ⟨_, _, -, hexecuted⟩ := @executed_of_refusal σ S c listener operation e he
    exact ⟨_, hexecuted⟩
  refused e c' h := by
    cases hrefusal : c.client.refusal? c.isOpen operation with
    | none => cases ok_of_unrefused hrefusal h
    | some e' =>
      obtain ⟨news, moves, hnews, hexecuted⟩ :=
        @executed_of_refusal σ S c listener operation e' hrefusal
      obtain ⟨rfl, herror⟩ := hexecuted.unique h
      obtain rfl := Except.error.inj herror
      obtain ⟨hentered, hgiven, hturns, -⟩ := hnews.quiet
      exact ⟨rfl, rfl, news, rfl, hentered, hgiven, hturns⟩

end Loopback

/-- **A refused submission leaves everything as it was**, at any thread of a client over a channel that
records, and over one that calls straight through. Only where the channel refuses the message an
identifier is lost. -/
theorem refused_without_trace {config : Config} {schedule : List Choice}
    {before after : List (List Client.Frame)} {b : RecordingClient}
    (hclientThreads : ClientThreads.run config schedule = b.among before after)
    (haway : isAway b.stack = true)
    (hgiven : (ClientThreads.run config schedule).given.length < 2 ^ 64 - 1)
    (habit : Listener → OperationId → Value → Policy) {σ : Type} (S : Setting σ) (c : Loopback σ)
    (listener : Listener) (operation : Operation) :
    b.Answering habit before after listener operation ∧ c.Answering S listener operation :=
  ⟨RecordingClient.answering hclientThreads haway hgiven habit listener operation,
    Loopback.answering S c listener operation⟩

/-- A recording client with a pending operation, whose channel will refuse the next one. -/
def RecordingClient.unwilling : RecordingClient :=
  run (fun _ _ _ => .hold) {} [.execute (.recorder "") ⟨.undefined, [], .discard⟩, .refuseSends true]

/-- A loopback with a pending operation, whose channel is closed. -/
def Loopback.severed : Loopback KeyValue := (run exchange exchanged).take .closeChannel

theorem refused_without_trace_of_unwilling : ∃ schedule,
    ClientThreads.run {} schedule = RecordingClient.unwilling.among [] [] ∧
      isAway RecordingClient.unwilling.stack = true ∧
      (ClientThreads.run {} schedule).given.length < 2 ^ 64 - 1 ∧
      RecordingClient.unwilling.client.pending.ids = [⟨1⟩] ∧
      (RecordingClient.unwilling.channel.send (.execute ⟨2⟩ [])).1.isOk = false ∧
      RecordingClient.unwilling.Answering (fun _ _ _ => .hold) [] [] (.recorder "")
        ⟨.undefined, [], .discard⟩ ∧
      Loopback.severed.Answering Loopback.exchange (.recorder "") ⟨.undefined, [], .discard⟩ := by
  obtain ⟨hvisited, hidle⟩ := @RecordingClient.visited_run (fun _ _ _ => .hold) {}
    [.execute (.recorder "") ⟨.undefined, [], .discard⟩, .refuseSends true]
  obtain ⟨schedule, hschedule⟩ := RecordingClient.reachable_clientThreads hvisited
  have hclientThreads : ClientThreads.run {} schedule = RecordingClient.unwilling.among [] [] :=
    hschedule.symm
  have hgiven : (ClientThreads.run {} schedule).given.length < 2 ^ 64 - 1 := by
    rw [hclientThreads]
    decide +kernel
  have haway : isAway RecordingClient.unwilling.stack = true := by decide +kernel
  exact ⟨schedule, hclientThreads, haway, hgiven, by decide +kernel, by decide +kernel,
    refused_without_trace hclientThreads haway hgiven
      (fun _ _ _ => .hold) Loopback.exchange Loopback.severed
      (.recorder "") ⟨.undefined, [], .discard⟩⟩

end TwoPhase
