import TwoPhase.Proofs.RecordingClient.Labor
import TwoPhase.Proofs.Loopback.Basic
/-
What an action at a loopback can still lead to.

An action can submit one operation, which is prepared once, which is announced once, which one listener
may decide, which is granted once. So whatever stands on the stack, or waits in a mailbox, gets a weight
by how far along that chain it is. The weights on the stack never grow (`Weight.move_le`), for any choice
of weights that falls along the chain; they fall where the far end is entered, if those of the chosen
weights do.
-/

set_option autoImplicit false

namespace TwoPhase

open Client (Task)

/-- What each part of the chain weighs. A decision that is handed over is two things: one for the far
end to carry out, and one to be granted on the return. -/
structure Weight where
  submitting : Nat
  preparing : Nat
  deciding : Nat
  granting : Nat
  preparing_le : preparing ≤ submitting
  deciding_le : deciding ≤ preparing
  granting_le : granting + granting ≤ deciding

namespace Weight

variable (w : Weight)

/-- What a callback in a mailbox weighs. -/
def callback : Callback → Nat
  | .prepared _ => w.deciding
  | _ => 0

/-- What a frame of the client weighs. -/
def client : Client.Frame → Nat
  | .todo (.submit ..) | .todo (.enlist ..) => w.submitting
  | .todo (.raise (.send (.execute ..))) | .inside (.send (.execute ..)) => w.submitting
  | .todo (.raise (.send _)) | .inside (.send _) => w.deciding
  | .todo (.dispatch (.prepared ..)) | .todo (.accept ..) => w.deciding
  | .todo (.raise (.notify _ callback)) => w.callback callback
  | .todo (.decide ..) | .todo (.claim ..) => w.deciding
  | .todo (.decisionSent ..) | .todo (.decided ..) => w.granting
  | _ => 0

/-- What a frame of the participant weighs. -/
def endpoint : Endpoint.Frame → Nat
  | .todo (.receive (.execute ..)) | .todo (.decode ..) => w.preparing
  | .todo (.raise (.prepare ..)) | .inside (.prepare ..) => w.preparing
  | .todo (.prepared ..) => w.deciding
  | .todo (.raise (.reply (.prepared ..))) | .inside (.reply (.prepared ..)) => w.deciding
  | .todo (.receive _) | .todo (.raise (.finalize ..)) | .inside (.finalize ..) => w.granting
  | _ => 0

/-- What a frame weighs. -/
def frame : Loopback.Frame → Nat
  | .client f => w.client f
  | .endpoint f => w.endpoint f
  | .conclude .. => w.deciding
  | .returning (.execute ..) => 0
  | .returning _ => w.granting

/-- What the callbacks in a mailbox weigh. -/
def delivery (d : Delivery) : Nat := (d.mailbox.queue.map w.callback).sum

/-- What waits in the mailboxes of a client weighs. -/
def waiting (c : Client) : Nat := c.deliveries.total w.delivery

/-- What some frames of the client weigh. -/
def clients (frames : List Client.Frame) : Nat := (frames.map w.client).sum

/-- What a stack weighs. -/
def stack (frames : List Loopback.Frame) : Nat := (frames.map w.frame).sum

@[simp] theorem clients_nil : w.clients [] = 0 := rfl

@[simp] theorem clients_cons (f : Client.Frame) (rest : List Client.Frame) :
    w.clients (f :: rest) = w.client f + w.clients rest := List.sum_cons

@[simp] theorem clients_append (first rest : List Client.Frame) :
    w.clients (first ++ rest) = w.clients first + w.clients rest := by
  rw [clients, List.map_append, List.sum_append]
  rfl

/-! ## What the client does -/

/-- A callback that is put into a mailbox adds its own weight, or none if there is no mailbox. -/
theorem waiting_enqueue (c : Client) (id : OperationId) (callback : Callback) :
    w.waiting (c.enqueue id callback).1 ≤ w.waiting c + w.callback callback := by
  rw [Client.enqueue]
  split
  · exact Nat.le_add_right _ _
  · rename_i d hd
    have htotal := c.deliveries.total_insert w.delivery id
      { d with mailbox := (d.mailbox.enqueue callback).1 }
    rw [hd] at htotal
    simp only [waiting, Option.map_some, Option.getD_some, delivery, Mailbox.queue_enqueue,
      List.map_append, List.sum_append, List.map_cons, List.map_nil, List.sum_cons,
      List.sum_nil] at htotal ⊢
    omega

@[simp] theorem clients_drainIf (id : OperationId) (owed : Bool) :
    w.clients (Client.drainIf id owed) = 0 := by
  cases owed <;> rfl

/-- A failure weighs nothing, so the mailboxes weigh no more after all operations have failed. -/
theorem waiting_failAll (ids : List OperationId) (c : Client) :
    w.waiting (c.failAll ids).1 ≤ w.waiting c := by
  induction ids generalizing c with
  | nil => exact Nat.le_refl _
  | cons id rest ih =>
    rw [Client.failAll]
    exact Nat.le_trans (ih _) (w.waiting_enqueue c id (.failed .channelClosed))

/-- Frames that only tell something weigh nothing. -/
theorem clients_eq_zero {frames : List Client.Frame} (h : ∀ f ∈ frames, w.client f = 0) :
    w.clients frames = 0 :=
  List.sum_eq_zero fun n hn => by
    obtain ⟨f, hf, rfl⟩ := List.mem_map.mp hn
    exact h f hf

attribute [local simp] client callback Client.perform Client.refuse Client.drop Client.count

/-- The news that an operation is prepared turn into the callback that its listener may decide in. -/
theorem perform_accept (c : Client) (id : OperationId) (result : Value) :
    w.waiting (c.accept id result).client + w.clients (c.accept id result).frames ≤
      w.waiting c + w.deciding := by
  cases hentry : c.pending.get? id with
  | none => by_cases hlate : id < c.nextId <;> simp [Client.accept, hentry, hlate, waiting]
  | some entry =>
    by_cases hallows : entry.phase.allows .prepared = true
    · have henqueue := w.waiting_enqueue (c.promote id entry result) id (.prepared result)
      rw [Client.accept_of_allows hentry hallows, clients_cons, clients_drainIf]
      exact henqueue
    · simp [Client.accept, hentry, hallows, waiting]

/-- An end leaves nothing but a callback in which no listener decides. -/
theorem perform_finish (c : Client) (id : OperationId) (outcome : Outcome) (kind : String) :
    w.waiting (c.finish id outcome kind).client + w.clients (c.finish id outcome kind).frames ≤
      w.waiting c := by
  cases hentry : c.pending.get? id with
  | none => by_cases hlate : id < c.nextId <;> simp [Client.finish, hentry, hlate, waiting]
  | some entry =>
    by_cases hallows : entry.phase.allows (Client.finalPhase outcome) = true
    · have henqueue := w.waiting_enqueue (c.without id) id outcome.callback
      have hcallback : w.callback outcome.callback = 0 := by cases outcome <;> rfl
      rw [hcallback] at henqueue
      rw [Client.finish_of_allows hentry hallows, clients_cons, clients_drainIf]
      exact henqueue
    · simp [Client.finish, hentry, hallows]

/-- The same holds of a sweep, for all operations at once. -/
theorem perform_sweep (c : Client) :
    w.waiting c.sweep.client + w.clients c.sweep.frames ≤ w.waiting c := by
  have hframes : w.clients c.sweep.frames = 0 := w.clients_eq_zero fun f hf => by
    simp only [Client.sweep, List.mem_append, List.mem_flatMap] at hf
    rcases hf with hf | ⟨⟨id, mine⟩, -, hf⟩
    · cases hclosed : c.closed <;> simp [hclosed] at hf
      rw [hf]
      rfl
    · rcases List.mem_cons.mp hf with rfl | hf
      · rfl
      · cases mine with
        | false => contradiction
        | true =>
          rw [List.mem_singleton.mp hf]
          rfl
  rw [hframes]
  exact w.waiting_failAll c.pending.ids { c with closed := true, pending := .empty }

/-- A callback weighs as much in the call of its listener as it did in the mailbox. -/
theorem perform_drain (c : Client) (id : OperationId) :
    w.waiting (c.drain id).client + w.clients (c.drain id).frames ≤ w.waiting c := by
  cases hdelivery : c.deliveries.get? id with
  | none => simp [Client.drain, hdelivery]
  | some d =>
    have htotal := c.deliveries.total_insert w.delivery id { d with mailbox := d.mailbox.pop.2 }
    rw [hdelivery] at htotal
    cases hqueue : d.mailbox.queue with
    | nil =>
      simp [Client.drain, hdelivery, Mailbox.pop, hqueue, waiting, delivery] at htotal ⊢
      omega
    | cons callback rest =>
      simp [Client.drain, hdelivery, Mailbox.pop, hqueue, waiting, delivery] at htotal ⊢
      omega

/-- A report leaves nothing that could lead to more. -/
theorem perform_report (c : Client) (id : OperationId) (severity : Severity) (text : String) :
    w.waiting (c.report id severity text).client + w.clients (c.report id severity text).frames ≤
      w.waiting c := by
  have henqueue := w.waiting_enqueue c id (.report severity text)
  rw [Client.report]
  split
  · rw [clients_drainIf]
    exact henqueue
  · exact Nat.le_refl _

/-- A resolution tells of an outcome, which leads to nothing. -/
theorem perform_resolve (c : Client) (id : OperationId) (outcome : Outcome) :
    w.waiting (c.resolve id outcome).client + w.clients (c.resolve id outcome).frames ≤
      w.waiting c := by
  cases hdelivery : c.deliveries.get? id with
  | none => simp [Client.resolve, hdelivery]
  | some d =>
    have htotal := c.deliveries.total_insert w.delivery id
      { d with outcome := (d.outcome.resolve outcome).1 }
    rw [hdelivery] at htotal
    have hframes : w.clients (c.resolve id outcome).frames = 0 := w.clients_eq_zero fun f hf => by
      simp only [Client.resolve, hdelivery, List.mem_map] at hf
      obtain ⟨tag, -, rfl⟩ := hf
      rfl
    rw [hframes]
    simp [Client.resolve, hdelivery, waiting, delivery] at htotal ⊢
    omega

/-- A registration may be called at once, which leads to nothing either. -/
theorem perform_subscribe (c : Client) (id : OperationId) (tag : String) :
    w.waiting (c.subscribe id tag).client + w.clients (c.subscribe id tag).frames ≤
      w.waiting c := by
  cases hdelivery : c.deliveries.get? id with
  | none => simp [Client.subscribe, hdelivery]
  | some d =>
    have htotal := c.deliveries.total_insert w.delivery id
      { d with outcome := (d.outcome.subscribe tag).1 }
    rw [hdelivery] at htotal
    cases hknown : (d.outcome.subscribe tag).2 <;>
      simp [Client.subscribe, hdelivery, hknown, waiting, delivery] at htotal ⊢ <;> omega

/-- A call of a listener weighs what the listener may wish for. -/
def wish (w : Weight) : Task → Nat
  | .raise (.notify _ callback) => w.callback callback
  | _ => 0

/-- **No move of the client adds weight.** -/
theorem perform_le (c : Client) (t : Task) :
    w.waiting (c.perform t).client + w.clients (c.perform t).frames + w.wish t ≤
      w.waiting c + w.client (.todo t) := by
  have hgranting := w.granting_le
  cases t with
  | submit channelOpen listener operation =>
    cases channelOpen with
    | false => simp [wish]
    | true =>
      cases hencode : operation.payload.encode c.config.maxFrameBytes.toNat <;>
        simp [hencode, wish]
  | enlist listener operation payload =>
    by_cases hclosed : c.closed = true
    · simp [Client.enlist, hclosed, wish]
    · have htotal := c.deliveries.total_insert w.delivery c.nextId
        ⟨listener, operation.sink, .idle, .vacant⟩
      simp [Client.enlist, hclosed, wish, waiting, delivery, Mailbox.idle] at htotal ⊢
      omega
  | submissionSent id result =>
    rcases result with e | ok
    · by_cases hin : c.pending.contains id = true <;>
        simp [Client.submissionSent, hin, wish, waiting]
    · simp [Client.submissionSent, wish]
  | decide id d =>
    cases hhandle : c.handles.get? id with
    | none =>
      -- a decision that is turned down gives its weight up
      simp [Client.decide, hhandle, wish]
      omega
    | some handle =>
      cases hasked : handle.asked <;> simp [Client.decide, hhandle, hasked, wish, waiting]
      omega
  | claim id d =>
    cases hentry : c.pending.get? id with
    | none =>
      simp [Client.claim, hentry, wish]
      omega
    | some entry =>
      by_cases hopen : entry.phase = .prepared ∧ entry.decision = none
      · cases d <;> simp [Client.claim, hentry, hopen, wish, waiting, Outbound.decide]
      · simp [Client.claim, hentry, hopen, wish]
        omega
  | decisionSent id d result =>
    rcases result with e | ok <;> simp [Client.decisionSent, wish, waiting]
  | decided id d result => simp [wish]
  | dispatch m => cases m <;> simp [Client.taskOf, wish]
  | accept id result => exact w.perform_accept c id result
  | finish id outcome kind => exact w.perform_finish c id outcome kind
  | report id severity text => exact w.perform_report c id severity text
  | sweep => exact w.perform_sweep c
  | announce o => simp [wish, waiting]
  | drain id => exact w.perform_drain c id
  | called id callback panicked =>
    cases houtcome : callback.outcome? <;> simp [Client.called, houtcome, wish]
  | resolve id outcome => exact w.perform_resolve c id outcome
  | subscribe id tag => exact w.perform_subscribe c id tag
  | raise u =>
    cases u with
    | send m => cases m <;> simp [wish]
    | _ => simp [wish]

/-! ## What the participant does -/

/-- What some frames of the participant weigh. -/
def endpoints (w : Weight) (frames : List Endpoint.Frame) : Nat := (frames.map w.endpoint).sum

attribute [local simp] endpoints endpoint

/-- A decision that arrives weighs as much as it did on its way, if its operation is held at all. -/
theorem endpoints_take (e : Endpoint) (i : OperationId) (d : Decision) :
    w.endpoints (e.take i d).frames ≤ w.granting := by
  rcases hheld : e.transactions.get? i with _ | _ | t <;> simp [Endpoint.take, hheld]

/-- **No move of the participant adds weight.** -/
theorem serve_le (e : Endpoint) (now : UInt64) (t : Endpoint.Task) :
    w.endpoints (e.perform now t).frames ≤ w.endpoint (.todo t) := by
  have hdeciding := w.deciding_le
  cases t with
  | receive m =>
    cases m with
    | execute i payload =>
      by_cases hknown : e.transactions.contains i = true <;>
        simp [Endpoint.perform, Endpoint.enter, hknown]
    | commit i => exact w.endpoints_take e i .commit
    | rollback i => exact w.endpoints_take e i .rollback
  | decode i payload =>
    cases hdecode : Payload.decode payload <;>
      simp [Endpoint.perform, Endpoint.decode, hdecode, hdeciding]
  | prepared i result => cases result <;> simp [Endpoint.perform, Endpoint.prepared]
  | finalized t d result => cases result <;> simp [Endpoint.perform, Endpoint.finalized]
  | recorded i result => cases result <;> simp [Endpoint.perform]
  | note n => simp [Endpoint.perform]
  | raise u =>
    cases u with
    | reply m => cases m <;> simp [Endpoint.perform]
    | _ => simp [Endpoint.perform]

/-! ## What a loopback does -/

@[simp] theorem stack_nil : w.stack [] = 0 := rfl

@[simp] theorem stack_cons (f : Loopback.Frame) (rest : List Loopback.Frame) :
    w.stack (f :: rest) = w.frame f + w.stack rest := List.sum_cons

@[simp] theorem stack_append (first rest : List Loopback.Frame) :
    w.stack (first ++ rest) = w.stack first + w.stack rest := by
  rw [stack, List.map_append, List.sum_append]
  rfl

@[simp] theorem stack_map_client (frames : List Client.Frame) :
    w.stack (frames.map Loopback.Frame.client) = w.clients frames := by
  rw [stack, List.map_map]
  rfl

@[simp] theorem stack_map_endpoint (frames : List Endpoint.Frame) :
    w.stack (frames.map Loopback.Frame.endpoint) = w.endpoints frames := by
  rw [stack, List.map_map]
  rfl

/-- Going on after a call out weighs no more than the call. -/
theorem clients_resume (u : Client.Upcall) (a : Client.Answer) :
    w.clients (u.resume a) ≤ w.client (.inside u) := by
  have hgranting := w.granting_le
  have hresumes := u.resumes a
  generalize u.resume a = frames at hresumes
  cases hresumes with
  | @decided id d result =>
    cases d <;> simp [Outbound.decide] <;> omega
  | _ => simp

/-- Reports weigh nothing. -/
theorem stack_reports (id : OperationId) (reports : List Report) :
    w.stack (reports.map fun r =>
      .endpoint (.todo (.raise (.reply (.report id r.severity r.text))))) = 0 :=
  List.sum_eq_zero fun n hn => by
    obtain ⟨f, hf, rfl⟩ := List.mem_map.mp hn
    obtain ⟨r, -, rfl⟩ := List.mem_map.mp hf
    rfl

end Weight

namespace Loopback

variable {σ : Type} {S : Setting σ} {c : Loopback σ} {rest : List Frame} (w : Weight)

/-- What a loopback weighs: its stack, and what waits in the mailboxes. -/
def weight (w : Weight) (c : Loopback σ) : Nat := w.waiting c.client + w.stack c.stack

attribute [local simp] Weight.frame Weight.client Weight.endpoint

/-- What a listener wishes for weighs as much as its call did. -/
theorem clients_wishes (k : Client) (t : Task) :
    w.clients (RecordingClient.wishes S.habit k t) ≤ w.wish t := by
  cases hwish : RecordingClient.wish? S.habit k t with
  | none => simp [RecordingClient.wishes, hwish]
  | some wish =>
    obtain ⟨result, rfl⟩ := RecordingClient.wish_eq_some hwish
    simp [RecordingClient.wishes, hwish, Weight.wish, Weight.callback]

/-- A message that is handed over weighs what the participant makes of it, and the grant of a decision. -/
def handed (w : Weight) (m : Outbound) : Nat :=
  w.endpoint (.todo (.receive m)) + w.frame (.returning m)

/-- What the channel takes over splits in two that weigh no more together: what the participant makes of
it, and the grant. -/
theorem handed_le (m : Outbound) : handed w m ≤ w.client (.inside (.send m)) := by
  have hpreparing := w.preparing_le
  have hgranting := w.granting_le
  cases m <;> simp [handed] <;> omega

/-- A message that is handed over leaves the stack of the client and comes back as what it is at the
other end. -/
theorem weight_handed {m : Outbound} (hstack : c.stack = .client (.inside (.send m)) :: rest)
    (hopen : c.isOpen = true) :
    (c.move S).weight w = w.waiting c.client + handed w m + w.stack rest := by
  rw [move_cons hstack]
  simp [step, call, hopen, weight, handed]
  omega

/-- When the handler prepares, its reports come on top and weigh nothing, and its answer is what the
rest of the chain goes on with. -/
theorem weight_prepare {id : OperationId} {p : Payload}
    (hstack : c.stack = .endpoint (.inside (.prepare id p)) :: rest) :
    (c.move S).weight w = w.waiting c.client + w.deciding + w.stack rest := by
  rw [move_cons hstack]
  simp [step, serve, weight, w.stack_reports]
  omega

/-- **No move adds weight.** -/
theorem weight_move (c : Loopback σ) : (c.move S).weight w ≤ c.weight w := by
  rcases hstack : c.stack with _ | ⟨f, rest⟩
  · rw [move_nil hstack]
  have hweight : c.weight w = w.waiting c.client + (w.frame f + w.stack rest) := by
    rw [weight, hstack, w.stack_cons]
  rw [hweight]
  cases f with
  | client f =>
    cases f with
    | todo t =>
      have hperform := w.perform_le c.client t
      have hwishes := clients_wishes (S := S) w c.client t
      rw [move_cons hstack]
      simp only [step, weight, Weight.stack_append, Weight.stack_map_client, Weight.clients_append,
        Weight.frame]
      omega
    | inside u =>
      -- the channel takes a message over, or the call is answered where it was made
      by_cases hsend : ∃ m, u = .send m ∧ c.isOpen = true
      · obtain ⟨m, rfl, hopen⟩ := hsend
        have hhanded := handed_le w m
        rw [weight_handed w hstack hopen, Weight.frame]
        omega
      · have hclosed : ∀ m, u = .send m → c.isOpen = false := fun m hm =>
          Bool.eq_false_iff.mpr fun hopen => hsend ⟨m, hm, hopen⟩
        obtain ⟨a, hanswer⟩ := call_answered (c := { c with age := c.age + 1 }) hclosed rest
        have hresume := w.clients_resume u a
        rw [move_cons hstack]
        simp only [step, hanswer, answer, weight, Weight.stack_append, Weight.stack_map_client,
          Weight.frame]
        omega
  | returning m =>
    rw [move_cons hstack]
    simp only [step, answer, weight, Weight.stack_append, Weight.stack_map_client]
    cases m <;> simp [Client.Upcall.resume]
  | conclude id p =>
    rw [move_cons hstack]
    simp [step, weight]
  | endpoint f =>
    cases f with
    | todo t =>
      have hserve := w.serve_le c.endpoint (S.clock (c.age + 1)) t
      rw [move_cons hstack]
      simp only [step, weight, Weight.stack_append, Weight.stack_map_endpoint, Weight.frame]
      omega
    | inside u =>
      cases u with
      | prepare id p =>
        have hdeciding := w.deciding_le
        rw [weight_prepare w hstack, Weight.frame, Weight.endpoint]
        omega
      | reply m =>
        rw [move_cons hstack]
        cases m <;> simp [step, serve, weight]
      | _ =>
        rw [move_cons hstack]
        simp [step, serve, weight]

end Loopback

end TwoPhase
