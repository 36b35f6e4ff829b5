import TwoPhase.Proofs.RecordingClient.Basic
import TwoPhase.Proofs.Totals
/-
Every action at a recording client comes to an end.

Work is measured in moves that are still to come. A frame is worth more than all that it can leave
behind, and so is whatever waits in the client: a pending operation, which may still have to be ended, a
callback in a mailbox, which may still decide the operation, and a subscriber. Each move lowers the
total, so a recording client that is left to itself stands still after as many moves as it has labor
(`settle`).
-/

set_option autoImplicit false

namespace TwoPhase

open Client (Task Frame Upcall Answer Event)

/-! ## What there is to do -/

/-- The labor that a callback in a mailbox will cause. -/
def Callback.labor : Callback → Nat
  | .prepared _ => 15
  | _ => 5

/-- The labor that waits in a delivery. -/
def Delivery.labor (d : Delivery) : Nat :=
  (d.mailbox.queue.map Callback.labor).sum + 2 * d.outcome.subscribers.length

namespace Client

/-- The labor of going on after a call out. -/
def Upcall.labor : Upcall → Nat
  | .observe _ | .outcome .. => 1
  | .send (.execute ..) => 2
  | .send _ => 7
  | .notify .. => 3

/-- The labor of what a listener may wish for. -/
def Upcall.wish : Upcall → Nat
  | .notify _ (.prepared _) => 10
  | _ => 0

/-- The labor of a task. -/
def Task.labor : Task → Nat
  | .submit .. => 17
  | .enlist .. => 16
  | .submissionSent .. | .decided .. | .drain _ | .resolve .. => 1
  | .decide .. => 10
  | .claim .. => 9
  | .decisionSent .. => 6
  | .dispatch _ => 21
  | .accept .. => 20
  | .finish .. | .sweep => 4
  | .report .. => 7
  | .announce _ | .subscribe .. => 3
  | .called .. => 2
  | .raise u => u.labor + u.wish + 1

/-- The labor of a frame. -/
def Frame.labor : Frame → Nat
  | .todo t => t.labor
  | .inside u => u.labor

/-- The labor of some frames. -/
def laborOf (frames : List Frame) : Nat := (frames.map Frame.labor).sum

@[simp] theorem laborOf_nil : laborOf [] = 0 := rfl

@[simp] theorem laborOf_cons (f : Frame) (rest : List Frame) :
    laborOf (f :: rest) = f.labor + laborOf rest := List.sum_cons

@[simp] theorem laborOf_append (first rest : List Frame) :
    laborOf (first ++ rest) = laborOf first + laborOf rest := by
  rw [laborOf, List.map_append, List.sum_append]
  rfl

/-- The labor that waits in a client. -/
def labor (c : Client) : Nat :=
  c.pending.total (fun _ => 9) + c.deliveries.total Delivery.labor

/-! ## Every move lowers the labor -/

/-- A callback that is put into a mailbox brings its own labor, or none if there is no mailbox. -/
theorem labor_enqueue (c : Client) (id : OperationId) (callback : Callback) :
    (c.enqueue id callback).1.labor ≤ c.labor + callback.labor := by
  rw [enqueue]
  split
  · exact Nat.le_add_right _ _
  · rename_i d hd
    have htotal := c.deliveries.total_insert Delivery.labor id
      { d with mailbox := (d.mailbox.enqueue callback).1 }
    rw [hd] at htotal
    simp only [labor, Option.map_some, Option.getD_some, Delivery.labor, Mailbox.queue_enqueue,
      List.map_append, List.sum_append, List.map_cons, List.map_nil, List.sum_cons,
      List.sum_nil] at htotal ⊢
    omega

theorem labor_drainIf (id : OperationId) (owed : Bool) : laborOf (drainIf id owed) ≤ 1 := by
  cases owed <;> simp [drainIf, Frame.labor, Task.labor]

/-- What a sweep makes of its operations is worth no more than they were while they were pending. -/
theorem labor_failAll (ids : List OperationId) (c : Client) :
    (c.failAll ids).1.labor + laborOf ((c.failAll ids).2.flatMap fun mine =>
        Frame.todo (.announce (.failed mine.1 .channelClosed)) :: drainIf mine.1 mine.2) ≤
      c.labor + 9 * ids.length := by
  induction ids generalizing c with
  | nil => exact Nat.le_refl _
  | cons id rest ih =>
    have hrest := ih (c.enqueue id (.failed .channelClosed)).1
    have hfirst := c.labor_enqueue id (.failed .channelClosed)
    have hdrain := labor_drainIf id (c.enqueue id (.failed .channelClosed)).2
    rw [failAll]
    simp only [List.flatMap_cons, laborOf_append, laborOf_cons, Frame.labor, Task.labor,
      Callback.labor, List.length_cons] at hfirst hrest hdrain ⊢
    omega

/-- The news that an operation is prepared cost more than the callback that they turn into. -/
theorem labor_accept (c : Client) (id : OperationId) (result : Value) :
    (c.accept id result).client.labor + laborOf (c.accept id result).frames < c.labor + 20 := by
  cases hentry : c.pending.get? id with
  | none =>
    by_cases hlate : id < c.nextId <;>
      simp [accept, hentry, drop, hlate, count, labor, Frame.labor, Task.labor]
  | some entry =>
    by_cases hallows : entry.phase.allows .prepared = true
    · have hpending := c.pending.total_insert (fun _ => 9) id { entry with phase := .prepared }
      rw [hentry] at hpending
      have hpromoted : (c.promote id entry result).labor = c.labor := by
        simp only [labor, promote]
        simp only [Option.map_some, Option.getD_some] at hpending
        omega
      have henqueue := (c.promote id entry result).labor_enqueue id (.prepared result)
      have hdrain := labor_drainIf id ((c.promote id entry result).enqueue id (.prepared result)).2
      rw [accept_of_allows hentry hallows]
      simp only [laborOf_cons, Frame.labor, Task.labor, Callback.labor] at henqueue ⊢
      omega
    · simp [accept, hentry, hallows, count, labor]

/-- So does an end, and the entry that goes makes up for the callback. -/
theorem labor_finish (c : Client) (id : OperationId) (outcome : Outcome) (kind : String) :
    (c.finish id outcome kind).client.labor + laborOf (c.finish id outcome kind).frames <
      c.labor + 4 := by
  cases hentry : c.pending.get? id with
  | none =>
    by_cases hlate : id < c.nextId <;>
      simp [finish, hentry, drop, hlate, count, labor, Frame.labor, Task.labor]
  | some entry =>
    by_cases hallows : entry.phase.allows (finalPhase outcome) = true
    · have hpending := c.pending.total_erase (fun _ => 9) id
      rw [hentry] at hpending
      have hwithout : (c.without id).labor + 9 = c.labor := by
        simp only [labor, without]
        simp only [Option.map_some, Option.getD_some] at hpending
        omega
      have henqueue := (c.without id).labor_enqueue id outcome.callback
      have hcallback : outcome.callback.labor = 5 := by cases outcome <;> rfl
      have hdrain := labor_drainIf id ((c.without id).enqueue id outcome.callback).2
      rw [finish_of_allows hentry hallows]
      simp only [laborOf_cons, Frame.labor, Task.labor]
      omega
    · simp [finish, hentry, hallows, Frame.labor, Task.labor]

/-- A report costs more than its call. -/
theorem labor_report (c : Client) (id : OperationId) (severity : Severity) (text : String) :
    (c.report id severity text).client.labor + laborOf (c.report id severity text).frames <
      c.labor + 7 := by
  have henqueue := c.labor_enqueue id (.report severity text)
  have hdrain := labor_drainIf id (c.enqueue id (.report severity text)).2
  simp only [Callback.labor] at henqueue
  rw [report]
  split
  · exact Nat.lt_of_le_of_lt (Nat.add_le_add henqueue hdrain) (by omega)
  · simp

/-- A sweep empties the table, which makes up for a callback to every operation in it. -/
theorem labor_sweep (c : Client) : c.sweep.client.labor + laborOf c.sweep.frames < c.labor + 4 := by
  have hfail := labor_failAll c.pending.ids { c with closed := true, pending := .empty }
  have hcleared : labor { c with closed := true, pending := .empty } + 9 * c.pending.ids.length =
      c.labor := by
    simp only [labor, Table.total_const, Table.ids, List.length_map, Table.empty, List.length_nil]
    omega
  have hfirst : laborOf (if c.closed then [] else
      [Frame.todo (.announce (.channelClosed c.pending.entries.length))]) ≤ 3 := by
    split <;> simp [Frame.labor, Task.labor]
  simp only [sweep, laborOf_append]
  omega

/-- A deliverer that goes on has taken a callback out of the mailbox. -/
theorem labor_drain (c : Client) (id : OperationId) :
    (c.drain id).client.labor + laborOf (c.drain id).frames < c.labor + 1 := by
  cases hdelivery : c.deliveries.get? id with
  | none => simp [drain, hdelivery]
  | some d =>
    have htotal := c.deliveries.total_insert Delivery.labor id { d with mailbox := d.mailbox.pop.2 }
    rw [hdelivery] at htotal
    cases hqueue : d.mailbox.queue with
    | nil =>
      simp [drain, hdelivery, Mailbox.pop, hqueue, labor, Delivery.labor] at htotal ⊢
      omega
    | cons callback rest =>
      -- a callback that waits is worth its call, with what the listener may wish for
      have hraise : (Task.raise (.notify id callback)).labor + 1 = callback.labor := by
        cases callback <;> rfl
      simp [drain, hdelivery, Mailbox.pop, hqueue, labor, Delivery.labor, Frame.labor] at htotal ⊢
      simp only [Task.labor] at hraise ⊢
      omega

/-- Those that wait in an outcome cell were reckoned with when they came. -/
theorem labor_resolve (c : Client) (id : OperationId) (outcome : Outcome) :
    (c.resolve id outcome).client.labor + laborOf (c.resolve id outcome).frames < c.labor + 1 := by
  cases hdelivery : c.deliveries.get? id with
  | none => simp [resolve, hdelivery]
  | some d =>
    have htotal := c.deliveries.total_insert Delivery.labor id
      { d with outcome := (d.outcome.resolve outcome).1 }
    rw [hdelivery] at htotal
    have hcalls (tags : List String) :
        laborOf (tags.map fun tag => .todo (.raise (.outcome id tag outcome))) = 2 * tags.length := by
      induction tags with
      | nil => rfl
      | cons tag rest ih =>
        simp only [List.map_cons, laborOf_cons, ih, Frame.labor, Task.labor, Upcall.labor,
          Upcall.wish, List.length_cons]
        omega
    cases hcell : d.outcome.outcome <;>
      simp [resolve, hdelivery, labor, Delivery.labor, OutcomeCell.resolve, hcell, hcalls]
        at htotal ⊢ <;> omega

/-- A registration is reckoned with as long as it waits. -/
theorem labor_subscribe (c : Client) (id : OperationId) (tag : String) :
    (c.subscribe id tag).client.labor + laborOf (c.subscribe id tag).frames < c.labor + 3 := by
  cases hdelivery : c.deliveries.get? id with
  | none => simp [subscribe, hdelivery]
  | some d =>
    have htotal := c.deliveries.total_insert Delivery.labor id
      { d with outcome := (d.outcome.subscribe tag).1 }
    rw [hdelivery] at htotal
    cases hcell : d.outcome.outcome <;>
      simp [subscribe, hdelivery, labor, Delivery.labor, OutcomeCell.subscribe, hcell, Frame.labor,
        Task.labor, Upcall.labor, Upcall.wish] at htotal ⊢ <;> omega

/-- A move leaves less labor than it found. -/
theorem labor_perform (c : Client) (t : Task) :
    (c.perform t).client.labor + laborOf (c.perform t).frames < c.labor + t.labor := by
  cases t with
  | submit channelOpen listener operation =>
    cases channelOpen with
    | false => simp [perform, refuse, Task.labor]
    | true =>
      cases hencode : operation.payload.encode c.config.maxFrameBytes.toNat <;>
        simp [perform, hencode, refuse, Frame.labor, Task.labor]
  | enlist listener operation payload =>
    by_cases hclosed : c.closed = true
    · simp [perform, enlist, hclosed, refuse, Task.labor]
    · -- the submission pays for the entry in the table
      have hpending := c.pending.total_insert (fun _ => 9) c.nextId ⟨operation, .submitted, none⟩
      have hdeliveries := c.deliveries.total_insert Delivery.labor c.nextId
        ⟨listener, operation.sink, .idle, .vacant⟩
      simp [perform, enlist, hclosed, labor, Frame.labor, Task.labor, Upcall.labor, Upcall.wish,
        Delivery.labor, Mailbox.idle, OutcomeCell.vacant] at hpending hdeliveries ⊢
      omega
  | submissionSent id result =>
    rcases result with e | ok
    · have herase := c.pending.total_erase (fun _ => 9) id
      by_cases hin : c.pending.contains id = true
      · simp [perform, submissionSent, count, hin, labor, Task.labor]
        omega
      · simp [perform, submissionSent, count, hin, labor, Task.labor]
    · simp [perform, submissionSent, Task.labor]
  | decide id d =>
    cases hhandle : c.handles.get? id with
    | none => simp [perform, decide, hhandle, Frame.labor, Task.labor]
    | some handle =>
      cases hasked : handle.asked <;>
        simp [perform, decide, hhandle, hasked, labor, Frame.labor, Task.labor]
  | claim id d =>
    cases hentry : c.pending.get? id with
    | none => simp [perform, claim, hentry, Frame.labor, Task.labor]
    | some entry =>
      by_cases hopen : entry.phase = .prepared ∧ entry.decision = none
      · have hpending := c.pending.total_insert (fun _ => 9) id { entry with decision := some d }
        rw [hentry] at hpending
        cases d <;>
          simp [perform, claim, hentry, hopen, labor, Frame.labor, Task.labor, Upcall.labor,
            Upcall.wish, Outbound.decide] at hpending ⊢ <;> omega
      · simp [perform, claim, hentry, hopen, Frame.labor, Task.labor]
  | decisionSent id d result =>
    rcases result with e | ok <;>
      simp [perform, decisionSent, count, labor, Frame.labor, Task.labor]
  | decided id d result => simp [perform, Task.labor]
  | dispatch m => cases m <;> simp [perform, taskOf, Frame.labor, Task.labor]
  | accept id result => exact c.labor_accept id result
  | finish id outcome kind => exact c.labor_finish id outcome kind
  | report id severity text => exact c.labor_report id severity text
  | sweep => exact c.labor_sweep
  | announce o => simp [perform, count, labor, Frame.labor, Task.labor, Upcall.labor, Upcall.wish]
  | drain id => exact c.labor_drain id
  | called id callback panicked =>
    cases houtcome : callback.outcome? <;>
      simp [perform, called, houtcome, Frame.labor, Task.labor]
  | resolve id outcome => exact c.labor_resolve id outcome
  | subscribe id tag => exact c.labor_subscribe id tag
  | raise u =>
    show c.labor + (u.labor + 0) < c.labor + (u.labor + u.wish + 1)
    omega

/-- Going on after a call out costs less than the call. -/
theorem labor_resume {u : Upcall} {frames : List Frame} (h : u.Resumes frames) :
    laborOf frames < u.labor := by
  cases h with
  | @decided id d result => cases d <;> simp [Frame.labor, Task.labor, Upcall.labor, Outbound.decide]
  | _ => simp [Frame.labor, Task.labor, Upcall.labor]

end Client

namespace RecordingClient

open Client (laborOf)

/-- The labor at a recording client. -/
def labor (b : RecordingClient) : Nat := b.client.labor + laborOf b.stack

variable {habit : Listener → OperationId → Value → Policy}

/-- **Every move lowers the labor.** -/
theorem labor_move {b : RecordingClient} (h : b.stack ≠ []) : (b.move habit).labor < b.labor := by
  rcases hstack : b.stack with _ | ⟨t | u, rest⟩
  · exact absurd hstack h
  · have hperform := b.client.labor_perform t
    rw [move_todo hstack]
    cases hwish : wish? habit b.client t with
    | none =>
      simp only [labor, hstack, wishes, hwish, Option.map_none, Option.toList_none, List.nil_append,
        Client.laborOf_append, Client.laborOf_cons, Client.Frame.labor]
      omega
    | some wish =>
      -- the listener is called, and what it wishes for was reckoned with
      obtain ⟨result, rfl⟩ := wish_eq_some hwish
      simp [labor, hstack, wishes, hwish, Client.perform, Client.Frame.labor, Client.Task.labor,
        Client.Upcall.labor, Client.Upcall.wish]
      omega
  · have hresume := Client.labor_resume (u.resumes (reply b.channel u).1)
    rw [move_inside hstack]
    simp only [labor, hstack, Client.laborOf_append, Client.laborOf_cons, Client.Frame.labor]
    omega

/-- A recording client that is left to itself comes to stand still, after no more moves than
its labor. -/
theorem iterate_move_idle (b : RecordingClient) (n : Nat) (hn : b.labor ≤ n) :
    ((move habit)^[n] b).stack = [] := by
  induction n generalizing b with
  | zero =>
    by_contra hstack
    have hless := @labor_move habit b hstack
    omega
  | succ n ih =>
    by_cases hstack : b.stack = []
    · rw [iterate_move_nil hstack]
      exact hstack
    · have hless := @labor_move habit b hstack
      rw [Function.iterate_succ_apply]
      exact ih (b.move habit) (by omega)

variable (habit) in
/-- The recording client after it was left to itself. -/
def settle (b : RecordingClient) : RecordingClient := (move habit)^[b.labor] b

/-- **A recording client that is left to itself comes to stand still.** -/
theorem settle_idle (b : RecordingClient) : (b.settle habit).stack = [] :=
  iterate_move_idle b b.labor (Nat.le_refl _)

/-- Whoever waits longer sees the same. -/
theorem settle_eq {b : RecordingClient} {n : Nat} (hn : b.labor ≤ n) :
    (move habit)^[n] b = b.settle habit := by
  obtain ⟨more, rfl⟩ := Nat.exists_eq_add_of_le' hn
  rw [Function.iterate_add_apply]
  exact iterate_move_nil (settle_idle b) more

theorem Visited.settle {config : Config} {b : RecordingClient} (h : Visited habit config b) :
    Visited habit config (b.settle habit) := h.iterate b.labor

variable (habit) in
/-- The recording client after some actions, each of which is let come to its end. -/
def run (config : Config) (actions : List Action) : RecordingClient :=
  actions.foldl (fun b a => (b.take a).settle habit) (fresh config)

theorem run_append (config : Config) (first rest : List Action) :
    run habit config (first ++ rest) =
      rest.foldl (fun b a => (b.take a).settle habit) (run habit config first) := by
  rw [run, run, List.foldl_append]

/-- Between two actions nothing is left to do. -/
theorem visited_run (config : Config) (actions : List Action) :
    Visited habit config (run habit config actions) ∧ (run habit config actions).stack = [] := by
  induction actions using List.reverseRecOn with
  | nil => exact ⟨.fresh, rfl⟩
  | append_singleton actions a ih =>
    rw [run_append]
    exact ⟨(ih.1.taken ih.2 a).settle, settle_idle _⟩

end RecordingClient

end TwoPhase
