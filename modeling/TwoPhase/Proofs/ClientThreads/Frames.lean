import TwoPhase.Proofs.ClientThreads.Basic
/-
What a move leaves to do.

`Leaves` lists the frames that can take the place of a task, and `Resumes` what is left of a call out
once it returns. Where an invariant is about what stands on the stacks, and not about the state of the
client, it is a case analysis on these lists.
-/

set_option autoImplicit false

namespace TwoPhase

open Client (Task Frame Upcall Answer Event)

/-- The frames that a task can leave. Some are harmless whoever leaves them. -/
inductive Client.Task.Leaves : Task → Frame → Prop
  | encoded {channelOpen : Bool} {listener : Listener} {operation : Operation}
      {payload : List UInt8} :
      Leaves (.submit channelOpen listener operation) (.todo (.enlist listener operation payload))
  | submitting {listener : Listener} {operation : Operation} {payload : List UInt8}
      {id : OperationId} :
      Leaves (.enlist listener operation payload) (.todo (.raise (.send (.execute id payload))))
  | claiming {id : OperationId} {d : Decision} : Leaves (.decide id d) (.todo (.claim id d))
  | deciding {id : OperationId} {d : Decision} :
      Leaves (.claim id d) (.todo (.raise (.send (.decide id d))))
  | failing {id : OperationId} {d : Decision} {e : ChannelError} :
      Leaves (.decisionSent id d (.error e))
        (.todo (.finish id (.failed (.sendFailed d e.message)) "send_failed"))
  | inbound {m : Inbound} : Leaves (.dispatch m) (.todo (Client.taskOf m))
  | calling {id : OperationId} {callback : Callback} :
      Leaves (.drain id) (.todo (.raise (.notify id callback)))
  | resolving {id : OperationId} {callback : Callback} {panicked : Bool} {outcome : Outcome} :
      Leaves (.called id callback panicked) (.todo (.resolve id outcome))
  | entering {u : Upcall} : Leaves (.raise u) (.inside u)
  | answering {t : Task} {id : OperationId} {d : Decision} {result : Except ClientError Unit} :
      Leaves t (.todo (.decided id d result))
  | announcing {t : Task} {o : Observation} : Leaves t (.todo (.announce o))
  | observing {t : Task} {o : Observation} : Leaves t (.todo (.raise (.observe o)))
  | draining {t : Task} {id : OperationId} : Leaves t (.todo (.drain id))
  | telling {t : Task} {id : OperationId} {tag : String} {outcome : Outcome} :
      Leaves t (.todo (.raise (.outcome id tag outcome)))

/-- What a call out can leave when it returns: the rest of a submission, of a decision or of a callback,
and otherwise nothing. -/
inductive Client.Upcall.Resumes : Upcall → List Frame → Prop
  | submitted {id : OperationId} {payload : List UInt8} {result : Except ChannelError Unit} :
      Resumes (.send (.execute id payload)) [.todo (.submissionSent id result)]
  | decided {id : OperationId} {d : Decision} {result : Except ChannelError Unit} :
      Resumes (.send (.decide id d)) [.todo (.decisionSent id d result)]
  | called {id : OperationId} {callback : Callback} {panicked : Bool} :
      Resumes (.notify id callback) [.todo (.called id callback panicked)]
  | observed {o : Observation} : Resumes (.observe o) []
  | told {id : OperationId} {tag : String} {outcome : Outcome} : Resumes (.outcome id tag outcome) []

namespace Client

/-- **The list is complete**, whatever the answer is. -/
theorem Upcall.resumes (u : Upcall) (a : Answer) : u.Resumes (u.resume a) := by
  cases u with
  | send m =>
    cases m with
    | execute id payload => cases a <;> exact .submitted
    | commit id => cases a <;> exact @Resumes.decided id .commit _
    | rollback id => cases a <;> exact @Resumes.decided id .rollback _
  | notify id callback => cases a <;> exact .called
  | observe o => exact .observed
  | outcome id tag outcome => exact .told

/-- What an answer leaves is on top. -/
theorem Upcall.Resumes.tail {u : Upcall} {frames : List Frame} (h : u.Resumes frames) :
    frames.tail = [] := by
  cases h <;> rfl

theorem leaves_drainIf (t : Task) (id : OperationId) (owed : Bool) :
    ∀ f ∈ drainIf id owed, t.Leaves f := by
  intro f hf
  cases owed with
  | false => contradiction
  | true =>
    rw [List.mem_singleton.mp hf]
    exact .draining

/-- A notification that finds no entry leaves at most an observation. -/
theorem leaves_drop (c : Client) (t : Task) (id : OperationId) (kind : String) :
    ∀ f ∈ (c.drop id kind).frames, t.Leaves f := by
  intro f hf
  unfold drop at hf
  by_cases hlate : id < c.nextId
  · rw [if_pos hlate] at hf
    contradiction
  · rw [if_neg hlate] at hf
    rw [List.mem_singleton.mp hf]
    exact .announcing

section
variable (c : Client) (id : OperationId)

/-- A submission goes on if the payload can be encoded, and nothing is left of it otherwise. -/
theorem leaves_submit (channelOpen : Bool) (listener : Listener) (operation : Operation) :
    ∀ f ∈ (c.perform (.submit channelOpen listener operation)).frames,
      Task.Leaves (.submit channelOpen listener operation) f := by
  intro f hf
  cases channelOpen with
  | false => contradiction
  | true =>
    cases hencode : operation.payload.encode c.config.maxFrameBytes.toNat with
    | error e => simp [perform, hencode, refuse] at hf
    | ok payload =>
      obtain rfl : f = _ := by simpa [perform, hencode] using hf
      exact .encoded

/-- A new operation is observed and then sent. -/
theorem leaves_enlist (listener : Listener) (operation : Operation) (payload : List UInt8) :
    ∀ f ∈ (c.enlist listener operation payload).frames,
      Task.Leaves (.enlist listener operation payload) f := by
  intro f hf
  unfold enlist at hf
  by_cases hclosed : c.closed = true
  · rw [if_pos hclosed] at hf
    contradiction
  · rw [if_neg hclosed] at hf
    obtain rfl | rfl : f = _ ∨ f = _ := by simpa using hf
    · exact .announcing
    · exact .submitting

theorem leaves_submissionSent (result : Except ChannelError Unit) :
    ∀ f ∈ (c.submissionSent id result).frames, Task.Leaves (.submissionSent id result) f := by
  intro f hf
  rcases result with e | ok
  · by_cases hin : c.pending.contains id = true <;> simp [submissionSent, count, hin] at hf
  · contradiction

/-- A decision is claimed the first time that the handle is asked for one, and refused from then on. -/
theorem leaves_decide (d : Decision) :
    ∀ f ∈ (c.decide id d).frames, Task.Leaves (.decide id d) f := by
  intro f hf
  cases hhandle : c.handles.get? id with
  | none =>
    obtain rfl : f = _ := by simpa [decide, hhandle] using hf
    exact .answering
  | some handle =>
    cases hasked : handle.asked with
    | true =>
      obtain rfl : f = _ := by simpa [decide, hhandle, hasked] using hf
      exact .answering
    | false =>
      obtain rfl : f = _ := by simpa [decide, hhandle, hasked] using hf
      exact .claiming

/-- A claim that is granted leads to a message, and one that comes too late to a refusal. -/
theorem leaves_claim (d : Decision) :
    ∀ f ∈ (c.claim id d).frames, Task.Leaves (.claim id d) f := by
  intro f hf
  cases hentry : c.pending.get? id with
  | none =>
    obtain rfl : f = _ := by simpa [claim, hentry] using hf
    exact .answering
  | some entry =>
    by_cases hopen : entry.phase = .prepared ∧ entry.decision = none
    · obtain rfl : f = _ := by simpa [claim, hentry, hopen] using hf
      exact .deciding
    · obtain rfl : f = _ := by simpa [claim, hentry, hopen] using hf
      exact .answering

/-- A decision that was not sent lets its operation fail before the caller is answered. -/
theorem leaves_decisionSent (d : Decision) (result : Except ChannelError Unit) :
    ∀ f ∈ (c.decisionSent id d result).frames, Task.Leaves (.decisionSent id d result) f := by
  intro f hf
  rcases result with e | ok
  · obtain rfl | rfl : f = _ ∨ f = _ := by simpa [decisionSent] using hf
    · exact .failing
    · exact .answering
  · obtain rfl | rfl : f = _ ∨ f = _ := by simpa [decisionSent] using hf
    · exact .announcing
    · exact .answering

/-- The news that an operation is prepared leave an observation and perhaps a deliverer. -/
theorem leaves_accept (result : Value) :
    ∀ f ∈ (c.accept id result).frames, Task.Leaves (.accept id result) f := by
  intro f hf
  unfold accept at hf
  cases hentry : c.pending.get? id with
  | none =>
    rw [hentry] at hf
    exact leaves_drop c _ id _ f hf
  | some entry =>
    rw [hentry] at hf
    by_cases hallows : entry.phase.allows .prepared = true
    · simp only [if_pos hallows, List.mem_cons] at hf
      rcases hf with rfl | hf
      · exact .announcing
      · exact leaves_drainIf _ _ _ f hf
    · simp [hallows] at hf

/-- An end leaves an observation and perhaps a deliverer, and an end that comes too early
a violation. -/
theorem leaves_finish (outcome : Outcome) (kind : String) :
    ∀ f ∈ (c.finish id outcome kind).frames, Task.Leaves (.finish id outcome kind) f := by
  intro f hf
  unfold finish at hf
  cases hentry : c.pending.get? id with
  | none =>
    rw [hentry] at hf
    exact leaves_drop c _ id _ f hf
  | some entry =>
    rw [hentry] at hf
    by_cases hallows : entry.phase.allows (finalPhase outcome) = true
    · simp only [if_pos hallows, List.mem_cons] at hf
      rcases hf with rfl | hf
      · exact .announcing
      · exact leaves_drainIf _ _ _ f hf
    · obtain rfl : f = _ := by simpa [hallows] using hf
      exact .announcing

theorem leaves_report (severity : Severity) (text : String) :
    ∀ f ∈ (c.report id severity text).frames, Task.Leaves (.report id severity text) f := by
  intro f hf
  unfold report at hf
  by_cases hin : c.pending.contains id = true
  · rw [if_pos hin] at hf
    exact leaves_drainIf _ _ _ f hf
  · rw [if_neg hin] at hf
    contradiction

/-- A sweep leaves an observation and perhaps a deliverer for each operation, after one for
the channel. -/
theorem leaves_sweep : ∀ f ∈ c.sweep.frames, Task.Leaves .sweep f := by
  intro f hf
  simp only [sweep, List.mem_append, List.mem_flatMap] at hf
  rcases hf with hf | ⟨⟨id, mine⟩, _, hf⟩
  · cases hclosed : c.closed with
    | true => simp [hclosed] at hf
    | false =>
      obtain rfl : f = _ := by simpa [hclosed] using hf
      exact .announcing
  · rcases List.mem_cons.mp hf with rfl | hf
    · exact .announcing
    · exact leaves_drainIf _ _ _ f hf

/-- A deliverer calls the listener and comes back for the next callback. -/
theorem leaves_drain : ∀ f ∈ (c.drain id).frames, Task.Leaves (.drain id) f := by
  intro f hf
  cases hdelivery : c.deliveries.get? id with
  | none => simp [drain, hdelivery] at hf
  | some d =>
    rcases hpop : d.mailbox.pop with ⟨_ | callback, mailbox⟩
    · simp [drain, hdelivery, hpop] at hf
    · obtain rfl | rfl : f = _ ∨ f = _ := by simpa [drain, hdelivery, hpop] using hf
      · exact .calling
      · exact .draining

/-- Once the listener was told of an end the outcome cell is resolved. -/
theorem leaves_called (callback : Callback) (panicked : Bool) :
    ∀ f ∈ (c.called id callback panicked).frames,
      Task.Leaves (.called id callback panicked) f := by
  intro f hf
  cases houtcome : callback.outcome? with
  | none => simp [called, houtcome] at hf
  | some outcome =>
    obtain rfl : f = _ := by simpa [called, houtcome] using hf
    exact .resolving

theorem leaves_resolve (outcome : Outcome) :
    ∀ f ∈ (c.resolve id outcome).frames, Task.Leaves (.resolve id outcome) f := by
  intro f hf
  cases hdelivery : c.deliveries.get? id with
  | none => simp [resolve, hdelivery] at hf
  | some d =>
    obtain ⟨tag, _, rfl⟩ := by simpa [resolve, hdelivery] using hf
    exact .telling

theorem leaves_subscribe (tag : String) :
    ∀ f ∈ (c.subscribe id tag).frames, Task.Leaves (.subscribe id tag) f := by
  intro f hf
  cases hdelivery : c.deliveries.get? id with
  | none => simp [subscribe, hdelivery] at hf
  | some d =>
    cases hknown : (d.outcome.subscribe tag).2 with
    | none => simp [subscribe, hdelivery, hknown] at hf
    | some outcome =>
      obtain rfl : f = _ := by simpa [subscribe, hdelivery, hknown] using hf
      exact .telling

end

/-- **The list is complete.** -/
theorem perform_leaves (c : Client) (t : Task) : ∀ f ∈ (c.perform t).frames, t.Leaves f := by
  -- one lemma per task that is a function of its own; the others leave at most one frame
  cases t with
  | submit channelOpen listener operation => exact c.leaves_submit channelOpen listener operation
  | enlist listener operation payload => exact c.leaves_enlist listener operation payload
  | submissionSent id result => exact c.leaves_submissionSent id result
  | decide id d => exact c.leaves_decide id d
  | claim id d => exact c.leaves_claim id d
  | decisionSent id d result => exact c.leaves_decisionSent id d result
  | accept id result => exact c.leaves_accept id result
  | finish id outcome kind => exact c.leaves_finish id outcome kind
  | report id severity text => exact c.leaves_report id severity text
  | sweep => exact c.leaves_sweep
  | drain id => exact c.leaves_drain id
  | called id callback panicked => exact c.leaves_called id callback panicked
  | resolve id outcome => exact c.leaves_resolve id outcome
  | subscribe id tag => exact c.leaves_subscribe id tag
  | decided id d result =>
    intro f hf
    contradiction
  | dispatch m =>
    intro f hf
    rw [List.mem_singleton.mp hf]
    exact .inbound
  | announce o =>
    intro f hf
    rw [List.mem_singleton.mp hf]
    exact .observing
  | raise u =>
    intro f hf
    rw [List.mem_singleton.mp hf]
    exact .entering

/-- Requests to decide come from outside only. -/
theorem Task.not_leaves_decide (t : Task) (id : OperationId) (d : Decision) :
    ¬ t.Leaves (.todo (.decide id d)) := by
  intro h
  generalize hf : Frame.todo (.decide id d) = f at h
  cases h with
  | @inbound m => cases m <;> cases hf
  | _ => cases hf

end Client

/-! ## What waits below

Foreign code is what a thread can be away on, so a request is put on top of foreign code or of nothing. If
no move leaves a frame of some kind but on top, then such frames are on top for as long as they are there.
-/

namespace ClientThreads

variable {P : Frame → Prop}

/-- Everything is so that is not on top of its stack. -/
def Below (P : Frame → Prop) (s : ClientThreads) : Prop := ∀ stack ∈ s.threads, ∀ f ∈ stack.tail, P f

/-- Where a thread is away, everything on its stack is so. -/
theorem all_of_away (hinside : ∀ u, P (.inside u)) {stack : List Frame} (haway : isAway stack = true)
    (hstack : ∀ f ∈ stack.tail, P f) : ∀ f ∈ stack, P f := by
  intro f hf
  cases stack with
  | nil => contradiction
  | cons top stack =>
    rcases List.mem_cons.mp hf with rfl | hf
    · cases f with
      | todo t => contradiction
      | inside u => exact hinside u
    · exact hstack f hf

/-- A stack takes the place of another. -/
theorem Below.put {c c' : Client} {past past' : List Mark} {before after : List (List Frame)}
    {stack stack' : List Frame} (h : Below P ⟨c, before ++ stack :: after, past⟩)
    (hstack : (∀ f ∈ stack.tail, P f) → ∀ f ∈ stack'.tail, P f) :
    Below P ⟨c', before ++ stack' :: after, past'⟩ := by
  intro other hother
  rcases List.mem_append.mp hother with hmem | hmem
  · exact h other (List.mem_append_left _ hmem)
  · rcases List.mem_cons.mp hmem with rfl | hmem
    · exact hstack (h stack (List.mem_append_right before List.mem_cons_self))
    · exact h other (List.mem_append_right before (List.mem_cons_of_mem _ hmem))

/-- If calls out are such frames, and so is whatever a task leaves below the top, then no step puts
another frame there. -/
theorem Step.below (hinside : ∀ u, P (.inside u))
    (hperform : ∀ (c : Client) (t : Task), ∀ f ∈ (c.perform t).frames.tail, P f) {s s' : ClientThreads}
    (step : Step s s') (h : s.Below P) : s'.Below P := by
  cases step with
  | join =>
    intro stack hstack
    rcases List.mem_append.mp hstack with hstack | hstack
    · exact h stack hstack
    · rw [List.mem_singleton.mp hstack]
      exact fun f hf => by contradiction
  | ask r haway => exact Below.put h (all_of_away hinside haway)
  | @move c past before after rest t =>
    refine Below.put h fun hrest f hf => ?_
    rcases mem_tail_append hf with hf | hf
    · exact hperform c t f hf
    · exact hrest f hf
  | answer u a =>
    refine Below.put h fun hrest f hf => ?_
    rcases mem_tail_append hf with hf | hf
    · rw [(u.resumes a).tail] at hf
      contradiction
    · exact hrest f hf

/-- In a run nothing but such frames ever stands below the top of a stack. -/
theorem below_run (hinside : ∀ u, P (.inside u))
    (hperform : ∀ (c : Client) (t : Task), ∀ f ∈ (c.perform t).frames.tail, P f) (config : Config)
    (schedule : List Choice) : (run config schedule).Below P :=
  run_induction (fun _ h => by contradiction) (fun _ _ h step => step.below hinside hperform h) schedule

end ClientThreads

end TwoPhase
