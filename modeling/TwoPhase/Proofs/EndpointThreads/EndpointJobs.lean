import TwoPhase.Participant.Handler
import TwoPhase.Proofs.EndpointThreads.Basic
/-
The threads of an endpoint, with the message that each of their frames belongs to.

A thread is a stack of frames, and once a message has been taken nothing tells its frames from those of
the message below. Here the frames of a thread are grouped by the message that is handled in them. The
handling of one message is a job; it keeps what was done about its message, so that the answers to one
message can be told from those to all the others. Only the topmost job of a thread goes on, and a job
without frames is over and is closed.

Foreign code answers here with what its type lets it answer: the handler with its result, the journal
with its own. Apart from that the jobs do what the threads of an endpoint do (`endpointThreads_run`).
-/

set_option autoImplicit false

namespace TwoPhase

open Endpoint (Task Frame Upcall Answer)

/-! ## Jobs -/

/-- Something that was done about a message. -/
inductive Doing where
  /-- The message was received, and this is what the table held of its operation. -/
  | found (held : Option Transaction)
  /-- What the table holds of its operation changed to this. -/
  | filed (entry : Option Transaction)
  /-- The handler made a report. -/
  | reported (r : Report)
  /-- Foreign code was called. -/
  | called (u : Upcall)
  /-- That code came back. -/
  | answered (u : Upcall) (a : Answer)

namespace Endpoint

/-- Whether foreign code can answer like that. -/
def Upcall.fits : Upcall → Answer → Bool
  | .prepare .., .handled _ | .finalize .., .handled _ | .record .., .journaled _
  | .reply _, .returned => true
  | _, _ => false

theorem Upcall.exists_fits (u : Upcall) : ∃ a, u.fits a = true := by
  cases u with
  | prepare _ _ | finalize _ _ => exact ⟨.handled (.ok default), rfl⟩
  | record _ _ => exact ⟨.journaled (.ok 0), rfl⟩
  | reply _ => exact ⟨.returned, rfl⟩

/-- What one move does about a message of the operation `id`. -/
def doings (e : Endpoint) (id : OperationId) (now : UInt64) (t : Task) : List Doing :=
  let held := e.transactions.get? id
  let entry := (e.perform now t).endpoint.transactions.get? id
  let filed := if entry = held then [] else [.filed entry]
  match t with
  | .receive _ => .found held :: filed
  | .raise u => .called u :: filed
  | _ => filed

end Endpoint

/-- The handling of one message: the frames that are left of it, how many moves and answers it took so
far, and what was done. -/
structure Job where
  message : Outbound
  frames : List Frame
  steps : Nat
  record : List Doing

namespace Job

/-- A message that is about to be received. -/
def start (m : Outbound) : Job := ⟨m, [.todo (.receive m)], 0, []⟩

/-- The operation that a job is about. -/
def id (job : Job) : OperationId := job.message.id

/-- What a choice makes of the topmost job of the thread that it picks, if the job can follow it. -/
def turn (e : Endpoint) : Job → EndpointThreads.Choice → Option (Endpoint × Job)
  | ⟨m, .inside (.prepare id payload) :: rest, steps, record⟩, .report _ severity text =>
    some (e, ⟨m, .todo (.raise (.reply (.report id severity text))) :: .inside (.prepare id payload) ::
      rest, steps, record ++ [.reported ⟨severity, text⟩]⟩)
  | ⟨m, .todo t :: rest, steps, record⟩, .move _ now =>
    some ((e.perform now t).endpoint,
      ⟨m, (e.perform now t).frames ++ rest, steps + 1, record ++ e.doings m.id now t⟩)
  | ⟨m, .inside u :: rest, steps, record⟩, .answer _ a =>
    if u.fits a then some (e, ⟨m, u.resume a ++ rest, steps + 1, record ++ [.answered u a]⟩) else none
  | _, _ => none

/-- The turns that a job can take. -/
inductive Turn (e : Endpoint) : Job → Endpoint → Job → Prop
  | report {m : Outbound} {id : OperationId} {payload : Payload} {rest : List Frame} {steps : Nat}
      {record : List Doing} (r : Report) :
      Turn e ⟨m, .inside (.prepare id payload) :: rest, steps, record⟩ e
        ⟨m, .todo (.raise (.reply (.report id r.severity r.text))) :: .inside (.prepare id payload) ::
          rest, steps, record ++ [.reported r]⟩
  | move {m : Outbound} {t : Task} {rest : List Frame} {steps : Nat} {record : List Doing}
      (now : UInt64) :
      Turn e ⟨m, .todo t :: rest, steps, record⟩ (e.perform now t).endpoint
        ⟨m, (e.perform now t).frames ++ rest, steps + 1, record ++ e.doings m.id now t⟩
  | answer {m : Outbound} {u : Upcall} {rest : List Frame} {steps : Nat} {record : List Doing}
      {a : Answer} (hfits : u.fits a = true) :
      Turn e ⟨m, .inside u :: rest, steps, record⟩ e
        ⟨m, u.resume a ++ rest, steps + 1, record ++ [.answered u a]⟩

theorem turn_taken {e e' : Endpoint} {job job' : Job} {choice : EndpointThreads.Choice}
    (h : job.turn e choice = some (e', job')) : Turn e job e' job' := by
  unfold turn at h
  split at h
  · obtain ⟨rfl, rfl⟩ := Prod.mk.inj (Option.some.inj h)
    exact .report ⟨_, _⟩
  · obtain ⟨rfl, rfl⟩ := Prod.mk.inj (Option.some.inj h)
    exact .move _
  · split at h
    · rename_i hfits
      obtain ⟨rfl, rfl⟩ := Prod.mk.inj (Option.some.inj h)
      exact .answer hfits
    · contradiction
  · contradiction

/-- A turn is about the same message as before. -/
theorem Turn.message {e e' : Endpoint} {job job' : Job} (h : Turn e job e' job') :
    job'.message = job.message := by
  cases h <;> rfl

/-- **A job is never stuck**: either it moves, or the foreign code that it is inside of can answer. -/
theorem turn_possible (e : Endpoint) (n : Nat) {job : Job} (hframes : job.frames ≠ []) :
    ∃ choice e' job', ((∃ now, choice = .move n now) ∨ ∃ a, choice = .answer n a) ∧
      job.turn e choice = some (e', job') ∧ job'.steps = job.steps + 1 := by
  obtain ⟨m, frames, steps, record⟩ := job
  rcases frames with _ | ⟨t | u, rest⟩
  · contradiction
  · exact ⟨.move n 0, _, _, Or.inl ⟨0, rfl⟩, rfl, rfl⟩
  · obtain ⟨a, ha⟩ := u.exists_fits
    refine ⟨.answer n a, e, ⟨m, u.resume a ++ rest, steps + 1, record ++ [.answered u a]⟩,
      Or.inr ⟨a, rfl⟩, ?_, rfl⟩
    simp only [turn, ha, if_true]

end Job

/-- The choices that have a thread go on with its topmost job. -/
def EndpointThreads.Choice.On (n : Nat) : EndpointThreads.Choice → Prop
  | .report k _ _ | .move k _ | .answer k _ => k = n
  | _ => False

/-! ## The jobs of an endpoint -/

/-- One endpoint, the jobs in progress on each thread, the topmost first, the jobs that are over, and
the messages that were handed in. -/
structure EndpointJobs where
  endpoint : Endpoint
  threads : List (List Job)
  closed : List Job
  handed : List Outbound

namespace EndpointJobs

/-- An endpoint that nobody used yet. -/
def fresh : EndpointJobs := ⟨.fresh, [], [], []⟩

/-- All jobs, those that are over and those in progress. -/
def jobs (d : EndpointJobs) : List Job := d.closed ++ d.threads.flatten

/-- The frames of a thread. -/
def stack (jobs : List Job) : List Frame := jobs.flatMap (·.frames)

@[simp] theorem stack_nil : stack [] = [] := rfl

@[simp] theorem stack_cons (job : Job) (jobs : List Job) :
    stack (job :: jobs) = job.frames ++ stack jobs := List.flatMap_cons

/-- The topmost job of a thread takes a turn, and is closed if nothing is left of it. -/
def turn (d : EndpointJobs) (n : Nat) (choice : EndpointThreads.Choice) : EndpointJobs :=
  match d.threads[n]? with
  | some (job :: jobs) =>
    match job.turn d.endpoint choice with
    | some (e, job') =>
      if job'.frames.isEmpty then ⟨e, d.threads.set n jobs, d.closed ++ [job'], d.handed⟩
      else ⟨e, d.threads.set n (job' :: jobs), d.closed, d.handed⟩
    | none => d
  | _ => d

/-- What a choice leads to. A choice that the thread cannot follow changes nothing. -/
def act (d : EndpointJobs) : EndpointThreads.Choice → EndpointJobs
  | .join => { d with threads := d.threads ++ [[]] }
  | .hand n m =>
    match d.threads[n]? with
    | some jobs =>
      if EndpointThreads.isFree (stack jobs) then
        { d with threads := d.threads.set n (Job.start m :: jobs), handed := d.handed ++ [m] }
      else d
    | none => d
  | .report n severity text => d.turn n (.report n severity text)
  | .move n now => d.turn n (.move n now)
  | .answer n a => d.turn n (.answer n a)

/-- The endpoint and its jobs after a schedule. -/
def run (schedule : List EndpointThreads.Choice) : EndpointJobs := schedule.foldl act fresh

/-! ## Steps -/

/-- One thing that can happen at an endpoint with jobs. -/
inductive Step : EndpointJobs → EndpointJobs → Prop
  | join {d : EndpointJobs} : Step d { d with threads := d.threads ++ [[]] }
  | hand {e : Endpoint} {before after : List (List Job)} {jobs closed : List Job}
      {handed : List Outbound} (m : Outbound) :
      Step ⟨e, before ++ jobs :: after, closed, handed⟩
        ⟨e, before ++ (Job.start m :: jobs) :: after, closed, handed ++ [m]⟩
  | turn {e e' : Endpoint} {before after : List (List Job)} {job job' : Job} {jobs closed : List Job}
      {handed : List Outbound} (h : Job.Turn e job e' job') (hgoes : job'.frames ≠ []) :
      Step ⟨e, before ++ (job :: jobs) :: after, closed, handed⟩
        ⟨e', before ++ (job' :: jobs) :: after, closed, handed⟩
  | close {e e' : Endpoint} {before after : List (List Job)} {job job' : Job} {jobs closed : List Job}
      {handed : List Outbound} (h : Job.Turn e job e' job') (hover : job'.frames = []) :
      Step ⟨e, before ++ (job :: jobs) :: after, closed, handed⟩
        ⟨e', before ++ jobs :: after, closed ++ [job'], handed⟩

variable {d d' : EndpointJobs}

/-- Either nobody takes a turn, or the topmost job of the thread does. -/
theorem turn_cases (d : EndpointJobs) (n : Nat) (choice : EndpointThreads.Choice) :
    (d.turn n choice = d ∧
      ∀ job jobs, d.threads[n]? = some (job :: jobs) → job.turn d.endpoint choice = none) ∨
      ∃ (job : Job) (jobs : List Job) (e : Endpoint) (job' : Job),
        d.threads[n]? = some (job :: jobs) ∧ job.turn d.endpoint choice = some (e, job') ∧
        d.turn n choice =
          if job'.frames.isEmpty then ⟨e, d.threads.set n jobs, d.closed ++ [job'], d.handed⟩
          else ⟨e, d.threads.set n (job' :: jobs), d.closed, d.handed⟩ := by
  rcases hn : d.threads[n]? with _ | _ | ⟨job, jobs⟩
  · exact Or.inl ⟨by simp only [turn, hn], by simp⟩
  · exact Or.inl ⟨by simp only [turn, hn], by simp⟩
  · rcases hturn : job.turn d.endpoint choice with _ | ⟨e, job'⟩
    · refine Or.inl ⟨by simp only [turn, hn, hturn], fun job' jobs' h => ?_⟩
      obtain ⟨rfl, -⟩ := List.cons.inj (Option.some.inj h)
      exact hturn
    · exact Or.inr ⟨job, jobs, e, job', rfl, hturn, by simp only [turn, hn, hturn]⟩

theorem turn_step (d : EndpointJobs) (n : Nat) (choice : EndpointThreads.Choice) :
    d.turn n choice = d ∨ Step d (d.turn n choice) := by
  rcases d.turn_cases n choice with ⟨hsame, -⟩ | ⟨job, jobs, e', job', hn, hturn, hd⟩
  · exact Or.inl hsame
  · obtain ⟨e, threads, closed, handed⟩ := d
    obtain ⟨before, after, rfl, rfl, hset⟩ := around hn
    have htaken := Job.turn_taken hturn
    refine Or.inr ?_
    rw [hd]
    simp only [hset]
    by_cases hover : job'.frames = []
    · rw [if_pos (by simp [hover])]
      exact .close htaken hover
    · rw [if_neg (by simp [hover])]
      exact .turn htaken hover

/-- **A choice is a step**, unless it changes nothing. -/
theorem act_step (d : EndpointJobs) (choice : EndpointThreads.Choice) :
    d.act choice = d ∨ Step d (d.act choice) := by
  cases choice with
  | join => exact Or.inr .join
  | hand n m =>
    obtain ⟨e, threads, closed, handed⟩ := d
    cases hn : threads[n]? with
    | none => exact Or.inl (by simp only [act, hn])
    | some jobs =>
      by_cases hfree : EndpointThreads.isFree (stack jobs) = true
      · obtain ⟨before, after, rfl, rfl, hset⟩ := around hn
        refine Or.inr ?_
        simp only [act, hn, if_pos hfree, hset]
        exact .hand m
      · exact Or.inl (by simp only [act, hn, if_neg hfree])
  | report n severity text => exact d.turn_step n _
  | move n now => exact d.turn_step n _
  | answer n a => exact d.turn_step n _

/-- What holds of a fresh endpoint and survives every step holds after every schedule. -/
theorem run_induction {P : EndpointJobs → Prop} (hfresh : P fresh)
    (hstep : ∀ d d' : EndpointJobs, P d → Step d d' → P d') (schedule : List EndpointThreads.Choice) :
    P (run schedule) :=
  foldl_induction act_step hstep hfresh schedule

/-! ## What holds of every job -/

/-- The endpoint is in the one condition, and every job in the other. -/
structure Keeps (K : Endpoint → Prop) (Q : Job → Prop) (d : EndpointJobs) : Prop where
  endpoint : K d.endpoint
  jobs : ∀ job ∈ d.jobs, Q job

/-- What every turn keeps, of the endpoint and of the job that takes it, holds at all times. -/
theorem keeps_run {K : Endpoint → Prop} {Q : Job → Prop} (hfresh : K .fresh)
    (hstart : ∀ m, Q (.start m))
    (hturn : ∀ e job e' job', K e → Q job → Job.Turn e job e' job' → K e' ∧ Q job')
    (schedule : List EndpointThreads.Choice) : Keeps K Q (run schedule) := by
  refine run_induction (P := Keeps K Q) ⟨hfresh, by simp [fresh, jobs]⟩ ?_ schedule
  -- the jobs that take no turn are those of before
  rintro d d' ⟨hendpoint, hjobs⟩ hstep
  cases hstep with
  | join => exact ⟨hendpoint, by simpa [jobs] using hjobs⟩
  | hand m =>
    refine ⟨hendpoint, fun job hjob => ?_⟩
    simp only [jobs, List.mem_append, List.mem_flatten, List.mem_cons] at hjob hjobs
    grind
  | @turn e e' before after job job' jobs closed handed h hgoes =>
    have hjob : Q job := hjobs job (by simp [EndpointJobs.jobs])
    obtain ⟨hendpoint', hjob'⟩ := hturn e job e' job' hendpoint hjob h
    refine ⟨hendpoint', fun other hother => ?_⟩
    simp only [EndpointJobs.jobs, List.flatten_append, List.flatten_cons, List.cons_append, List.mem_append,
      List.mem_cons] at hother hjobs
    grind
  | @close e e' before after job job' jobs closed handed h hover =>
    have hjob : Q job := hjobs job (by simp [EndpointJobs.jobs])
    obtain ⟨hendpoint', hjob'⟩ := hturn e job e' job' hendpoint hjob h
    refine ⟨hendpoint', fun other hother => ?_⟩
    simp only [EndpointJobs.jobs, List.flatten_append, List.flatten_cons, List.cons_append, List.mem_append,
      List.mem_cons] at hother hjobs
    grind

/-! ## What stays in order -/

/-- The jobs in progress have something left to do, those that are closed have not, and every message
that was handed in has its job. -/
structure Sorted (d : EndpointJobs) : Prop where
  progress : ∀ jobs ∈ d.threads, ∀ job ∈ jobs, job.frames ≠ []
  closed : ∀ job ∈ d.closed, job.frames = []
  handed : (d.jobs.map (·.message)).Perm d.handed

theorem Sorted.step (h : Sorted d) (hstep : Step d d') : Sorted d' := by
  obtain ⟨hprogress, hclosed, hhanded⟩ := h
  -- a turn keeps the message of its job, so the messages of all jobs are still those that were handed in
  cases hstep with
  | join =>
    refine ⟨fun jobs hjobs => ?_, hclosed, by simpa [jobs] using hhanded⟩
    rcases List.mem_append.mp hjobs with hjobs | hjobs
    · exact hprogress jobs hjobs
    · rw [List.mem_singleton.mp hjobs]
      simp
  | @hand e before after jobs closed handed m =>
    refine ⟨?_, hclosed, ?_⟩
    · simp only [List.forall_mem_append, List.forall_mem_cons] at hprogress ⊢
      exact ⟨hprogress.1, ⟨by simp [Job.start], hprogress.2.1⟩, hprogress.2.2⟩
    · simp only [EndpointJobs.jobs, List.flatten_append, List.flatten_cons, List.map_append, List.map_cons,
        List.cons_append, ← List.append_assoc] at hhanded ⊢
      refine List.perm_middle.trans ?_
      refine (List.Perm.cons m ?_).trans (List.perm_append_singleton m handed).symm
      simpa only [List.append_assoc] using hhanded
  | turn hturn hgoes =>
    refine ⟨?_, hclosed, ?_⟩
    · simp only [List.forall_mem_append, List.forall_mem_cons] at hprogress ⊢
      exact ⟨hprogress.1, ⟨hgoes, hprogress.2.1.2⟩, hprogress.2.2⟩
    · simpa [EndpointJobs.jobs, hturn.message] using hhanded
  | close hturn hover =>
    refine ⟨?_, ?_, ?_⟩
    · simp only [List.forall_mem_append, List.forall_mem_cons] at hprogress ⊢
      exact ⟨hprogress.1, hprogress.2.1.2, hprogress.2.2⟩
    · simp only [List.forall_mem_append, List.forall_mem_singleton]
      exact ⟨hclosed, hover⟩
    · simp only [EndpointJobs.jobs, List.flatten_append, List.flatten_cons, List.map_append, List.map_cons,
        List.cons_append, List.append_assoc, List.nil_append, hturn.message] at hhanded ⊢
      refine List.Perm.trans (List.Perm.append_left _ ?_) hhanded
      exact List.perm_middle.symm

theorem sorted_run (schedule : List EndpointThreads.Choice) : Sorted (run schedule) :=
  run_induction (P := Sorted) ⟨by simp [fresh], by simp [fresh], by simp [fresh, jobs]⟩
    (fun _ _ h hstep => h.step hstep) schedule

/-! ## The threads without their jobs -/

/-- The threads without the messages that their frames belong to. -/
def endpointThreads (d : EndpointJobs) (past : List (Nat × Incident)) : EndpointThreads :=
  ⟨d.endpoint, d.threads.map stack, past⟩

/-- An answer is what the foreign code that the thread is inside of can give. -/
def Fits (threads : List (List Frame)) : EndpointThreads.Choice → Prop
  | .answer n a => ∀ u rest, threads[n]? = some (.inside u :: rest) → u.fits a = true
  | _ => True

section
variable {e e' : Endpoint} {job job' : Job} {choice : EndpointThreads.Choice} {n : Nat}
  {threads : List (List Frame)} {rest : List Frame}

/-- Where a job takes a turn, so does the thread it is on. -/
theorem endpointThreads_follows (past : List (Nat × Incident)) (hon : choice.On n)
    (hturn : job.turn e choice = some (e', job')) (hn : threads[n]? = some (job.frames ++ rest)) :
    ∃ past', EndpointThreads.act ⟨e, threads, past⟩ choice =
      ⟨e', threads.set n (job'.frames ++ rest), past'⟩ := by
  unfold Job.turn at hturn
  split at hturn
  · obtain rfl : _ = n := hon
    obtain ⟨rfl, rfl⟩ := Prod.mk.inj (Option.some.inj hturn)
    exact ⟨past, by simp [EndpointThreads.act, hn]⟩
  · obtain rfl : _ = n := hon
    obtain ⟨rfl, rfl⟩ := Prod.mk.inj (Option.some.inj hturn)
    exact ⟨_, by simp [EndpointThreads.act, hn]; rfl⟩
  · split at hturn
    · obtain rfl : _ = n := hon
      obtain ⟨rfl, rfl⟩ := Prod.mk.inj (Option.some.inj hturn)
      exact ⟨_, by simp [EndpointThreads.act, hn]; rfl⟩
    · contradiction
  · contradiction

/-- Where it cannot, neither can the thread. -/
theorem endpointThreads_stays (past : List (Nat × Incident)) (hon : choice.On n)
    (hfits : Fits threads choice) (hframes : job.frames ≠ []) (hturn : job.turn e choice = none)
    (hn : threads[n]? = some (job.frames ++ rest)) :
    EndpointThreads.act ⟨e, threads, past⟩ choice = ⟨e, threads, past⟩ := by
  obtain ⟨m, _ | ⟨t | u, frames⟩, steps, record⟩ := job
  · contradiction
  · cases choice with
    | join | hand _ _ => contradiction
    | report k severity text =>
      obtain rfl : k = n := hon
      simp [EndpointThreads.act, hn]
    | move k now => contradiction
    | answer k a =>
      obtain rfl : k = n := hon
      simp [EndpointThreads.act, hn]
  · cases choice with
    | join | hand _ _ => contradiction
    | report k severity text =>
      obtain rfl : k = n := hon
      cases u with
      | prepare id payload => contradiction
      | _ => simp [EndpointThreads.act, hn]
    | move k now =>
      obtain rfl : k = n := hon
      simp [EndpointThreads.act, hn]
    | answer k a =>
      obtain rfl : k = n := hon
      simp [Job.turn, hfits u _ hn] at hturn

/-- Nor does anybody who is not there. -/
theorem endpointThreads_absent (past : List (Nat × Incident)) (hon : choice.On n)
    (hn : threads[n]? = none ∨ threads[n]? = some []) :
    EndpointThreads.act ⟨e, threads, past⟩ choice = ⟨e, threads, past⟩ := by
  cases choice with
  | join | hand _ _ => contradiction
  | report k _ _ | move k _ | answer k _ =>
    obtain rfl : k = n := hon
    rcases hn with hn | hn <;> simp [EndpointThreads.act, hn]

end

theorem endpointThreads_turn {d : EndpointJobs} (hsorted : Sorted d) (past : List (Nat × Incident))
    {n : Nat} {choice : EndpointThreads.Choice} (hon : choice.On n)
    (hfits : Fits (d.threads.map stack) choice) :
    (d.turn n choice).endpointThreads ((d.endpointThreads past).act choice).past =
      (d.endpointThreads past).act choice := by
  rcases d.turn_cases n choice with ⟨hsame, hnone⟩ | ⟨job, jobs, e', job', hn, hturn, hd⟩
  · have hstays : (d.endpointThreads past).act choice = d.endpointThreads past := by
      rcases hn : d.threads[n]? with _ | _ | ⟨job, jobs⟩
      · exact endpointThreads_absent past hon (Or.inl (by simp [hn]))
      · exact endpointThreads_absent past hon (Or.inr (by simp [hn]))
      · have hstack : (d.threads.map stack)[n]? = some (job.frames ++ stack jobs) := by
          simp [hn]
        have hframes := hsorted.progress _ (List.mem_of_getElem? hn) job List.mem_cons_self
        exact endpointThreads_stays past hon hfits hframes (hnone job jobs hn) hstack
    rw [hsame, hstays]
    rfl
  · have hstack : (d.threads.map stack)[n]? = some (job.frames ++ stack jobs) := by
      simp [hn]
    obtain ⟨past', hact⟩ := endpointThreads_follows past hon hturn hstack
    rw [hd, endpointThreads.eq_def d past, hact]
    -- a closed job leaves no frames behind
    by_cases hover : job'.frames = []
    · simp [endpointThreads, hover, List.map_set]
    · simp [endpointThreads, hover, List.map_set]

/-- **The jobs do what the threads do.** -/
theorem endpointThreads_act {d : EndpointJobs} (hsorted : Sorted d) (past : List (Nat × Incident))
    {choice : EndpointThreads.Choice} (hfits : Fits (d.threads.map stack) choice) :
    (d.act choice).endpointThreads ((d.endpointThreads past).act choice).past =
      (d.endpointThreads past).act choice := by
  cases choice with
  | join => simp [act, EndpointThreads.act, endpointThreads]
  | hand n m =>
    rcases hn : d.threads[n]? with _ | jobs
    · simp [act, EndpointThreads.act, endpointThreads, hn]
    · by_cases hfree : EndpointThreads.isFree (stack jobs) = true
      · simp [act, EndpointThreads.act, endpointThreads, hn, hfree, List.map_set, Job.start]
      · simp [act, EndpointThreads.act, endpointThreads, hn, hfree]
  | report n severity text => exact endpointThreads_turn hsorted past rfl hfits
  | move n now => exact endpointThreads_turn hsorted past rfl hfits
  | answer n a => exact endpointThreads_turn hsorted past rfl hfits

/-- The jobs do what the threads do, under every schedule whose answers fit. -/
theorem endpointThreads_run {schedule : List EndpointThreads.Choice}
    (hfits : ∀ before choice after, schedule = before ++ choice :: after →
      Fits (EndpointThreads.run before).threads choice) :
    (run schedule).endpointThreads (EndpointThreads.run schedule).past = EndpointThreads.run schedule := by
  induction schedule using List.reverseRecOn with
  | nil => rfl
  | append_singleton schedule choice ih =>
    have hendpointThreads := ih fun before choice' after heq =>
      hfits before choice' (after ++ [choice]) (by rw [heq, List.append_assoc, List.cons_append])
    have hthreads : (run schedule).threads.map stack = (EndpointThreads.run schedule).threads :=
      congrArg EndpointThreads.threads hendpointThreads
    have hfits' : Fits ((run schedule).threads.map stack) choice := by
      rw [hthreads]
      exact hfits schedule choice [] rfl
    have hact := endpointThreads_act (sorted_run schedule) (EndpointThreads.run schedule).past hfits'
    rw [hendpointThreads] at hact
    simpa only [run, EndpointThreads.run, List.foldl_append, List.foldl_cons, List.foldl_nil] using hact

end EndpointJobs

end TwoPhase
