import TwoPhase.Proofs.ClientThreads.Reports
import TwoPhase.Proofs.ClientThreads.Waits
/-
Messages on their way to an operation.

A message that the channel delivers is noted first and weighed in the next move of the same thread. None is
lost in between or weighed twice, whoever else is at work (`delivered_perm`), and a client that has one
thread weighs them in the order in which they came (`delivered_eq`). What is told about an operation goes to
the listener and the sink with which it was submitted, so whoever belongs to one operation alone is told
about nothing else (`Own.heardBy`).
-/

set_option autoImplicit false

namespace TwoPhase

open Client (Task Frame Upcall Answer Event)

/-! ## Delivered and weighed -/

namespace Client

/-- The message about an operation that a task takes from the channel. -/
def Task.delivered? : Task → Option Inbound
  | .dispatch m => m.id?.map fun _ => m
  | _ => none

/-- The message that a task weighs. A decision that could not be sent ends its operation as well, but not
by a message. -/
def Task.weighed? : Task → Option Inbound
  | .accept id result => some (.prepared id result)
  | .finish id (.completed result) _ => some (.completed id result)
  | .finish id (.failed f) kind => if kind = "send_failed" then none else some (.failed id f)
  | .report id severity text => some (.report id severity text)
  | _ => none

/-- The message that a frame is about to weigh. -/
def Frame.weighs? : Frame → Option Inbound
  | .todo t => t.weighed?
  | .inside _ => none

/-- What was delivered is about to be weighed, and nothing else is. -/
theorem weighs_perform (c : Client) (t : Task) :
    (c.perform t).frames.filterMap Frame.weighs? = t.delivered?.toList := by
  cases t with
  | dispatch m => cases m <;> rfl
  | _ =>
    refine List.filterMap_eq_nil_iff.mpr fun f hf => ?_
    cases c.perform_leaves _ f hf <;> rfl

theorem not_weighing_below (c : Client) (t : Task) :
    ∀ f ∈ (c.perform t).frames.tail, f.weighs? = none := by
  intro f hf
  cases t with
  | dispatch m => contradiction
  | _ => cases c.perform_leaves _ f (List.mem_of_mem_tail hf) <;> rfl

end Client

/-- The message about an operation that was delivered. -/
def Mark.delivered? : Mark → Option Inbound
  | .moved t _ => t.delivered?
  | _ => none

/-- The message that was weighed. -/
def Mark.weighed? : Mark → Option Inbound
  | .moved t _ => t.weighed?
  | _ => none

theorem Client.delivered_marks (c : Client) (t : Task) :
    (c.marks t).filterMap Mark.delivered? = t.delivered?.toList ∧
      (c.marks t).filterMap Mark.weighed? = t.weighed?.toList := by
  rw [marks, filterMap_cons_toList, filterMap_cons_toList]
  cases c.allots t <;> simp [Mark.delivered?, Mark.weighed?]

theorem Request.weighs_task (r : Request) : (Frame.todo r.task).weighs? = none := by
  cases r <;> rfl

theorem Client.Upcall.Resumes.weighs {u : Upcall} {frames : List Frame} (h : u.Resumes frames) :
    frames.filterMap Frame.weighs? = [] := by
  cases h <;> rfl

namespace ClientThreads

/-- The messages about operations that the channel delivered, first to last. -/
def delivered (s : ClientThreads) : List Inbound := s.past.filterMap Mark.delivered?

/-- The messages that were weighed, first to last. -/
def weighed (s : ClientThreads) : List Inbound := s.past.filterMap Mark.weighed?

/-- The messages that threads are about to weigh. -/
def arriving (s : ClientThreads) : List Inbound := s.frames.filterMap Frame.weighs?

/-- What one step does to messages on their way: at most one of those that are about to be weighed is, and
at most one that is delivered takes its place. On a single thread it was the only one. -/
theorem Step.messages {s s' : ClientThreads} (step : Step s s') :
    ∃ (before after : List Inbound) (old new : Option Inbound),
      s.arriving = before ++ old.toList ++ after ∧ s'.arriving = before ++ new.toList ++ after ∧
      s'.weighed = s.weighed ++ old.toList ∧ s'.delivered = s.delivered ++ new.toList ∧
      (s'.threads.length ≤ 1 → s.Below (fun f => f.weighs? = none) →
        (old = none ∧ new = none) ∨ (before = [] ∧ after = [])) := by
  cases step with
  | @join s =>
    exact ⟨s.arriving, [], none, none, by simp, by simp [arriving, frames], by simp [weighed],
      by simp [delivered], fun _ _ => Or.inl ⟨rfl, rfl⟩⟩
  | @ask c past before after stack r haway =>
    refine ⟨_, [], none, none, (by simp; rfl), ?_, by simp [weighed], by simp [delivered],
      fun _ _ => Or.inl ⟨rfl, rfl⟩⟩
    simp [arriving, frames, Request.weighs_task r]
  | @answer c past before after rest u a =>
    refine ⟨_, [], none, none, (by simp; rfl), ?_, by simp [weighed, Mark.weighed?, filterMap_cons_toList],
      by simp [delivered, Mark.delivered?, filterMap_cons_toList], fun _ _ => Or.inl ⟨rfl, rfl⟩⟩
    have hinside : Frame.weighs? (.inside u) = none := rfl
    simp [arriving, frames, (u.resumes a).weighs, hinside]
  | @move c past before after rest t =>
    obtain ⟨hdelivered, hweighed⟩ := c.delivered_marks t
    have htop : Frame.weighs? (.todo t) = t.weighed? := rfl
    refine ⟨before.flatten.filterMap Frame.weighs?,
      rest.filterMap Frame.weighs? ++ after.flatten.filterMap Frame.weighs?, t.weighed?, t.delivered?,
      ?_, ?_, ?_, ?_, fun hone hbelow => Or.inr ?_⟩
    · simp [arriving, frames, filterMap_cons_toList, htop]
    · simp [arriving, frames, Client.weighs_perform]
    · simp [weighed, hweighed]
    · simp [delivered, hdelivered]
    · -- below the frame that moves nothing waits to be weighed, and there is no other thread
      obtain ⟨rfl, rfl⟩ : before = [] ∧ after = [] := by
        simp only [List.length_append, List.length_cons] at hone
        exact ⟨List.eq_nil_of_length_eq_zero (by omega), List.eq_nil_of_length_eq_zero (by omega)⟩
      have hrest : rest.filterMap Frame.weighs? = [] :=
        List.filterMap_eq_nil_iff.mpr (hbelow _ (List.mem_singleton_self _))
      simp [hrest]

/-- **No message is lost, and none is weighed twice**: what was delivered was weighed, or is about to be. -/
theorem delivered_perm (config : Config) (schedule : List Choice) :
    (run config schedule).delivered.Perm
      ((run config schedule).weighed ++ (run config schedule).arriving) := by
  refine run_induction (P := fun s => s.delivered.Perm (s.weighed ++ s.arriving)) (.refl [])
    (fun s s' h step => ?_) schedule
  obtain ⟨before, after, old, new, harriving, harriving', hweighed, hdelivered, -⟩ := step.messages
  -- the message in hand passes on to what was weighed, and the new one is delivered
  classical
  rw [List.perm_iff_count] at h ⊢
  intro m
  have hm := h m
  rw [harriving] at hm
  rw [harriving', hweighed, hdelivered]
  simp only [List.count_append] at hm ⊢
  omega

theorem Step.threads_le {s s' : ClientThreads} (step : Step s s') :
    s.threads.length ≤ s'.threads.length := by
  cases step <;> simp

/-- **One thread weighs what was delivered in the order in which it came.** -/
theorem delivered_eq (config : Config) (schedule : List Choice)
    (hone : (run config schedule).threads.length ≤ 1) :
    (run config schedule).delivered = (run config schedule).weighed ++ (run config schedule).arriving := by
  revert hone
  refine (run_induction (P := fun s => s.Below (fun f => f.weighs? = none) ∧
    (s.threads.length ≤ 1 → s.delivered = s.weighed ++ s.arriving)) ⟨fun _ h => by contradiction,
      fun _ => rfl⟩ (fun s s' h step => ⟨step.below (fun _ => rfl) Client.not_weighing_below h.1,
        fun hone => ?_⟩) schedule).2
  obtain ⟨before, after, old, new, harriving, harriving', hweighed, hdelivered, hsingle⟩ := step.messages
  have hbefore := h.2 (Nat.le_trans step.threads_le hone)
  rw [harriving] at hbefore
  rw [harriving', hweighed, hdelivered, hbefore]
  rcases hsingle hone h.1 with ⟨rfl, rfl⟩ | ⟨rfl, rfl⟩ <;> simp

end ClientThreads

/-! ## Listeners and sinks -/

/-- Whether a callback is made to a listener or to a sink: reports go to the sink. -/
def Delivery.gives (d : Delivery) (listener : Listener) (sink : Sink) (callback : Callback) : Bool :=
  if callback.isListeners then d.listener = listener else d.sink = sink

namespace ClientThreads

/-- What a listener and a sink are told together, in the order in which they are told. -/
def heardBy (s : ClientThreads) (listener : Listener) (sink : Sink) : List (OperationId × Callback) :=
  (s.past.flatMap Mark.notices).filter fun p =>
    (s.client.deliveries.get? p.1).any fun d => d.gives listener sink p.2

/-- A listener and a sink that belong to one operation, and to no other. -/
structure Own (s : ClientThreads) (id : OperationId) (listener : Listener) (sink : Sink) : Prop where
  found : ∃ d, s.client.deliveries.get? id = some d ∧ d.listener = listener ∧ d.sink = sink
  alone : ∀ i d, s.client.deliveries.get? i = some d → d.listener = listener ∨ d.sink = sink → i = id

/-- Whoever belongs to one operation alone is told about that operation, and about nothing else. -/
theorem Own.heardBy {s : ClientThreads} {id : OperationId} {listener : Listener} {sink : Sink}
    (h : s.Own id listener sink) : s.heardBy listener sink = (s.calls id).map (id, ·) := by
  obtain ⟨d, hfound, rfl, rfl⟩ := h.found
  rw [← notices_of, ClientThreads.heardBy]
  refine List.filter_congr fun p _ => ?_
  rw [Bool.eq_iff_iff, decide_eq_true_iff, Option.any_eq_true]
  constructor
  · rintro ⟨e, he, hgives⟩
    refine h.alone p.1 e he ?_
    rw [Delivery.gives] at hgives
    split at hgives
    · exact Or.inl (of_decide_eq_true hgives)
    · exact Or.inr (of_decide_eq_true hgives)
  · rintro rfl
    refine ⟨d, hfound, ?_⟩
    rw [Delivery.gives]
    split <;> exact decide_eq_true rfl

/-- **A delivery is for the listener and the sink with which its operation was submitted.** -/
theorem addressed_run (config : Config) (schedule : List Choice) (id : OperationId) {d : Delivery}
    (hfound : (run config schedule).client.deliveries.get? id = some d) :
    ∃ operation payload shown, operation.sink = d.sink ∧
      [.moved (.enlist d.listener operation payload) shown, .enlisted id] <:+:
        (run config schedule).past := by
  revert d
  refine run_induction (P := fun s => ∀ {d : Delivery}, s.client.deliveries.get? id = some d →
    ∃ operation payload shown, operation.sink = d.sink ∧
      [.moved (.enlist d.listener operation payload) shown, .enlisted id] <:+: s.past)
    (fun h => by contradiction) (fun s s' h step d hfound => ?_) schedule
  cases step with
  | join => exact h hfound
  | ask r haway => exact h hfound
  | answer u a =>
    obtain ⟨operation, payload, shown, hsink, hmem⟩ := h hfound
    exact ⟨operation, payload, shown, hsink, hmem.trans (List.prefix_append _ _).isInfix⟩
  | @move c past before after rest t =>
    rcases (c.perform_touch id t).addressed hfound with
      ⟨e, he, hlistener, hsink⟩ | ⟨operation, payload, rfl, hsink, henlisted⟩
    · obtain ⟨operation, payload, shown, hsink', hmem⟩ := h he
      rw [hlistener] at hmem
      exact ⟨operation, payload, shown, hsink'.trans hsink,
        hmem.trans (List.prefix_append _ _).isInfix⟩
    · have hallots : c.allots (.enlist d.listener operation payload) = some id := beq_iff_eq.mp henlisted
      refine ⟨operation, payload, (c.perform (.enlist d.listener operation payload)).events, hsink, ?_⟩
      rw [Client.marks, hallots]
      exact (List.suffix_append past _).isInfix

end ClientThreads

/-! ## What every submitter may rely on -/

/-- A report on an operation that is not pending is noted, and nothing else comes of it. -/
theorem Client.report_of_absent {c : Client} {id : OperationId} (h : c.pending.get? id = none)
    (severity : Severity) (text : String) :
    c.perform (.report id severity text) = ⟨c, [], [.noted (.reportDropped id)]⟩ := by
  simp [perform, report, Table.contains, h]

namespace ClientThreads

/-- How the threads of a client handle messages, those about unknown operations among them. -/
structure Forwarding (s : ClientThreads) : Prop where
  /-- Of all that was delivered nothing was lost, and nothing was weighed twice. -/
  kept : s.delivered.Perm (s.weighed ++ s.arriving)
  /-- A single thread weighs messages as they come. -/
  ordered : s.threads.length ≤ 1 → s.delivered = s.weighed ++ s.arriving
  /-- A report that is weighed while its operation is not pending changes nothing, statistics included,
  and leads to nothing. -/
  dropped : ∀ n rest id severity text, s.threads[n]? = some (.todo (.report id severity text) :: rest) →
    s.client.pending.get? id = none → s.act (.move n) =
      { s with
        threads := s.threads.set n rest
        past := s.past ++ [.moved (.report id severity text) [.noted (.reportDropped id)]] }

theorem forwarding (config : Config) (schedule : List Choice) : (run config schedule).Forwarding where
  kept := delivered_perm config schedule
  ordered := delivered_eq config schedule
  dropped n rest id severity text hthread hpending := by
    rw [act_move hthread, Client.marks, Client.report_of_absent hpending]
    rfl

/-- What is told about an operation that was taken. -/
structure Reported (s : ClientThreads) (id : OperationId) : Prop where
  /-- It is pending in the phase in which it stands, by what has reached it. -/
  pending : s.client.phaseOf id = (s.standing id).bind Standing.phase?
  /-- Its listener and its sink are called with what it has earned, in this order. -/
  called : s.calls id <+: s.earned id
  /-- Once nothing of it is under way, they have been called with all of that. -/
  complete : s.Quiet id → s.calls id = s.earned id
  /-- They are the listener and the sink with which it was submitted. -/
  addressed : ∃ d operation payload shown, s.client.deliveries.get? id = some d ∧
    operation.sink = d.sink ∧
      [.moved (.enlist d.listener operation payload) shown, .enlisted id] <:+: s.past
  /-- Where they belong to this operation alone, that is all they are told. -/
  heard : ∀ listener sink, s.Own id listener sink →
    s.heardBy listener sink = (s.calls id).map (id, ·)

/-- **Whoever was told that an operation was taken can rely on its listener and its sink to be told what
has reached it while it was pending**, under every interleaving. -/
theorem reported_run (config : Config) (schedule : List Choice) (id : OperationId)
    (hgiven : (run config schedule).given.length < 2 ^ 64 - 1)
    (htaken : .ok id ∈ (run config schedule).answers id) : (run config schedule).Reported id := by
  have hunrefused : ¬ (run config schedule).Refused id := fun hrefused =>
    not_ok_of_refused config schedule hgiven hrefused htaken
  have hearned := queued_eq_earned config schedule id hgiven hunrefused
  rcases documented config schedule id hgiven with hblank | ⟨d, documented⟩
  · have hanswers : (run config schedule).answers id = [] := congrArg OperationShare.answers hblank
    rw [hanswers] at htaken
    contradiction
  obtain ⟨operation, payload, shown, hsink, henlisted⟩ :=
    addressed_run config schedule id documented.alive.found
  exact {
    pending := phase_run config schedule id hgiven hunrefused
    called := hearned ▸ calls_prefix_queued config schedule id hgiven
    complete := fun hquiet => (documented.alive.calls_of_quiet hquiet).trans hearned
    addressed := ⟨d, operation, payload, shown, documented.alive.found, hsink, henlisted⟩
    heard := fun listener sink hown => hown.heardBy }

/-- What has been told at a client that has one thread, with nothing left to do. -/
structure Forwarded (s : ClientThreads) : Prop where
  /-- All that was delivered was weighed, in the order in which it came. -/
  weighed : s.delivered = s.weighed
  /-- An operation that was taken has been told all that it has earned. -/
  called : ∀ id, .ok id ∈ s.answers id → s.calls id = s.earned id
  /-- A listener and a sink that belong to it alone have been told that, and nothing else. -/
  heard : ∀ id listener sink, .ok id ∈ s.answers id → s.Own id listener sink →
    s.heardBy listener sink = (s.earned id).map (id, ·)

/-- **Where a single thread has nothing left to do, everything has been forwarded.** -/
theorem forwarded_run (config : Config) (schedule : List Choice)
    (hgiven : (run config schedule).given.length < 2 ^ 64 - 1)
    (hone : (run config schedule).threads = [[]]) : (run config schedule).Forwarded := by
  have hframes : (run config schedule).frames = [] := by
    rw [frames, hone]
    rfl
  have hcalled (id : OperationId) (htaken : .ok id ∈ (run config schedule).answers id) :
      (run config schedule).calls id = (run config schedule).earned id :=
    (reported_run config schedule id hgiven htaken).complete (by rw [Quiet, hframes]; rfl)
  exact {
    weighed := by
      rw [delivered_eq config schedule (by rw [hone]; exact Nat.le_refl 1), arriving, hframes]
      exact List.append_nil _
    called := hcalled
    heard := fun id listener sink htaken hown => by rw [hown.heardBy, hcalled id htaken] }

end ClientThreads

end TwoPhase
