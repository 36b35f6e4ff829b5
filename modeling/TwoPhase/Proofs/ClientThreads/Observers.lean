import Mathlib.Data.List.Infix
import TwoPhase.Proofs.ClientThreads.Laws
import TwoPhase.Proofs.ClientThreads.EventOrder
import TwoPhase.Proofs.ClientThreads.Unmatched
/-
What the observer hears of an operation, and in which order.

Observers are called outside of the lock, so what one thread is about to tell may be overtaken by what
another tells. Under every interleaving each milestone of an operation is told at most once: a
tally of what was told, of what is due and of what may still come to be due never grows beyond the one
submission (`tally_run`). Where at any moment at most one thread is at work inside the client, while
the others are outside of it or inside foreign code, the order is the order of the protocol
(`ToldInOrder`), with one exception. The client says that a decision was sent when the channel has taken
it; a participant that answers at once, as one at the other end of a loopback does, is done before, and
so its answer is told first.
-/

set_option autoImplicit false

namespace TwoPhase

open Client (Task Frame Upcall Answer Event)

/-! ## What was told -/

/-- What a mark adds to the events of an operation. -/
def Mark.event? (id : OperationId) : Mark → Option OperationEvent
  | moved t _ => t.event? id
  | answered u a => u.event? id a
  | enlisted _ => none

theorem Client.filterMap_event_marks (c : Client) (t : Task) (id : OperationId) :
    (c.marks t).filterMap (Mark.event? id) = (t.event? id).toList := by
  rw [Client.marks, filterMap_cons_toList]
  cases c.allots t <;> simp [Mark.event?]

/-- The points in the life of an operation that the observer is told of. -/
inductive Milestone where
  | submitted
  | prepared
  | decided
  | ended
  deriving DecidableEq

/-- The place of a milestone in the protocol. -/
def Milestone.rank : Milestone → Nat
  | submitted => 0
  | prepared => 1
  | decided => 2
  | ended => 3

/-- The milestone that an observation is about. -/
def Observation.milestone? : Observation → Option Milestone
  | submitted _ => some .submitted
  | prepared _ => some .prepared
  | decisionSent .. => some .decided
  | completed _ | failed .. => some .ended
  | violation _ | channelClosed _ => none

/-- The milestone that the observer is told of. -/
def OperationEvent.milestone? (b : OperationEvent) : Option Milestone :=
  b.told?.bind Observation.milestone?

namespace ClientThreads

/-- The events of an operation. -/
def events (s : ClientThreads) (id : OperationId) : List OperationEvent :=
  s.past.filterMap (Mark.event? id)

/-- What the observer was told about an operation. -/
def told? (s : ClientThreads) (id : OperationId) : List Observation :=
  (s.events id).filterMap OperationEvent.told?

/-- The milestones of an operation that the observer was told of. -/
def milestones (s : ClientThreads) (id : OperationId) : List Milestone :=
  (s.told? id).filterMap Observation.milestone?

/-- An operation in the eyes of its observer. -/
def observerState (s : ClientThreads) (id : OperationId) : ObserverState :=
  ⟨s.client.pending.get? id, s.frames.filterMap (Frame.observation? id),
    s.frames.filterMap (Frame.errand? id), s.events id⟩

theorem milestones_eq (s : ClientThreads) (id : OperationId) :
    s.milestones id = (s.events id).filterMap OperationEvent.milestone? := by
  rw [milestones, told?, List.filterMap_filterMap]
  rfl

end ClientThreads

/-! ## At most once -/

/-- How often a milestone may still come to be due. -/
def Milestone.ahead : Milestone → Option Pending → Nat
  | _, none => 0
  | submitted, some _ => 0
  | prepared, some entry => if entry.phase = .submitted then 1 else 0
  | decided, some entry => if entry.decision = none then 1 else 0
  | ended, some _ => 1

/-- How often a milestone was told, is due, or may still come to be due. -/
def ObserverState.tally (k : Milestone) (x : ObserverState) : Nat :=
  x.events.countP (·.milestone? = some k) + x.dues.countP (·.milestone? = some k) +
    (if k = .decided then x.errands.length else 0) + k.ahead x.entry

/-- Only a submission adds to the tally. -/
theorem ObservationStep.tally {id next : OperationId} {entry entry' : Option Pending} {t : Task} {n : News}
    (observation : ObservationStep id next entry t entry' n) (k : Milestone) :
    ObserverState.tally k ⟨entry', n.dues, n.errands, (t.event? id).toList⟩ ≤
      ObserverState.tally k ⟨entry, ((Frame.todo t).observation? id).toList,
        ((Frame.todo t).errand? id).toList, []⟩ +
        n.enlisted.toNat := by
  cases observation with
  | aside hdue herrand =>
    rw [Client.Task.event_of_aside hdue herrand, hdue, herrand]
    exact Nat.le_refl _
  | announced => simp [ObserverState.tally, Client.Task.event?, Frame.observation?, Frame.errand?]
  | @observed entry o =>
    by_cases hid : o.id? = some id
    · have hevent : (Task.raise (.observe o)).event? id = some (.told o) := if_pos hid
      rw [hevent]
      -- what is told was due, or it was the errand of a decision
      rcases Observation.due_or_decision hid with ⟨hdue, hdecision⟩ | ⟨d, rfl, hdue, hdecision⟩
      · by_cases hk : o.milestone? = some k <;>
          simp [ObserverState.tally, Frame.observation?, Frame.errand?, hdue, hdecision,
            OperationEvent.milestone?, OperationEvent.told?, hk]
      · cases k <;>
          simp [ObserverState.tally, Frame.observation?, Frame.errand?, hdue, hdecision,
            OperationEvent.milestone?, OperationEvent.told?, Observation.milestone?]
    · have hevent : (Task.raise (.observe o)).event? id = none := if_neg hid
      obtain ⟨hdue, hdecision⟩ := Observation.not_due_of_id hid
      simp [ObserverState.tally, Frame.observation?, Frame.errand?, hdue, hdecision, hevent]
  | enlisted hnext =>
    cases k <;> simp [ObserverState.tally, Milestone.ahead, Observation.milestone?, Client.Task.event?]
  | withdrawn =>
    cases k <;> simp [ObserverState.tally, Milestone.ahead, Client.Task.event?, Frame.observation?,
      Frame.errand?]
  | accepted hphase =>
    cases k <;> simp [ObserverState.tally, Milestone.ahead, Observation.milestone?,
      Client.Task.event?, hphase, Frame.observation?, Frame.errand?]
  | @finished entry outcome kind hallows =>
    cases k <;> cases outcome <;> simp [ObserverState.tally, Milestone.ahead, Observation.milestone?,
      Client.Task.event?, Client.ended, Frame.observation?, Frame.errand?]
  | swept =>
    cases k <;> simp [ObserverState.tally, Milestone.ahead, Observation.milestone?,
      Client.Task.event?, Frame.observation?, Frame.errand?]
  | early hrefuses =>
    simp [ObserverState.tally, Observation.milestone?, Client.Task.event?, Frame.observation?,
      Frame.errand?]
  | unknown hnew hdue herrand =>
    rw [Client.Task.event_of_aside hdue herrand, hdue, herrand]
    simp [ObserverState.tally, Observation.milestone?]
  | claimed hphase hdecision =>
    cases k <;> simp [ObserverState.tally, Milestone.ahead, Client.Task.event?, hdecision,
      Frame.observation?, Frame.errand?]
  | @departed entry m =>
    cases hdecision : m.decisionOf? id <;>
      simp [ObserverState.tally, Client.Task.event?, Frame.observation?, Frame.errand?, hdecision]
  | landed => simp [ObserverState.tally, Client.Task.event?, Frame.observation?, Frame.errand?]
  | refused => simp [ObserverState.tally, Client.Task.event?, Frame.observation?, Frame.errand?]

namespace ClientThreads

/-- The frames beside those in hand. -/
def others (before after : List (List Frame)) (rest : List Frame) : List Frame :=
  before.flatten ++ (rest ++ after.flatten)

/-- The state, with the frames in hand first. -/
theorem observerState_like (c : Client) (past : List Mark) (before after : List (List Frame))
    (held rest : List Frame) (id : OperationId) :
    (observerState ⟨c, before ++ (held ++ rest) :: after, past⟩ id).Like
      ⟨c.pending.get? id,
        held.filterMap (Frame.observation? id) ++
          (others before after rest).filterMap (Frame.observation? id),
        held.filterMap (Frame.errand? id) ++ (others before after rest).filterMap (Frame.errand? id),
        past.filterMap (Mark.event? id)⟩ := by
  have hframes : (frames ⟨c, before ++ (held ++ rest) :: after, past⟩).Perm
      (held ++ others before after rest) := by
    simp only [frames, others, List.flatten_append, List.flatten_cons, List.append_assoc]
    rw [← List.append_assoc, ← List.append_assoc held]
    exact List.perm_append_comm.append_right _
  have hdues := hframes.filterMap (Frame.observation? id)
  have herrands := hframes.filterMap (Frame.errand? id)
  rw [List.filterMap_append] at hdues herrands
  exact ⟨rfl, hdues, herrands, rfl⟩

section

variable (c : Client) (past : List Mark) (before after : List (List Frame)) (rest : List Frame)
  (id : OperationId)

/-- The state before a move or an answer, with the frame that is about to go first. -/
theorem observerState_cons (f : Frame) :
    (observerState ⟨c, before ++ (f :: rest) :: after, past⟩ id).Like
      ⟨c.pending.get? id,
        (f.observation? id).toList ++ (others before after rest).filterMap (Frame.observation? id),
        (f.errand? id).toList ++ (others before after rest).filterMap (Frame.errand? id),
        past.filterMap (Mark.event? id)⟩ := by
  have h := observerState_like c past before after [f] rest id
  rw [filterMap_cons_toList, filterMap_cons_toList, List.filterMap_nil, List.filterMap_nil,
    List.append_nil, List.append_nil] at h
  exact h

/-- The state after a move. -/
theorem observerState_moved (t : Task) :
    (observerState ⟨(c.perform t).client, before ++ ((c.perform t).frames ++ rest) :: after,
        past ++ c.marks t⟩ id).Like
      ⟨(c.perform t).client.pending.get? id,
        (c.news t id).dues ++ (others before after rest).filterMap (Frame.observation? id),
        (c.news t id).errands ++ (others before after rest).filterMap (Frame.errand? id),
        past.filterMap (Mark.event? id) ++ (t.event? id).toList⟩ := by
  have h := observerState_like (c.perform t).client (past ++ c.marks t) before after
    (c.perform t).frames rest id
  rw [List.filterMap_append, Client.filterMap_event_marks] at h
  exact h

/-- The state after an answer. -/
theorem observerState_answered (u : Upcall) (a : Answer) :
    (observerState ⟨c, before ++ (u.resume a ++ rest) :: after, past ++ [.answered u a]⟩ id).Like
      ⟨c.pending.get? id, (others before after rest).filterMap (Frame.observation? id),
        (u.resume a).filterMap (Frame.errand? id) ++
          (others before after rest).filterMap (Frame.errand? id),
        past.filterMap (Mark.event? id) ++ (u.event? id a).toList⟩ := by
  have h := observerState_like c (past ++ [.answered u a]) before after (u.resume a) rest id
  rw [List.filterMap_append, filterMap_cons_toList, u.resume_due, List.nil_append,
    List.filterMap_nil, List.append_nil] at h
  exact h

/-- A request says nothing yet, and decides nothing yet. -/
theorem observerState_asked (r : Request) :
    (observerState ⟨c, before ++ (.todo r.task :: rest) :: after, past⟩ id).Like
      (observerState ⟨c, before ++ rest :: after, past⟩ id) := by
  have hsilent : (Frame.todo r.task).observation? id = none ∧ (Frame.todo r.task).errand? id = none := by
    cases r <;> exact ⟨rfl, rfl⟩
  have h := observerState_cons c past before after rest id (.todo r.task)
  rw [hsilent.1, hsilent.2] at h
  exact h.trans (observerState_like c past before after [] rest id).symm

end

theorem count_given_marks (c c' : Client) (past : List Mark) (threads threads' : List (List Frame))
    (t : Task) (id : OperationId) :
    (given ⟨c', threads', past ++ c.marks t⟩).count id =
      (given ⟨c, threads, past⟩).count id + (c.news t id).enlisted.toNat := by
  rw [given, List.flatMap_append, Client.flatMap_marks, List.count_append, given, Client.news]
  cases c.allots t with
  | none => rfl
  | some i => by_cases hid : i = id <;> simp [hid]

/-- Answers give no identifiers. -/
theorem given_answered (c : Client) (past : List Mark) (threads threads' : List (List Frame))
    (u : Upcall) (a : Answer) :
    given ⟨c, threads', past ++ [.answered u a]⟩ = given ⟨c, threads, past⟩ := by
  simp [given, Mark.given]

/-- An operation is known once it was given its identifier. -/
theorem known_marks (c c' : Client) (past : List Mark) (threads threads' : List (List Frame))
    (t : Task) (id : OperationId) :
    decide (id ∈ given ⟨c', threads', past ++ c.marks t⟩) =
      (decide (id ∈ given ⟨c, threads, past⟩) || (c.news t id).enlisted) := by
  rw [given, List.flatMap_append, Client.flatMap_marks, given, Client.news]
  cases c.allots t with
  | none => simp
  | some i =>
    by_cases hid : i = id
    · simp [hid]
    · simp [hid, Ne.symm hid]

theorem fresh_of_enlisted {c : Client} {t : Task} {id : OperationId} {given : List OperationId}
    (henlisted : (c.news t id).enlisted = true) (hnext : c.nextId ∉ given) : id ∉ given := by
  have hallots : c.allots t = some id := by simpa [Client.news] using henlisted
  cases t with
  | enlist listener operation payload =>
    obtain ⟨-, hid⟩ := Option.ite_none_left_eq_some.mp hallots
    rw [← Option.some.inj hid]
    exact hnext
  | _ => contradiction

end ClientThreads

namespace ObserverState

variable {k : Milestone}

theorem tally_like {x y : ObserverState} (h : x.Like y) : x.tally k = y.tally k := by
  rw [tally, tally, h.entry, h.events, h.dues.countP_eq, h.errands.length_eq]

/-- What waits elsewhere, and what happened before, is added. -/
theorem tally_append (entry : Option Pending) (held dues : List Observation)
    (brought errands : List Errand) (events more : List OperationEvent) :
    tally k ⟨entry, held ++ dues, brought ++ errands, events ++ more⟩ =
      tally k ⟨entry, held, brought, more⟩ + tally k ⟨none, dues, errands, events⟩ := by
  simp only [tally, List.countP_append, List.length_append, Milestone.ahead]
  split <;> omega

end ObserverState

namespace ClientThreads

/-- **No milestone is tallied more often than the operation was submitted.** -/
theorem tally_run (config : Config) (schedule : List Choice) (id : OperationId) (k : Milestone) :
    ((run config schedule).observerState id).tally k ≤ (run config schedule).given.count id := by
  refine run_induction (P := fun s => (s.observerState id).tally k ≤ s.given.count id) ?_
    (fun s s' h step => ?_) schedule
  · cases k <;> exact Nat.le_refl _
  · cases step with
    | join => simpa [observerState, frames, events, given] using h
    | @ask c past before after stack r haway =>
      rw [ObserverState.tally_like (observerState_asked c past before after stack id r)]
      exact h
    | @move c past before after rest t =>
      have htally := (c.perform_observation id t).tally k
      have hbefore := observerState_cons c past before after rest id (.todo t)
      have hevents : past.filterMap (Mark.event? id) = past.filterMap (Mark.event? id) ++ [] :=
        (List.append_nil _).symm
      rw [ObserverState.tally_like hbefore, hevents, ObserverState.tally_append] at h
      rw [ObserverState.tally_like (observerState_moved c past before after rest id t),
        ObserverState.tally_append, count_given_marks c _ past (before ++ (.todo t :: rest) :: after)]
      omega
    | @answer c past before after rest u a =>
      rw [ObserverState.tally_like (observerState_cons c past before after rest id (.inside u))] at h
      rw [ObserverState.tally_like (observerState_answered c past before after rest id u a)]
      rw [given_answered c past (before ++ (.inside u :: rest) :: after)]
      refine Nat.le_trans (Nat.le_of_eq ?_) h
      cases u.brings id a with
      | nothing hbefore hafter hevent =>
        simp [ObserverState.tally, hbefore, hafter, hevent, Frame.observation?]
      | decision d hbefore hafter hevent =>
        simp [ObserverState.tally, hbefore, hafter, hevent, Frame.observation?,
          OperationEvent.milestone?, OperationEvent.told?]

end ClientThreads

/-! ## Turns -/

/-- Whether a frame must not be kept waiting, for the order of what is told to be kept. -/
def Client.Frame.hasty : Frame → Bool
  | .todo (.announce (.failed ..)) => false
  | .todo (.announce _) | .todo (.raise (.observe _)) | .todo (.decisionSent ..) => true
  | .todo (.raise (.send m)) => m.isDecision
  | _ => false

namespace Client

theorem patient_drainIf (id : OperationId) (owed : Bool) : ∀ f ∈ drainIf id owed, f.hasty = false := by
  cases owed <;> simp [drainIf, Frame.hasty]

theorem patient_drop (c : Client) (id : OperationId) (kind : String) :
    ∀ f ∈ (c.drop id kind).frames.tail, f.hasty = false := by
  by_cases hlate : id < c.nextId <;> simp [drop, hlate]

theorem patient_sweep (c : Client) : ∀ f ∈ c.sweep.frames.tail, f.hasty = false := by
  intro f hf
  -- only the close of the channel is hasty, and it comes first
  have hfirst : (if c.closed then [] else
      [Frame.todo (.announce (.channelClosed c.pending.entries.length))]).tail = [] := by
    cases c.closed <;> rfl
  rcases mem_tail_append hf with hf | hf
  · rw [hfirst] at hf
    contradiction
  · obtain ⟨⟨id, mine⟩, -, hf⟩ := List.mem_flatMap.mp hf
    rcases List.mem_cons.mp hf with rfl | hf
    · rfl
    · exact patient_drainIf id mine f hf

attribute [local simp] perform Frame.hasty in
/-- A move leaves nothing hasty but on top. -/
theorem patient_perform (c : Client) (t : Task) :
    ∀ f ∈ (c.perform t).frames.tail, f.hasty = false := by
  cases t with
  | submit channelOpen listener operation =>
    cases channelOpen with
    | false => simp [refuse]
    | true =>
      cases hencode : operation.payload.encode c.config.maxFrameBytes.toNat <;>
        simp [hencode, refuse]
  | enlist listener operation payload =>
    by_cases hclosed : c.closed = true <;> simp [enlist, hclosed, refuse, Outbound.isDecision]
  | submissionSent id result =>
    rcases result with e | ok
    · by_cases hin : c.pending.contains id = true <;> simp [submissionSent, count, hin]
    · simp [submissionSent]
  | decide id d =>
    cases hhandle : c.handles.get? id with
    | none => simp [decide, hhandle]
    | some handle => cases hasked : handle.asked <;> simp [decide, hhandle, hasked]
  | claim id d =>
    cases hentry : c.pending.get? id with
    | none => simp [claim, hentry]
    | some entry =>
      by_cases hopen : entry.phase = .prepared ∧ entry.decision = none <;>
        simp [claim, hentry, hopen]
  | decisionSent id d result => rcases result with e | ok <;> simp [decisionSent]
  | accept id result =>
    -- here and below the announcement is hasty and on top; a deliverer waits patiently below it
    cases hentry : c.pending.get? id with
    | none =>
      rw [perform, accept, hentry]
      exact c.patient_drop id _
    | some entry =>
      by_cases hallows : entry.phase.allows .prepared = true
      · rw [perform, accept_of_allows hentry hallows]
        exact patient_drainIf id _
      · simp [accept, hentry, hallows]
  | finish id outcome kind =>
    cases hentry : c.pending.get? id with
    | none =>
      rw [perform, finish, hentry]
      exact c.patient_drop id kind
    | some entry =>
      by_cases hallows : entry.phase.allows (finalPhase outcome) = true
      · rw [perform, finish_of_allows hentry hallows]
        exact patient_drainIf id _
      · simp [finish, hentry, hallows]
  | report id severity text =>
    by_cases hin : c.pending.contains id = true
    · rw [perform, report, if_pos hin]
      exact fun f hf => patient_drainIf id _ f (List.mem_of_mem_tail hf)
    · simp [report, hin]
  | sweep => exact c.patient_sweep
  | drain id =>
    cases hdelivery : c.deliveries.get? id with
    | none => simp [drain, hdelivery]
    | some d =>
      rcases hpop : d.mailbox.pop with ⟨_ | callback, mailbox⟩ <;> simp [drain, hdelivery, hpop]
  | called id callback panicked =>
    cases houtcome : callback.outcome? <;> simp [called, houtcome]
  | resolve id outcome =>
    intro f hf
    cases hdelivery : c.deliveries.get? id with
    | none => simp [resolve, hdelivery] at hf
    | some d =>
      have hmem := List.mem_of_mem_tail hf
      simp only [perform, resolve, hdelivery, List.mem_map] at hmem
      obtain ⟨tag, -, rfl⟩ := hmem
      rfl
  | subscribe id tag =>
    cases hdelivery : c.deliveries.get? id with
    | none => simp [subscribe, hdelivery]
    | some d => cases hknown : (d.outcome.subscribe tag).2 <;> simp [subscribe, hdelivery, hknown]
  | _ => simp

end Client

namespace ClientThreads

/-- At most one thread is at work inside the client; the others are outside of it, or inside foreign
code. -/
def Undivided (s : ClientThreads) : Prop := s.threads.countP (fun stack => !isAway stack) ≤ 1

instance (s : ClientThreads) : Decidable s.Undivided := inferInstanceAs (Decidable (_ ≤ _))

/-- Threads take turns: none is at work inside the client while another is. -/
def InTurn (config : Config) (schedule : List Choice) : Prop :=
  ∀ first ∈ schedule.inits, (run config first).Undivided

instance (config : Config) (schedule : List Choice) : Decidable (InTurn config schedule) :=
  inferInstanceAs (Decidable (∀ first ∈ schedule.inits, (run config first).Undivided))

/-- What must not be kept waiting is on top of its stack. -/
def Prompt (s : ClientThreads) : Prop := ∀ stack ∈ s.threads, ∀ f ∈ stack.tail, f.hasty = false

theorem prompt_run (config : Config) (schedule : List Choice) : (run config schedule).Prompt :=
  below_run (fun _ => rfl) Client.patient_perform config schedule

/-- While one thread moves, what waits elsewhere is patient. -/
theorem patient_others {c : Client} {past : List Mark} {before after : List (List Frame)}
    {rest : List Frame} {t : Task}
    (hundivided : Undivided ⟨c, before ++ (.todo t :: rest) :: after, past⟩)
    (hprompt : Prompt ⟨c, before ++ (.todo t :: rest) :: after, past⟩) :
    ∀ f ∈ others before after rest, f.hasty = false := by
  have hmoving : (!isAway (.todo t :: rest)) = true := rfl
  rw [Undivided, List.countP_append, List.countP_cons, if_pos hmoving] at hundivided
  -- all other threads are away
  have haway (threads : List (List Frame))
      (hcount : threads.countP (fun stack => !isAway stack) = 0)
      (hmem : ∀ stack ∈ threads, ∀ f ∈ stack.tail, f.hasty = false) :
      ∀ f ∈ threads.flatten, f.hasty = false := by
    intro f hf
    obtain ⟨stack, hstack, hf⟩ := List.mem_flatten.mp hf
    have htop : isAway stack = true := by simpa using List.countP_eq_zero.mp hcount stack hstack
    exact all_of_away (fun _ => rfl) htop (hmem stack hstack) f hf
  intro f hf
  rcases List.mem_append.mp hf with hf | hf
  · exact haway before (by omega) (fun stack hstack => hprompt stack (List.mem_append_left _ hstack)) f hf
  · rcases List.mem_append.mp hf with hf | hf
    · exact hprompt _ (List.mem_append_right before List.mem_cons_self) f hf
    · refine haway after (by omega) (fun stack hstack => hprompt stack ?_) f hf
      exact List.mem_append_right before (List.mem_cons_of_mem _ hstack)

/-- What is not hasty is patient, whatever operation it is about. -/
theorem patient_of_not_hasty {frames : List Frame} (h : ∀ f ∈ frames, f.hasty = false)
    (id : OperationId) :
    Patient (frames.filterMap (Frame.observation? id)) (frames.filterMap (Frame.errand? id)) := by
  -- of what is not hasty only the failures of a sweep are due, and the only errands are decisions that
  -- are away
  constructor
  · intro o ho
    obtain ⟨f, hf, ho⟩ := List.mem_filterMap.mp ho
    have hhasty := h f hf
    cases f with
    | inside u => contradiction
    | todo t =>
      cases t with
      | announce o' =>
        cases o' with
        | failed i failure =>
          obtain ⟨-, ho⟩ := Option.ite_none_right_eq_some.mp ho
          exact ⟨i, failure, (Option.some.inj ho).symm⟩
        | _ => contradiction
      | raise u => cases u <;> contradiction
      | _ => contradiction
  · intro e he
    obtain ⟨f, hf, he⟩ := List.mem_filterMap.mp he
    have hhasty := h f hf
    cases f with
    | inside u =>
      cases u with
      | send m =>
        obtain ⟨d, -, rfl⟩ := Option.map_eq_some_iff.mp he
        exact ⟨d, rfl⟩
      | _ => contradiction
    | todo t =>
      cases t with
      | announce o => cases o <;> contradiction
      | raise u =>
        cases u with
        | send m => cases m <;> contradiction
        | _ => contradiction
      | _ => contradiction

/-- **The order of events is kept by every run in which threads take turns.** -/
theorem eventOrder_run (config : Config) (schedule : List Choice) (id : OperationId)
    (hgiven : (run config schedule).given.length < 2 ^ 64 - 1) (hturns : InTurn config schedule) :
    EventOrder id (decide (id ∈ (run config schedule).given))
      ((run config schedule).observerState id) := by
  induction schedule using List.reverseRecOn with
  | nil => exact .unknown (fun _ ho => by contradiction) (fun _ hb => by contradiction)
  | append_singleton schedule choice ih =>
    have hless := Nat.lt_of_le_of_lt (given_le_run config schedule [choice]) hgiven
    have hfirst : InTurn config schedule := fun first hmem => hturns first
      ((List.mem_inits _ _).mpr (((List.mem_inits _ _).mp hmem).trans
        (List.prefix_append schedule [choice])))
    have hundivided : (run config schedule).Undivided := hturns schedule
      ((List.mem_inits _ _).mpr (List.prefix_append schedule [choice]))
    have hprompt := prompt_run config schedule
    have hnext := next_not_given config schedule (by omega)
    have hknown (hnew : ¬ id < (run config schedule).client.nextId) :
        id ∉ (run config schedule).given := by
      obtain ⟨hfirsts, hnextId⟩ := given_run config schedule
      rw [hfirsts, OperationId.mem_firsts hless, ← hnextId]
      exact fun hmem => hnew hmem.1
    specialize ih hless hfirst
    rw [run_append, List.foldl_cons, List.foldl_nil]
    generalize run config schedule = s at ih hundivided hprompt hnext hknown ⊢
    rcases act_step s choice with hsame | step
    · rw [hsame]
      exact ih
    · generalize s.act choice = s' at step ⊢
      cases step with
      | join => simpa [observerState, frames, events, given] using ih
      | @ask c past before after stack r haway =>
        exact ih.like (observerState_asked c past before after stack id r).symm
      | @move c past before after rest t =>
        -- whatever waits on other stacks is patient, since no other thread is inside of the client
        have hpatient := patient_of_not_hasty (patient_others hundivided hprompt) id
        have heventOrder := (c.perform_observation id t).eventOrder hpatient
          (fun hnew => by simpa using hknown hnew)
          (fun henlisted => by simpa using fresh_of_enlisted henlisted hnext)
          (ih.like (observerState_cons c past before after rest id (.todo t)))
        rw [known_marks c _ past (before ++ (.todo t :: rest) :: after)]
        exact heventOrder.like (observerState_moved c past before after rest id t).symm
      | @answer c past before after rest u a =>
        rw [given_answered c past (before ++ (.inside u :: rest) :: after)]
        refine EventOrder.like ?_ (observerState_answered c past before after rest id u a).symm
        have heventOrder := ih.like (observerState_cons c past before after rest id (.inside u))
        exact heventOrder.answer (u.brings id a)

end ClientThreads

/-! ## In order -/

/-- What can follow once an operation is submitted, each time to its end: the decision comes
back before the operation ends, or after; or the operation fails before it is prepared. -/
def sequels (id : OperationId) (d : Decision) (outcome : Outcome) (f : Failure) :
    List (List OperationEvent) :=
  [[.told (.prepared id), .answered true, .told (.decisionSent id d), .told (Client.ended id outcome)],
    [.told (.prepared id), .answered false, .told (Client.ended id outcome)],
    [.told (.prepared id), .told (Client.ended id outcome), .answered true,
      .told (.decisionSent id d)],
    [.told (.prepared id), .told (Client.ended id outcome), .answered false],
    [.told (.failed id f)]]

/-- One of the sequels, as far as it has come. -/
def Sequel (id : OperationId) (rest : List OperationEvent) : Prop :=
  ∃ d outcome f, ∃ sequel ∈ sequels id d outcome f, rest <+: sequel

namespace Sequel

variable {id : OperationId} {rest : List OperationEvent}

theorem of_sequel {sequel : List OperationEvent} (d : Decision) (outcome : Outcome) (f : Failure)
    (hmem : sequel ∈ sequels id d outcome f) (hrest : rest <+: sequel) : Sequel id rest :=
  ⟨d, outcome, f, sequel, hmem, hrest⟩

theorem nil (id : OperationId) : Sequel id [] :=
  of_sequel .commit (.failed .channelClosed) .channelClosed List.mem_cons_self List.nil_prefix

theorem failed (id : OperationId) (f : Failure) : Sequel id [.told (.failed id f)] :=
  of_sequel .commit (.failed f) f (by simp [sequels]) (List.prefix_refl _)

/-- The decision comes back before the operation ends. -/
theorem decided (d : Decision) (outcome : Outcome)
    (h : rest <+: [.told (.prepared id), .answered true, .told (.decisionSent id d),
      .told (Client.ended id outcome)]) : Sequel id rest :=
  of_sequel d outcome .channelClosed List.mem_cons_self h

theorem refused (outcome : Outcome)
    (h : rest <+: [.told (.prepared id), .answered false, .told (Client.ended id outcome)]) :
    Sequel id rest :=
  of_sequel .commit outcome .channelClosed (by simp [sequels]) h

/-- The operation ends before the decision comes back. -/
theorem overtaken (d : Decision) (outcome : Outcome)
    (h : rest <+: [.told (.prepared id), .told (Client.ended id outcome), .answered true,
      .told (.decisionSent id d)]) : Sequel id rest :=
  of_sequel d outcome .channelClosed (by simp [sequels]) h

theorem overtaken_refused (outcome : Outcome)
    (h : rest <+: [.told (.prepared id), .told (Client.ended id outcome), .answered false]) :
    Sequel id rest :=
  of_sequel .commit outcome .channelClosed (by simp [sequels]) h

end Sequel

theorem Ruled.sequel {id : OperationId} {errands : List Errand} {verdict : List OperationEvent}
    (h : Ruled id errands verdict) : Sequel id (.told (.prepared id) :: verdict) := by
  cases h with
  | undecided => exact .decided .commit (.failed .channelClosed) ⟨_, rfl⟩
  | @leaving d => exact .decided d (.failed .channelClosed) ⟨_, rfl⟩
  | @away d => exact .decided d (.failed .channelClosed) ⟨_, rfl⟩
  | @back d taken =>
    cases taken with
    | true => exact .decided d (.failed .channelClosed) ⟨_, rfl⟩
    | false => exact .refused (.failed .channelClosed) ⟨_, rfl⟩
  | @sent d => exact .decided d (.failed .channelClosed) ⟨_, rfl⟩
  | @told d => exact .decided d (.failed .channelClosed) ⟨_, rfl⟩
  | refused => exact .refused (.failed .channelClosed) ⟨_, rfl⟩

/-- What comes back of a decision after the end comes back as it would have before. -/
theorem Ruled.sequel_overtaken {id : OperationId} {errands : List Errand} {later : List OperationEvent}
    (h : Ruled id errands later) (outcome : Outcome) :
    Sequel id (.told (.prepared id) :: .told (Client.ended id outcome) :: later) := by
  cases h with
  | undecided => exact .overtaken .commit outcome ⟨_, rfl⟩
  | @leaving d => exact .overtaken d outcome ⟨_, rfl⟩
  | @away d => exact .overtaken d outcome ⟨_, rfl⟩
  | @back d taken =>
    cases taken with
    | true => exact .overtaken d outcome ⟨_, rfl⟩
    | false => exact .overtaken_refused outcome ⟨_, rfl⟩
  | @sent d => exact .overtaken d outcome ⟨_, rfl⟩
  | @told d => exact .overtaken d outcome ⟨_, rfl⟩
  | refused => exact .overtaken_refused outcome ⟨_, rfl⟩

theorem Ruled.sequel_ended {id : OperationId} {errands : List Errand}
    {verdict later : List OperationEvent} {outcome : Outcome} (h : Ruled id errands (verdict ++ later))
    (hsettled : verdict ≠ [.answered true]) :
    Sequel id (.told (.prepared id) :: (verdict ++ .told (Client.ended id outcome) :: later)) := by
  -- the end comes before the answer, after it, or after the observer was told
  rcases verdict with _ | ⟨first, _ | ⟨second, verdict⟩⟩
  · exact h.sequel_overtaken outcome
  · cases h with
    | @back d taken =>
      cases taken with
      | true => exact absurd rfl hsettled
      | false => exact .refused outcome ⟨_, rfl⟩
    | refused => exact .refused outcome ⟨_, rfl⟩
    | sent => exact absurd rfl hsettled
    | told => exact absurd rfl hsettled
  · generalize hall : first :: second :: verdict ++ later = all at h
    cases h with
    | @told d =>
      simp only [List.cons_append, List.cons.injEq, List.append_eq_nil_iff] at hall
      obtain ⟨rfl, rfl, rfl, rfl⟩ := hall
      exact .decided d outcome ⟨_, rfl⟩
    | _ => simp at hall

/-- Nothing strange is told once an operation is prepared or has ended, and what is told then is told in
the order of one of the sequels. -/
theorem EventOrder.sequel {id : OperationId} {known : Bool} {x : ObserverState}
    (h : EventOrder id known x) :
    Strange x.events ∨
      ∃ opening rest, x.events = opening ++ rest ∧ Opened id opening ∧ Sequel id rest := by
  have hnothing := Sequel.nil id
  cases h with
  | unknown hdues hevents => exact Or.inl hevents
  | enlisted hphase hevents => exact Or.inl hevents
  | submitted hphase hdues hopened =>
    exact Or.inr ⟨_, [], (List.append_nil _).symm, hopened, hnothing⟩
  | accepted hphase hopened => exact Or.inr ⟨_, [], (List.append_nil _).symm, hopened, hnothing⟩
  | prepared hphase hopened hruled hfree => exact Or.inr ⟨_, _, rfl, hopened, hruled.sequel⟩
  | withdrawn hopened => exact Or.inr ⟨_, [], (List.append_nil _).symm, hopened, hnothing⟩
  | retracted hopened hruled => exact Or.inr ⟨_, _, rfl, hopened, hruled.sequel⟩
  | failing hopened => exact Or.inr ⟨_, [], (List.append_nil _).symm, hopened, hnothing⟩
  | @failed opening f hopened => exact Or.inr ⟨_, _, rfl, hopened, .failed id f⟩
  | ending hopened hruled => exact Or.inr ⟨_, _, rfl, hopened, hruled.sequel⟩
  | ended hopened hruled hsettled => exact Or.inr ⟨_, _, rfl, hopened, hruled.sequel_ended hsettled⟩

namespace ClientThreads

/-- What an observer hears of an operation if threads take turns. -/
structure ToldInOrder (s : ClientThreads) (id : OperationId) : Prop where
  /-- The milestones come in the order of the protocol; only the end may come before the decision. -/
  milestones : s.milestones id <+: [.submitted, .prepared, .decided, .ended] ∨
    s.milestones id <+: [.submitted, .prepared, .ended, .decided] ∨
      s.milestones id <+: [.submitted, .ended]
  /-- It does so only if it is told before the channel has answered to the decision. Messages that do
  not fit are told of before the operation is prepared or has ended, and never again. -/
  events : Strange (s.events id) ∨ ∃ opening rest, s.events id = opening ++ rest ∧ Opened id opening ∧
    Sequel id rest

theorem milestones_strange {events : List OperationEvent} (h : Strange events) :
    events.filterMap OperationEvent.milestone? = [] := by
  refine List.filterMap_eq_nil_iff.mpr fun b hb => ?_
  have hstrange := h b hb
  cases b with
  | answered taken => rfl
  | told o => cases o <;> first | contradiction | rfl

theorem milestones_opened {id : OperationId} {opening : List OperationEvent} (h : Opened id opening) :
    opening.filterMap OperationEvent.milestone? = [.submitted] := by
  obtain ⟨early, late, hearly, hlate, rfl⟩ := h
  rw [List.filterMap_append, filterMap_cons_toList, milestones_strange hearly,
    milestones_strange hlate]
  rfl

theorem milestones_sequel {id : OperationId} {rest : List OperationEvent} (h : Sequel id rest) :
    rest.filterMap OperationEvent.milestone? <+: [.prepared, .decided, .ended] ∨
      rest.filterMap OperationEvent.milestone? <+: [.prepared, .ended, .decided] ∨
        rest.filterMap OperationEvent.milestone? <+: [.ended] := by
  obtain ⟨d, outcome, f, sequel, hmem, hsequel⟩ := h
  have hrest := hsequel.filterMap OperationEvent.milestone?
  have hshort : [Milestone.prepared, .ended] <+: [.prepared, .ended, .decided] := ⟨[.decided], rfl⟩
  simp only [sequels, List.mem_cons, List.not_mem_nil, or_false] at hmem
  rcases hmem with rfl | rfl | rfl | rfl | rfl
  · exact Or.inl (by cases outcome <;> exact hrest)
  · exact Or.inr (Or.inl (by cases outcome <;> exact hrest.trans hshort))
  · exact Or.inr (Or.inl (by cases outcome <;> exact hrest))
  · exact Or.inr (Or.inl (by cases outcome <;> exact hrest.trans hshort))
  · exact Or.inr (Or.inr hrest)

/-- What is said of the order of events is said of the milestones among them. -/
theorem told_of_eventOrder {s : ClientThreads} {id : OperationId} {known : Bool}
    (h : EventOrder id known (s.observerState id)) : s.ToldInOrder id := by
  refine ⟨?_, h.sequel⟩
  rw [milestones_eq]
  rcases h.sequel with hstrange | ⟨opening, rest, hevents, hopened, hsequel⟩
  · have hnone : (s.events id).filterMap OperationEvent.milestone? = [] := milestones_strange hstrange
    rw [hnone]
    exact Or.inl List.nil_prefix
  · have hsplit : (s.events id).filterMap OperationEvent.milestone? =
        .submitted :: rest.filterMap OperationEvent.milestone? := by
      rw [show s.events id = opening ++ rest from hevents, List.filterMap_append,
        milestones_opened hopened]
      rfl
    rw [hsplit]
    simpa only [List.prefix_cons_inj] using milestones_sequel hsequel

/-- **What an observer hears of an operation.** Under every interleaving it hears of each milestone at
most once. If threads take turns it hears of them in the order of the protocol, but for a decision that
the channel answers to only after the operation has ended. -/
theorem told_in_order (config : Config) (schedule : List Choice) (id : OperationId)
    (hgiven : (run config schedule).given.length < 2 ^ 64 - 1) :
    (∀ k, ((run config schedule).milestones id).count k ≤ 1) ∧
      (InTurn config schedule → (run config schedule).ToldInOrder id) := by
  refine ⟨fun k => ?_,
    fun hturns => told_of_eventOrder (eventOrder_run config schedule id hgiven hturns)⟩
  have htally := tally_run config schedule id k
  have honce := count_given_le config schedule id hgiven
  have hcount : ((run config schedule).milestones id).count k =
      ((run config schedule).events id).countP (·.milestone? = some k) := by
    rw [milestones_eq, List.count, List.countP_filterMap]
    refine List.countP_congr fun b _ => ?_
    cases b.milestone? <;> simp
  have hevents : ((run config schedule).events id).countP (·.milestone? = some k) ≤
      ((run config schedule).observerState id).tally k := by
    unfold ObserverState.tally observerState
    dsimp only
    omega
  omega

/-- One thread, and a participant that answers within the call that sends: the operation is prepared
while it is being submitted, and completed while its decision is being sent. -/
def eager : List Choice :=
  [.join, .ask 0 (.submit true (.recorder "") ⟨.undefined, [], .discard⟩), .move 0, .move 0, .move 0,
    .move 0, .answer 0 .returned, .move 0,
    .ask 0 (.deliver (.prepared ⟨1⟩ .undefined)), .move 0, .move 0, .move 0, .move 0,
    .answer 0 .returned, .move 0, .move 0,
    .ask 0 (.decide ⟨1⟩ .commit), .move 0, .move 0, .move 0,
    .ask 0 (.deliver (.completed ⟨1⟩ .undefined)), .move 0, .move 0, .move 0, .move 0,
    .answer 0 .returned, .answer 0 (.sent (.ok ())), .move 0, .move 0, .move 0]

/-- Nothing is told twice, and the decision is told last. -/
theorem told_in_order_of_eager :
    (run {} eager).given.length < 2 ^ 64 - 1 ∧ InTurn {} eager ∧
      (run {} eager).milestones ⟨1⟩ = [.submitted, .prepared, .ended, .decided] ∧
      (run {} eager).ToldInOrder ⟨1⟩ := by
  have hgiven : (run {} eager).given.length < 2 ^ 64 - 1 := by decide +kernel
  have hturns : InTurn {} eager := by decide +kernel
  exact ⟨hgiven, hturns, by decide +kernel, (told_in_order {} eager ⟨1⟩ hgiven).2 hturns⟩

/-- The milestones are told in the order of the protocol, each at most once. -/
def InLine (s : ClientThreads) (id : OperationId) : Prop :=
  (s.milestones id).Pairwise fun a b => a.rank < b.rank

instance (s : ClientThreads) (id : OperationId) : Decidable (s.InLine id) :=
  inferInstanceAs (Decidable ((s.milestones id).Pairwise fun a b => a.rank < b.rank))

/-- One thread closes the client while another is about to tell that it has submitted an operation. -/
def hurried : List Choice :=
  [.join, .ask 0 (.submit true (.recorder "") ⟨.undefined, [], .discard⟩), .move 0, .move 0,
    .join, .ask 1 .close, .move 1, .move 1, .move 1, .answer 1 .returned, .move 1, .move 1,
    .move 0, .move 0]

/-- **The order of the protocol is not kept everywhere**: not where a participant answers within the
call that sends, and not where two threads are at work at once. -/
theorem told_out_of_line :
    InTurn {} eager ∧ ¬ (run {} eager).InLine ⟨1⟩ ∧ ¬ (run {} hurried).InLine ⟨1⟩ := by
  decide +kernel

end ClientThreads

end TwoPhase
