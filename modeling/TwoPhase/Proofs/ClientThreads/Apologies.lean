import TwoPhase.Proofs.ClientThreads.Histories
import TwoPhase.Proofs.ClientThreads.Laws
/-
Decisions that could not be sent, and what their callers are told.

When the channel does not take a decision, the client goes on as if it had been told that the operation
failed: the failure is recorded first, and the caller gets its apology afterwards. On every stack an
apology waits right below the recording of its failure, or the failure was recorded already (`Excused`).
So each apology that was made has a moment at which its failure was recorded, and what comes of it is
decided there. An operation that is still pending ends with that failure. The decision was handed over
outside of every lock, though, and the channel may have delivered an end for the operation before it
refused the decision: then the failure is late, and the apology names a reason that is not the one for
which the operation ended.
-/

set_option autoImplicit false

namespace TwoPhase

open Client (Task Frame Upcall Answer Event)

/-! ## What those who decide are told -/

/-- What an event tells somebody who decided an operation. -/
def Client.Event.replyFor (id : OperationId) : Event → Option (Decision × Except ClientError Unit)
  | .decision i d result => if i = id then some (d, result) else none
  | _ => none

/-- What those were told who decided an operation. -/
def Mark.replies (id : OperationId) : Mark → List (Decision × Except ClientError Unit)
  | moved _ shown => shown.filterMap (Event.replyFor id)
  | _ => []

/-- What those were told who decided an operation, first to last. -/
def ClientThreads.replies (s : ClientThreads) (id : OperationId) :
    List (Decision × Except ClientError Unit) :=
  s.past.flatMap (Mark.replies id)

/-! ## Stacks with apologies on them -/

/-- Records that a decision could not be sent, and for what reason. -/
def Client.Task.record (id : OperationId) (d : Decision) (reason : String) : Task :=
  .finish id (.failed (.sendFailed d reason)) "send_failed"

/-- Tells whoever decided that the decision could not be sent. -/
def Client.Task.apologize (id : OperationId) (d : Decision) (reason : String) : Task :=
  .decided id d (.error (.sendFailed id d reason))

/-- A task was carried out. -/
def Done (past : List Mark) (t : Task) : Prop := ∃ shown, .moved t shown ∈ past

theorem Done.grow {past more : List Mark} {t : Task} (h : Done past t) : Done (past ++ more) t := by
  obtain ⟨shown, hshown⟩ := h
  exact ⟨shown, List.mem_append_left _ hshown⟩

theorem done_marks (c : Client) (past : List Mark) (t : Task) : Done (past ++ c.marks t) t :=
  ⟨(c.perform t).events, List.mem_append_right _ List.mem_cons_self⟩

/-- Whether a frame has nothing to do with a decision that could not be sent. -/
def Client.Frame.isPlain : Frame → Bool
  | .todo (.decided _ _ (.error (.sendFailed ..))) => false
  | .todo (.finish _ _ kind) => kind ≠ "send_failed"
  | _ => true

/-- On a stack an apology waits below the recording of its failure, or that was carried out. -/
inductive Excused (past : List Mark) : List Frame → Prop
  | nil : Excused past []
  | plain {f : Frame} {rest : List Frame} (hf : f.isPlain = true) (h : Excused past rest) :
      Excused past (f :: rest)
  | recording {id : OperationId} {d : Decision} {e : ChannelError} {rest : List Frame}
      (hsent : Done past (.decisionSent id d (.error e))) (h : Excused past rest) :
      Excused past (.todo (.record id d e.message) :: .todo (.apologize id d e.message) :: rest)
  | apology {id : OperationId} {d : Decision} {e : ChannelError} {rest : List Frame}
      (hsent : Done past (.decisionSent id d (.error e)))
      (hrecorded : Done past (.record id d e.message)) (h : Excused past rest) :
      Excused past (.todo (.apologize id d e.message) :: rest)

namespace Excused

variable {past more : List Mark} {first rest : List Frame}

theorem grow (h : Excused past rest) : Excused (past ++ more) rest := by
  induction h with
  | nil => exact .nil
  | plain hf _ ih => exact .plain hf ih
  | recording hsent _ ih => exact .recording hsent.grow ih
  | apology hsent hrecorded _ ih => exact .apology hsent.grow hrecorded.grow ih

theorem append (hfirst : ∀ f ∈ first, f.isPlain = true) (h : Excused past rest) :
    Excused past (first ++ rest) := by
  induction first with
  | nil => exact h
  | cons f first ih =>
    exact .plain (hfirst f List.mem_cons_self) (ih fun g hg => hfirst g (List.mem_cons_of_mem f hg))

end Excused

/-! ### Moves -/

theorem Request.isPlain_task (r : Request) : (Frame.todo r.task).isPlain = true := by
  cases r <;> rfl

theorem Client.Upcall.Resumes.isPlain {u : Upcall} {frames : List Frame} (h : u.Resumes frames) :
    ∀ f ∈ frames, f.isPlain = true := by
  cases h <;> simp [Frame.isPlain]

/-- Whoever owes an apology is one. -/
theorem Client.Frame.of_apology {f : Frame} (h : f.debt? = some .apology) :
    ∃ id d i d' reason, f = .todo (.decided id d (.error (.sendFailed i d' reason))) := by
  unfold Frame.debt? at h
  split at h <;> first | exact ⟨_, _, _, _, _, rfl⟩ | cases h

/-- Only a decision that the channel did not take is apologized for. -/
theorem Client.debtor_of_apology {c : Client} {t : Task} (h : .apology ∈ debts (c.perform t).frames) :
    (Frame.todo t).debt? = some .decision := by
  have posting : Posting _ _ _ _ _ := c.posting t
  generalize hheld : (Frame.todo t).debt?.toList = held at posting
  generalize hdebt : debts (c.perform t).frames = debt at h posting
  generalize (c.perform t).client.books = books at posting
  generalize (c.marks t).flatMap Mark.posts = posts at posting
  cases posting with
  | untaken => simpa using hheld
  | aside =>
    -- an apology that stays would be left by one that was made, and those leave nothing
    rw [← hheld, Option.mem_toList] at h
    obtain ⟨id, d, i, d', reason, hframe⟩ := Frame.of_apology h
    obtain rfl := Frame.todo.inj hframe
    rw [← hheld] at hdebt
    cases hdebt
  | swept => simp at h
  | _ => simp at h

/-- Only a decision that the channel did not take leaves anything that is not plain. -/
theorem Client.isPlain_perform {c : Client} {t : Task} {f : Frame} (hf : f ∈ (c.perform t).frames) :
    f.isPlain = true ∨ ∃ id d e, t = .decisionSent id d (.error e) := by
  cases c.perform_leaves t f hf with
  | @failing id d e => exact Or.inr ⟨id, d, e, rfl⟩
  | @inbound m => cases m <;> exact Or.inl (by simp [taskOf, Frame.isPlain])
  | @answering t id d result =>
    by_cases hplain : (Frame.todo (.decided id d result)).isPlain = true
    · exact Or.inl hplain
    · have hdebt : (Frame.todo (.decided id d result)).debt? = some .apology := by
        unfold Frame.isPlain at hplain
        split at hplain <;> simp_all [Frame.debt?]
      have howner := debtor_of_apology (List.mem_filterMap.mpr ⟨_, hf, hdebt⟩)
      -- of those who owe to learn about a decision, only one that has learned leaves an answer
      cases t with
      | decisionSent i d' sent =>
        rcases sent with e | ok
        · exact Or.inr ⟨i, d', e, rfl⟩
        · obtain ⟨-, -, rfl⟩ : id = i ∧ d = d' ∧ result = .ok () := by
            simpa [perform, decisionSent] using hf
          contradiction
      | raise u => simp [perform] at hf
      | decided i d' earlier => simp [perform] at hf
      | _ => simp [Frame.debt?] at howner
  | _ => exact Or.inl rfl

namespace Excused

variable {past more : List Mark} {rest : List Frame}

/-- A move keeps every apology excused. -/
theorem move (c : Client) (t : Task) (h : Excused past (.todo t :: rest)) :
    Excused (past ++ c.marks t) ((c.perform t).frames ++ rest) := by
  generalize hstack : Frame.todo t :: rest = stack at h
  cases h with
  | nil => contradiction
  | @plain f rest' hf h =>
    obtain ⟨rfl, rfl⟩ := List.cons.inj hstack
    by_cases hsent : ∃ id d e, t = .decisionSent id d (.error e)
    · obtain ⟨id, d, e, rfl⟩ := hsent
      exact .recording (done_marks c past _) h.grow
    · exact h.grow.append fun f hf => (Client.isPlain_perform hf).resolve_right hsent
  | @recording id d e rest' hsent h =>
    obtain ⟨hf, rfl⟩ := List.cons.inj hstack
    obtain rfl : t = .record id d e.message := Frame.todo.inj hf
    refine Excused.append (fun f hf => ?_) (.apology hsent.grow (done_marks c past _) h.grow)
    refine (Client.isPlain_perform hf).resolve_right ?_
    rintro ⟨_, _, _, hsame⟩
    cases hsame
  | @apology id d e rest' hsent hrecorded h =>
    obtain ⟨hf, rfl⟩ := List.cons.inj hstack
    obtain rfl : t = .apologize id d e.message := Frame.todo.inj hf
    exact h.grow

/-- So does an answer: what is inside foreign code is no apology. -/
theorem answer {u : Upcall} (a : Answer) (h : Excused past (.inside u :: rest)) :
    Excused (past ++ more) (u.resume a ++ rest) := by
  generalize hstack : Frame.inside u :: rest = stack at h
  cases h with
  | nil => contradiction
  | plain hf h =>
    obtain ⟨rfl, rfl⟩ := List.cons.inj hstack
    exact h.grow.append (u.resumes a).isPlain
  | recording => cases (List.cons.inj hstack).1
  | apology => cases (List.cons.inj hstack).1

end Excused

namespace ClientThreads

/-- **Every apology on a stack is excused.** -/
theorem excused_run (config : Config) (schedule : List Choice) :
    ∀ stack ∈ (run config schedule).threads, Excused (run config schedule).past stack := by
  refine run_induction (P := fun s => ∀ stack ∈ s.threads, Excused s.past stack)
    (fun _ h => by contradiction) (fun s s' h step => ?_) schedule
  -- only the thread that goes on has a new stack; the others see the past grow
  cases step with
  | join =>
    simp only [List.forall_mem_append, List.forall_mem_singleton]
    exact ⟨h, .nil⟩
  | ask r haway =>
    simp only [List.forall_mem_append, List.forall_mem_cons] at h ⊢
    exact ⟨h.1, .plain r.isPlain_task h.2.1, h.2.2⟩
  | @move c past before after rest t =>
    simp only [List.forall_mem_append, List.forall_mem_cons] at h ⊢
    exact ⟨fun stack hmem => (h.1 stack hmem).grow, h.2.1.move c t,
      fun stack hmem => (h.2.2 stack hmem).grow⟩
  | answer u a =>
    simp only [List.forall_mem_append, List.forall_mem_cons] at h ⊢
    exact ⟨fun stack hmem => (h.1 stack hmem).grow, h.2.1.answer a,
      fun stack hmem => (h.2.2 stack hmem).grow⟩

/-! ## The moment at which a failure is recorded -/

theorem excused_thread (config : Config) (schedule : List Choice) {n : Nat} {stack : List Frame}
    (hthread : (run config schedule).threads[n]? = some stack) :
    Excused (run config schedule).past stack :=
  excused_run config schedule stack (List.mem_of_getElem? hthread)

/-- A failure that is about to be recorded comes from a decision that the channel did not take. -/
theorem sent_of_record (config : Config) (schedule : List Choice) {n : Nat} {rest : List Frame}
    {id : OperationId} {d : Decision} {reason : String}
    (hthread : (run config schedule).threads[n]? = some (.todo (.record id d reason) :: rest)) :
    ∃ d' e, Done (run config schedule).past (.decisionSent id d' (.error e)) := by
  have hexcused := excused_thread config schedule hthread
  generalize hstack : Frame.todo (.record id d reason) :: rest = stack at hexcused
  cases hexcused with
  | nil => contradiction
  | plain hf h =>
    obtain ⟨rfl, rfl⟩ := List.cons.inj hstack
    contradiction
  | @recording i d' e rest' hsent h =>
    obtain rfl : id = i := by
      have hframe := (List.cons.inj hstack).1
      exact (Task.finish.inj (Frame.todo.inj hframe)).1
    exact ⟨d', e, hsent⟩
  | apology => cases (List.cons.inj hstack).1

/-- Whoever learned about its decision had an identifier. -/
theorem given_of_sent (config : Config) (schedule : List Choice) {id : OperationId} {d : Decision}
    {result : Except ChannelError Unit}
    (hgiven : (run config schedule).given.length < 2 ^ 64 - 1)
    (hsent : Done (run config schedule).past (.decisionSent id d result)) :
    id ∈ (run config schedule).given := by
  obtain ⟨shown, hshown⟩ := hsent
  obtain ⟨before, n, rest, after, rfl, hthread, -⟩ := moved_split hshown
  have hgrow := given_grow (past_run config before (.move n :: after))
  refine hgrow.subset (mem_given_of_share config before ?_ fun hblank => ?_)
  · have hle := hgrow.length_le
    omega
  · -- the frame itself shows that the operation exists
    have hframe : .todo (.decisionSent id d result) ∈
        ((run config before).share id).frames := by
      refine List.mem_filter.mpr ⟨?_, decide_eq_true rfl⟩
      exact List.mem_flatten.mpr ⟨_, List.mem_of_getElem? hthread, List.mem_cons_self⟩
    rw [hblank] at hframe
    contradiction

/-- What comes of a decision that could not be sent, from the move on that records it. -/
structure Recorded (config : Config) (before : List Choice) (n : Nat) (after : List Choice)
    (id : OperationId) (f : Failure) : Prop where
  /-- An operation that is still pending ends with this failure, and the move counts nothing. -/
  pending : (run config before).client.phaseOf id ≠ none →
    (run config (before ++ [.move n])).client.stats = (run config before).client.stats ∧
      finals ((run config (before ++ .move n :: after)).queued id) = [.failed f] ∧
      ((run config (before ++ .move n :: after)).Quiet id →
        ((run config (before ++ .move n :: after)).client.cell id).outcome = some (.failed f))
  /-- An operation that is not has ended in another way, or its submission was taken back. That stays so,
  and the failure is counted as a message that came late. -/
  late : (run config before).client.phaseOf id = none →
    (run config (before ++ [.move n])).client.stats =
        (run config before).client.stats.count .duplicates ∧
      finals ((run config (before ++ .move n :: after)).queued id) =
        finals ((run config before).queued id) ∧
      ((∃ outcome, finals ((run config before).queued id) = [outcome]) ∨
        (run config before).Refused id)

/-- An end that was queued is the only one that ever is. -/
theorem finals_kept (config : Config) (schedule more : List Choice) (id : OperationId)
    (hgiven : (run config (schedule ++ more)).given.length < 2 ^ 64 - 1)
    (hended : finals ((run config schedule).queued id) ≠ []) :
    finals ((run config (schedule ++ more)).queued id) = finals ((run config schedule).queued id) := by
  obtain ⟨later, hlater⟩ := queued_grow (past_run config schedule more) id
  have hgrow : finals ((run config (schedule ++ more)).queued id) =
      finals ((run config schedule).queued id) ++ finals later := by
    rw [← hlater, finals_append]
  have hle : (finals ((run config (schedule ++ more)).queued id)).length ≤ 1 := by
    rcases alive_run config (schedule ++ more) id hgiven with hblank | ⟨delivery, alive⟩
    · have hnone : (run config (schedule ++ more)).queued id = [] := congrArg OperationShare.queued hblank
      rw [hnone]
      exact Nat.zero_le 1
    · exact OperationShare.length_finals_le alive.life
  have hpos := List.length_pos_iff.mpr hended
  rw [hgrow, List.length_append] at hle
  rw [hgrow, List.length_eq_zero_iff.mp (by omega : (finals later).length = 0), List.append_nil]

/-- A submission that was taken back is queued no end. -/
theorem finals_of_refused (config : Config) (schedule : List Choice) {id : OperationId}
    (hgiven : (run config schedule).given.length < 2 ^ 64 - 1)
    (hrefused : (run config schedule).Refused id) :
    finals ((run config schedule).queued id) = [] := by
  rcases released_run config schedule id hgiven with hblank | released
  · have hqueued : (run config schedule).queued id = [] := congrArg OperationShare.queued hblank
    rw [hqueued]
    rfl
  · exact (released.gone hrefused).2

section

variable (config : Config) (before : List Choice) (n : Nat) {rest : List Frame} {id : OperationId}
  {d : Decision} {reason : String}
  (hgiven : (run config before).given.length < 2 ^ 64 - 1)
  (hthread : (run config before).threads[n]? = some (.todo (.record id d reason) :: rest))

include hgiven hthread

/-- The failure of an operation that is pending is queued as its end. -/
theorem record_of_pending {entry : Pending}
    (hentry : (run config before).client.pending.get? id = some entry) :
    (run config (before ++ [.move n])).client.stats = (run config before).client.stats ∧
      finals ((run config (before ++ [.move n])).queued id) = [.failed (.sendFailed d reason)] := by
  -- an entry that is pending has a delivery, in which nothing final was queued so far
  have hshare : (run config before).share id ≠ .blank := by
    intro hblank
    have hnone : (run config before).client.pending.get? id = none :=
      congrArg (fun share => share.view.entry) hblank
    rw [hnone] at hentry
    contradiction
  obtain ⟨delivery, alive⟩ := (alive_run config before id hgiven).resolve_left hshare
  have life : Life (((run config before).client.pending.get? id).map (·.phase))
    ((run config before).queued id) := alive.life
  rw [hentry, Option.map_some] at life
  have hfinish := @Client.finish_of_allows (run config before).client id entry
    (.failed (.sendFailed d reason)) "send_failed" hentry life.allows_failed
  obtain ⟨deliveries, hframe⟩ :=
    ((run config before).client.without id).enqueue_frame id (.failed (.sendFailed d reason))
  rw [run_append, List.foldl_cons, List.foldl_nil, act_move hthread]
  constructor
  · show ((run config before).client.finish id _ _).client.stats = _
    have hstats := congrArg Client.stats hframe
    rw [hfinish]
    exact hstats
  · have hmarks : ((run config before).client.marks (.record id d reason)).flatMap
        (Mark.queued id) = [.failed (.sendFailed d reason)] := by
      rw [Client.marks, show (run config before).client.perform (.record id d reason) = _ from hfinish]
      simp [Client.allots, Task.record, Mark.queued, Event.queuedFor, Outcome.callback]
    rw [queued, List.flatMap_append, hmarks, finals_append]
    have hopen : finals ((run config before).queued id) = [] := life.finals_of_pending
    unfold queued at hopen
    rw [hopen]
    rfl

/-- The failure of an operation that is not pending is late. -/
theorem record_of_none (hnone : (run config before).client.pending.get? id = none) :
    (run config (before ++ [.move n])).client.stats =
        (run config before).client.stats.count .duplicates ∧
      ((∃ outcome, finals ((run config before).queued id) = [outcome]) ∨
        (run config before).Refused id) := by
  obtain ⟨d', e, hsent⟩ := sent_of_record config before hthread
  have hmem := given_of_sent config before hgiven hsent
  constructor
  · -- the operation was given its identifier, so the next one comes after it
    have hlate : id < (run config before).client.nextId := by
      obtain ⟨hfirsts, hnext⟩ := given_run config before
      rw [hfirsts, OperationId.mem_firsts hgiven] at hmem
      rw [hnext]
      exact hmem.1
    have hfinish : (run config before).client.perform (.record id d reason) =
        ⟨(run config before).client.count .duplicates, [], [.noted (.late id "send_failed")]⟩ := by
      show (run config before).client.finish id _ _ = _
      unfold Client.finish
      rw [hnone]
      exact if_pos hlate
    rw [run_append, List.foldl_cons, List.foldl_nil, act_move hthread, hfinish]
    rfl
  · obtain ⟨delivery, documented⟩ := (documented config before id hgiven).resolve_left
      fun hblank => not_mem_given_of_blank hblank hmem
    refine documented.accounted.stands.symm.imp_left fun stands => ?_
    rw [show ((run config before).share id).view.entry = none from hnone] at stands
    generalize ((run config before).share id).standing = standing at stands
    show ∃ outcome, finals ((run config before).share id).queued = [outcome]
    generalize finals ((run config before).share id).queued = ended at stands
    cases stands with
    | @ended outcome => exact ⟨outcome, rfl⟩

end

theorem recorded_of_thread (config : Config) (before : List Choice) (n : Nat) (after : List Choice)
    {rest : List Frame} {id : OperationId} {d : Decision} {reason : String}
    (hgiven : (run config (before ++ .move n :: after)).given.length < 2 ^ 64 - 1)
    (hthread : (run config before).threads[n]? = some (.todo (.record id d reason) :: rest)) :
    Recorded config before n after id (.sendFailed d reason) := by
  have hbefore : (run config before).given.length < 2 ^ 64 - 1 :=
    Nat.lt_of_le_of_lt (given_le_run config before (.move n :: after)) hgiven
  have hsplit : before ++ .move n :: after = before ++ [.move n] ++ after := by simp
  constructor
  case pending =>
    intro hphase
    obtain ⟨phase, hsome⟩ := Option.ne_none_iff_exists'.mp hphase
    obtain ⟨entry, hentry, -⟩ := Option.map_eq_some_iff.mp hsome
    obtain ⟨hstats, hended⟩ := record_of_pending config before n hbefore hthread hentry
    have hfinals : finals ((run config (before ++ .move n :: after)).queued id) =
        [.failed (.sendFailed d reason)] := by
      rw [hsplit] at hgiven ⊢
      rw [finals_kept config _ after id hgiven (by simp [hended]), hended]
    refine ⟨hstats, hfinals, fun hquiet => told_of_quiet config _ id hgiven hquiet ?_⟩
    rw [hfinals]
    exact List.mem_singleton_self _
  case late =>
    intro hphase
    have hnone := Option.map_eq_none_iff.mp hphase
    obtain ⟨hstats, hwhy⟩ := record_of_none config before n hbefore hthread hnone
    refine ⟨hstats, ?_, hwhy⟩
    rcases hwhy with ⟨outcome, houtcome⟩ | hrefused
    · exact finals_kept config before (.move n :: after) id hgiven (by simp [houtcome])
    · have hstill := refused_grow (past_run config before (.move n :: after)) id hrefused
      rw [finals_of_refused config before hbefore hrefused, finals_of_refused config _ hgiven hstill]

/-! ## What an apology means -/

/-- Whoever is told that the decision was not sent is told so by an apology. -/
theorem of_reply {c : Client} {t : Task} {id i : OperationId} {d d' : Decision} {reason : String}
    (h : .decision id d (.error (.sendFailed i d' reason)) ∈ (c.perform t).events) :
    t = .decided id d (.error (.sendFailed i d' reason)) := by
  have hsweep : t ≠ .sweep := by
    rintro rfl
    simp [Client.perform, Client.sweep] at h
  have hposts : .undecided ∈ (c.marks t).flatMap Mark.posts := by
    have hmark : (Mark.moved t (c.perform t).events).posts =
        t.posts ++ (c.perform t).events.flatMap Event.posts := by
      cases t <;> first | rfl | exact absurd rfl hsweep
    refine List.mem_flatMap.mpr ⟨_, List.mem_cons_self, ?_⟩
    rw [hmark]
    exact List.mem_append_right _ (List.mem_flatMap.mpr ⟨_, h, List.mem_singleton_self _⟩)
  have posting : Posting _ _ _ _ _ := c.posting t
  generalize hheld : (Frame.todo t).debt?.toList = held at posting
  generalize (c.perform t).client.books = books at posting
  generalize debts (c.perform t).frames = debt at posting
  generalize (c.marks t).flatMap Mark.posts = posts at hposts posting
  cases posting with
  | undecided =>
    obtain ⟨j, e, k, e', text, hframe⟩ := Frame.of_apology (by simpa using hheld)
    obtain rfl := Frame.todo.inj hframe
    obtain ⟨rfl, rfl, rfl, rfl, rfl⟩ :
        id = j ∧ d = e ∧ i = k ∧ d' = e' ∧ reason = text := by
      simpa [Client.perform] using h
    rfl
  | swept => simp at hposts
  | _ => simp at hposts

/-- An apology that was made names its own operation and decision, and the failure was recorded before. -/
theorem recorded_before (config : Config) (schedule : List Choice) {id i : OperationId}
    {d d' : Decision} {reason : String}
    (hreply : (d, .error (.sendFailed i d' reason)) ∈ (run config schedule).replies id) :
    i = id ∧ d' = d ∧
      (∃ e, reason = e.message ∧ Done (run config schedule).past (.decisionSent id d (.error e))) ∧
      Done (run config schedule).past (.record id d reason) := by
  obtain ⟨mark, hmark, hshows⟩ := List.mem_flatMap.mp hreply
  cases mark with
  | enlisted _ => contradiction
  | answered u a => contradiction
  | moved t shown =>
    obtain ⟨event, hevent, htells⟩ := List.mem_filterMap.mp hshows
    have hdecision : event = .decision id d (.error (.sendFailed i d' reason)) := by
      unfold Event.replyFor at htells
      split at htells
      · split at htells
        · rename_i hid
          obtain ⟨rfl, rfl⟩ := Prod.mk.inj (Option.some.inj htells)
          rw [hid]
        · contradiction
      · contradiction
    -- the apology is a frame on the stack of a thread, which `Excused` explains
    obtain ⟨before, n, rest, after, rfl, hthread, hshown⟩ := moved_split hmark
    rw [hshown, hdecision] at hevent
    obtain rfl := of_reply hevent
    have hexcused := excused_thread config before hthread
    obtain ⟨more, hmore⟩ := past_run config before (.move n :: after)
    rw [← hmore]
    generalize hstack : Frame.todo (.decided id d (.error (.sendFailed i d' reason))) :: rest = stack
      at hexcused
    cases hexcused with
    | nil => contradiction
    | plain hf h =>
      obtain ⟨rfl, rfl⟩ := List.cons.inj hstack
      contradiction
    | recording => cases (List.cons.inj hstack).1
    | @apology j e failure rest' hsent hrecorded h =>
      obtain ⟨rfl, rfl, rfl, rfl, rfl⟩ : id = j ∧ d = e ∧ i = j ∧ d' = e ∧ reason = failure.message := by
        simpa [Task.apologize] using (List.cons.inj hstack).1
      exact ⟨rfl, rfl, ⟨failure, rfl, hsent.grow⟩, hrecorded.grow⟩

/-- What somebody may rely on who is told that a decision could not be sent. -/
structure Apologized (config : Config) (schedule : List Choice) (id : OperationId) (d : Decision)
    (i : OperationId) (d' : Decision) (reason : String) : Prop where
  /-- The answer is about the operation and the decision that were asked for. -/
  own : i = id ∧ d' = d
  /-- The channel did not take the decision, and gave this reason. -/
  refused : ∃ e, reason = e.message ∧
    Done (run config schedule).past (.decisionSent id d (.error e))
  /-- There was a moment at which the failure was recorded, and what came of it was settled then. -/
  recorded : ∃ before n rest after, schedule = before ++ .move n :: after ∧
    (run config before).threads[n]? = some (.todo (.record id d reason) :: rest) ∧
    Recorded config before n after id (.sendFailed d reason)

/-- **Whoever is told that a decision could not be sent is told why the operation failed, if it was still
pending when that was recorded**; otherwise it had ended before, for the listener and for all handles, and
the failure is one more message that came late. -/
theorem apologized (config : Config) (schedule : List Choice) {id i : OperationId} {d d' : Decision}
    {reason : String} (hgiven : (run config schedule).given.length < 2 ^ 64 - 1)
    (hreply : (d, .error (.sendFailed i d' reason)) ∈ (run config schedule).replies id) :
    Apologized config schedule id d i d' reason := by
  obtain ⟨hid, hd, hrefused, shown, hrecorded⟩ := recorded_before config schedule hreply
  refine ⟨⟨hid, hd⟩, hrefused, ?_⟩
  obtain ⟨before, n, rest, after, rfl, hthread, -⟩ := moved_split hrecorded
  exact ⟨before, n, rest, after, rfl, hthread, recorded_of_thread config before n after hgiven hthread⟩

/-- A channel that delivers the completion of an operation while it has the decision in hand, and then
refuses the decision. -/
def crossed : List Choice :=
  [.join, .ask 0 (.submit true (.recorder "") ⟨.undefined, [], .discard⟩), .move 0, .move 0, .move 0,
    .move 0, .answer 0 .returned, .move 0, .answer 0 (.sent (.ok ())), .move 0,
    .ask 0 (.deliver (.prepared ⟨1⟩ .undefined)), .move 0, .move 0, .move 0, .move 0,
    .answer 0 .returned, .move 0, .move 0, .answer 0 .returned, .move 0, .move 0,
    .ask 0 (.decide ⟨1⟩ .commit), .move 0, .move 0, .move 0,
    .ask 0 (.deliver (.completed ⟨1⟩ .undefined)), .move 0, .move 0, .move 0, .move 0,
    .answer 0 .returned, .move 0, .move 0, .answer 0 .returned, .move 0, .move 0, .move 0,
    .answer 0 (.sent (.error .closed)), .move 0, .move 0, .move 0]

theorem replies_crossed : (run {} crossed).replies ⟨1⟩ =
    [(.commit, .error (.sendFailed ⟨1⟩ .commit ChannelError.closed.message))] := by
  decide +kernel

/-- **An apology can be wrong about the end of its operation.** The caller is told that the commit could not
be sent, while the operation is completed for everyone, and the failure of the send is counted as a message
that came twice. -/
theorem completed_and_apologized :
    (run {} crossed).replies ⟨1⟩ =
        [(.commit, .error (.sendFailed ⟨1⟩ .commit ChannelError.closed.message))] ∧
      (run {} crossed).frames.length = 0 ∧
      ((run {} crossed).client.cell ⟨1⟩).outcome.map Client.finalPhase = some .completed ∧
      (run {} crossed).client.stats.duplicates = 1 :=
  ⟨replies_crossed, by decide +kernel, by decide +kernel, by decide +kernel⟩

theorem apologized_of_crossed :
    (run {} crossed).given.length < 2 ^ 64 - 1 ∧
      (.commit, .error (.sendFailed ⟨1⟩ .commit ChannelError.closed.message)) ∈
        (run {} crossed).replies ⟨1⟩ ∧
      Apologized {} crossed ⟨1⟩ .commit ⟨1⟩ .commit ChannelError.closed.message := by
  have hgiven : (run {} crossed).given.length < 2 ^ 64 - 1 := by decide +kernel
  have hreply : (.commit, .error (.sendFailed ⟨1⟩ .commit ChannelError.closed.message)) ∈
      (run {} crossed).replies ⟨1⟩ := by
    rw [replies_crossed]
    exact List.mem_singleton_self _
  exact ⟨hgiven, hreply, apologized {} crossed hgiven hreply⟩

end ClientThreads

end TwoPhase
