import TwoPhase.Proofs.ClientThreads.Unmatched
import TwoPhase.Proofs.ClientThreads.Withdrawals
/-
The past of a client's threads.

It only grows, so what was queued, called or answered stays so, and everything that a schedule remembers of
a move was remembered at one choice of it (`moved_split`): there the task was on top of a thread, and what
was shown is what the task did to the client of that moment.
-/

set_option autoImplicit false

namespace TwoPhase

open Client (Task Frame Upcall Answer Event)

/-! ## Foreign code -/

/-- The foreign code that an event enters. -/
def Client.Event.entered? : Event → Option Upcall
  | .began u => some u
  | _ => none

/-- The foreign code that a thread entered. -/
def Mark.entered : Mark → List Upcall
  | .moved _ shown => shown.filterMap Event.entered?
  | _ => []

namespace ClientThreads

/-! ## Growth -/

theorem past_act (s : ClientThreads) (choice : Choice) : s.past <+: (s.act choice).past := by
  rcases act_step s choice with hsame | step
  · exact hsame.symm ▸ List.prefix_refl s.past
  · generalize s.act choice = s' at step
    cases step with
    | join => exact List.prefix_refl _
    | ask r haway => exact List.prefix_refl _
    | move t => exact List.prefix_append _ _
    | answer u a => exact List.prefix_append _ _

theorem past_run (config : Config) (schedule more : List Choice) :
    (run config schedule).past <+: (run config (schedule ++ more)).past := by
  induction more using List.reverseRecOn with
  | nil => simp only [List.append_nil, List.prefix_rfl]
  | append_singleton more choice ih =>
    rw [← List.append_assoc, run_append config (schedule ++ more), List.foldl_cons, List.foldl_nil]
    exact ih.trans (past_act _ choice)

section

variable {s s' : ClientThreads} (h : s.past <+: s'.past) (id : OperationId)

include h

/-- Whatever is read off the marks one by one grows with the past. -/
theorem flatMap_grow {α : Type} (f : Mark → List α) : s.past.flatMap f <+: s'.past.flatMap f := by
  obtain ⟨more, hmore⟩ := h
  rw [← hmore, List.flatMap_append]
  exact List.prefix_append _ _

theorem queued_grow : s.queued id <+: s'.queued id := flatMap_grow h _

theorem answers_grow : s.answers id <+: s'.answers id := flatMap_grow h _

theorem given_grow : s.given <+: s'.given := flatMap_grow h _

theorem calls_grow : s.calls id <+: s'.calls id := (flatMap_grow h (Mark.turns id)).filterMap _

theorem refused_grow (hrefused : s.Refused id) : s'.Refused id := by
  obtain ⟨e, he⟩ := hrefused
  exact ⟨e, (answers_grow h id).subset he⟩

end

/-- A callback that was entered is one of those that began. -/
theorem mem_calls_of_entered {s : ClientThreads} {id : OperationId} {callback : Callback}
    (h : .notify id callback ∈ s.past.flatMap Mark.entered) : callback ∈ s.calls id := by
  obtain ⟨mark, hmark, hentered⟩ := List.mem_flatMap.mp h
  refine List.mem_filterMap.mpr ⟨.began callback, List.mem_flatMap.mpr ⟨mark, hmark, ?_⟩, rfl⟩
  cases mark with
  | moved t shown =>
    obtain ⟨e, he, hbegan⟩ := List.mem_filterMap.mp hentered
    cases e with
    | began u =>
      obtain rfl : u = .notify id callback := Option.some.inj hbegan
      have hbegun : .notify id callback ∈ shown.filterMap (Event.begunAbout id) :=
        List.mem_filterMap.mpr ⟨_, he, by simp [Event.begunAbout, Upcall.about]⟩
      exact List.mem_map.mpr ⟨callback, List.mem_filterMap.mpr ⟨_, hbegun, rfl⟩, rfl⟩
    | _ => contradiction
  | _ => contradiction

/-- A move begins the callback that it was about to make. -/
theorem calls_marks (c : Client) (t : Task) (id : OperationId) :
    ((c.marks t).flatMap (Mark.turns id)).filterMap Turn.begun? = ((Frame.todo t).popped? id).toList := by
  have touch := c.perform_touch id t
  obtain ⟨-, -, -, hturns, -⟩ := marks_digest c t id
  rw [hturns]
  generalize c.yield t id = y at touch
  generalize c.view id = v at touch
  generalize (c.perform t).client.view id = v' at touch
  cases touch with
  | aside hframe hcause =>
    rw [Frame.popped?_of_silent (Frame.calls_of_not_about (Bool.eq_false_iff.mp hframe))]
    rfl
  | @raised u hu =>
    cases u with
    | notify i callback =>
      obtain rfl : i = id := of_decide_eq_true hu
      simp [Upcall.callback?, Turn.begun?, Frame.popped?]
    | _ => rfl
  | _ => rfl

/-! ## Moments -/

/-- What is remembered of a move after a choice was remembered before, or the choice was that move. -/
theorem moved_act {s : ClientThreads} {choice : Choice} {t : Task} {shown : List Event}
    (hpast : .moved t shown ∈ (s.act choice).past) :
    .moved t shown ∈ s.past ∨ ∃ n rest, choice = .move n ∧ s.threads[n]? = some (.todo t :: rest) ∧
      shown = (s.client.perform t).events := by
  cases choice with
  | join => exact Or.inl hpast
  | ask n r =>
    cases hn : s.threads[n]? with
    | none => exact Or.inl (by simpa only [act, hn] using hpast)
    | some stack =>
      by_cases haway : isAway stack = true
      · exact Or.inl (by simpa only [act, hn, if_pos haway] using hpast)
      · exact Or.inl (by simpa only [act, hn, if_neg haway] using hpast)
  | answer n a =>
    rcases hn : s.threads[n]? with _ | _ | ⟨t' | u, rest⟩
    · exact Or.inl (by simpa only [act, hn] using hpast)
    · exact Or.inl (by simpa only [act, hn] using hpast)
    · exact Or.inl (by simpa only [act, hn] using hpast)
    · rw [act_answer hn] at hpast
      exact Or.inl (by simpa using hpast)
  | move n =>
    rcases hn : s.threads[n]? with _ | _ | ⟨t' | u, rest⟩
    · exact Or.inl (by simpa only [act, hn] using hpast)
    · exact Or.inl (by simpa only [act, hn] using hpast)
    · rw [act_move hn] at hpast
      rcases List.mem_append.mp hpast with hold | hnew
      · exact Or.inl hold
      · obtain ⟨rfl, rfl⟩ : t = t' ∧ shown = (s.client.perform t').events := by
          simpa [Client.marks] using hnew
        exact Or.inr ⟨n, rest, rfl, hn, rfl⟩
    · exact Or.inl (by simpa only [act, hn] using hpast)

/-- **What is remembered of a move was remembered at one choice of the schedule.** -/
theorem moved_split {config : Config} {schedule : List Choice} {t : Task} {shown : List Event}
    (hpast : .moved t shown ∈ (run config schedule).past) :
    ∃ before n rest after, schedule = before ++ .move n :: after ∧
      (run config before).threads[n]? = some (.todo t :: rest) ∧
      shown = ((run config before).client.perform t).events := by
  -- the schedule goes on at its end: its last choice was the move, or an earlier one was
  induction schedule using List.reverseRecOn with
  | nil => contradiction
  | append_singleton schedule choice ih =>
    rw [run_append, List.foldl_cons, List.foldl_nil] at hpast
    rcases moved_act hpast with hold | ⟨n, rest, rfl, hthread, hshown⟩
    · obtain ⟨before, n, rest, after, rfl, hthread, hshown⟩ := ih hold
      exact ⟨before, n, rest, after ++ [choice], by simp, hthread, hshown⟩
    · exact ⟨schedule, n, rest, [], rfl, hthread, hshown⟩

/-! ## Operations -/

/-- Nothing of an operation is under way: no thread has anything left to do for it, and none is inside a
call that carries something of it. -/
def Quiet (s : ClientThreads) (id : OperationId) : Prop := s.frames.filter (Frame.about id) = []

/-- An operation that has a share of its own was given its identifier. -/
theorem mem_given_of_share (config : Config) (schedule : List Choice) {id : OperationId}
    (hgiven : (run config schedule).given.length < 2 ^ 64 - 1)
    (hshare : (run config schedule).share id ≠ .blank) : id ∈ (run config schedule).given := by
  rcases share_induction (P := fun _ => True) (fun _ _ _ => trivial) (fun _ _ _ _ _ _ => trivial)
    schedule (count_given_le config schedule id hgiven) with hblank | ⟨hone, -⟩
  · exact absurd hblank hshare
  · exact List.count_pos_iff.mp (Nat.lt_of_lt_of_eq Nat.zero_lt_one hone.symm)

/-- A refusal is the only answer to a submission. -/
theorem not_ok_of_refused (config : Config) (schedule : List Choice) {id : OperationId}
    (hgiven : (run config schedule).given.length < 2 ^ 64 - 1)
    (hrefused : (run config schedule).Refused id) : .ok id ∉ (run config schedule).answers id := by
  obtain ⟨e, he⟩ := hrefused
  intro hok
  rcases accounted_run config schedule id hgiven with hblank | accounted
  · have hanswers : (run config schedule).answers id = [] := congrArg OperationShare.answers hblank
    rw [hanswers] at he
    contradiction
  · have hone : ((run config schedule).answers id).length ≤ 1 :=
      Nat.le_of_add_left_le (Nat.le_of_eq accounted.answered)
    cases eq_of_length_le_one hone he hok

end ClientThreads

end TwoPhase
