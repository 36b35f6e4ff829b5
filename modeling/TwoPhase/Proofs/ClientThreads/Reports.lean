import TwoPhase.Proofs.ClientThreads.Histories
/-
What an operation has earned, and what its listener and its sink are told.

Reports share a mailbox with the callbacks of the listener, and any thread may put one there while the
listener is being called. Here the mailbox is left out: what an operation is owed is read off the past
alone (`ClientThreads.earned`). A report counts while the operation is under way, the news that it is
prepared count once, and so does its end. What was queued for an operation that was not refused is just
that (`queued_eq_earned`), so its listener and its sink together are told just that, in this order.
-/

set_option autoImplicit false

namespace TwoPhase

open Client (Task Frame Upcall Answer Event Cause)

/-! ## Earnings -/

namespace Standing

/-- The phase in which an operation is pending, by where it stands. -/
def phase? : Standing → Option Phase
  | submitted => some .submitted
  | prepared => some .prepared
  | ended _ => none

/-- The callback that a cause earns an operation, where the operation admits the cause. -/
def admits : Standing → Cause → List Callback
  | submitted, .prepared result => [.prepared result]
  | submitted, .ended (.failed f) => [.failed f]
  | prepared, .ended outcome => [outcome.callback]
  | _, _ => []

end Standing

/-- What something that happens earns an operation: a report for its sink, or a callback for its
listener. -/
def Mark.earns (id : OperationId) (standing : Option Standing) : Mark → List Callback
  | .moved (.report i severity text) _ =>
    if i = id ∧ (standing.bind Standing.phase?).isSome then [.report severity text] else []
  | .moved t _ => (t.cause? id).elim [] fun cause => standing.elim [] (·.admits cause)
  | _ => []

/-- What an operation has earned by a part of the past, from where it stood. -/
def earnings (id : OperationId) : Option Standing → List Mark → List Callback
  | _, [] => []
  | standing, mark :: rest => mark.earns id standing ++ earnings id (mark.stand id standing) rest

/-- What an operation has earned. -/
def ClientThreads.earned (s : ClientThreads) (id : OperationId) : List Callback := earnings id none s.past

theorem earnings_append (id : OperationId) (standing : Option Standing) (first rest : List Mark) :
    earnings id standing (first ++ rest) =
      earnings id standing first ++ earnings id (first.foldl (Mark.stand id) standing) rest := by
  induction first generalizing standing with
  | nil => rfl
  | cons mark first ih =>
    rw [List.cons_append, earnings, earnings, ih, List.foldl_cons, List.append_assoc]

/-! ## What one move earns -/

section

variable {id : OperationId} {entry : Option Pending} {standing : Option Standing}

/-- Whoever is pending stands somewhere. -/
theorem Standing.of_pending (h : entry.map (·.phase) = standing.bind Standing.phase?) {p : Pending}
    (hentry : entry = some p) :
    (p.phase = .submitted ∧ standing = some .submitted) ∨
      (p.phase = .prepared ∧ standing = some .prepared) := by
  subst hentry
  rcases standing with _ | _ | _ | outcome
  · contradiction
  · exact Or.inl ⟨Option.some.inj h, rfl⟩
  · exact Or.inr ⟨Option.some.inj h, rfl⟩
  · contradiction

/-- A cause that is refused earns nothing. -/
theorem Standing.admits_of_refuses {v : View} (h : v.entry.map (·.phase) = standing.bind Standing.phase?)
    {cause : Cause} (hrefuses : v.Refuses cause) : standing.elim [] (·.admits cause) = [] := by
  -- what is pending refuses by its phase; what is not pending stands nowhere or has ended
  cases hentry : v.entry with
  | none =>
    rw [hentry] at h
    rcases standing with _ | _ | _ | outcome
    · rfl
    · contradiction
    · contradiction
    · cases cause <;> rfl
  | some p =>
    rcases of_pending h hentry with ⟨hphase, rfl⟩ | ⟨hphase, rfl⟩
    · cases cause with
      | prepared result => simpa [hphase, Phase.allows] using hrefuses p hentry
      | ended outcome =>
        cases outcome with
        | completed result => rfl
        | failed f => simpa [hphase, Phase.allows, Client.finalPhase] using hrefuses p hentry
    · cases cause with
      | prepared result => rfl
      | ended outcome =>
        cases outcome <;> simpa [hphase, Phase.allows, Client.finalPhase] using hrefuses p hentry

/-- An end that is allowed earns its callback. -/
theorem Standing.admits_of_allows (h : entry.map (·.phase) = standing.bind Standing.phase?) {p : Pending}
    (hentry : entry = some p) {outcome : Outcome}
    (hallows : p.phase.allows (Client.finalPhase outcome) = true) :
    standing.elim [] (·.admits (.ended outcome)) = [outcome.callback] := by
  rcases of_pending h hentry with ⟨hphase, rfl⟩ | ⟨-, rfl⟩
  · rw [hphase] at hallows
    cases outcome with
    | completed result => contradiction
    | failed f => rfl
  · rfl

/-- What a move queues for an operation is what the operation earns by it, reports apart. -/
theorem Touch.earns {v v' : View} {t : Task} {y : Yield} (touch : Touch id v t v' y)
    (h : v.entry.map (·.phase) = standing.bind Standing.phase?)
    (hreport : ∀ i severity text, t ≠ .report i severity text) :
    y.queued = (t.cause? id).elim [] fun cause => standing.elim [] (·.admits cause) := by
  cases touch with
  | aside hframe hcause =>
    cases hof : t.cause? id with
    | none => rfl
    | some cause => exact (Standing.admits_of_refuses h (hcause cause hof)).symm
  | @accepted entry result hentry hphase =>
    rcases Standing.of_pending h hentry with ⟨-, rfl⟩ | ⟨hprepared, -⟩
    · simp [Task.cause?, Standing.admits]
    · cases hphase.symm.trans hprepared
  | @finished entry outcome kind hentry hallows =>
    simpa [Task.cause?] using (Standing.admits_of_allows h hentry hallows).symm
  | @swept entry hentry =>
    refine (@Standing.admits_of_allows _ _ h _ hentry (.failed .channelClosed) ?_).symm
    rcases Standing.of_pending h hentry with ⟨hphase, -⟩ | ⟨hphase, -⟩ <;> rw [hphase] <;> rfl
  | reported => exact absurd rfl (hreport _ _ _)
  | raised hu => rfl
  | _ => rfl

end

/-- A report is queued for a pending operation, and for no other. -/
theorem Client.queued_report (c : Client) (id i : OperationId) (severity : Severity) (text : String) :
    (c.yield (.report i severity text) id).queued =
      if i = id ∧ (c.pending.get? id).isSome then [.report severity text] else [] := by
  by_cases hid : i = id
  · subst hid
    by_cases hin : (c.pending.get? i).isSome = true <;>
      simp [yield, perform, report, Table.contains, hin, Event.queuedFor, List.filterMap_cons]
  · by_cases hin : (c.pending.get? i).isSome = true <;>
      simp [yield, perform, report, Table.contains, hin, hid, Event.queuedFor, List.filterMap_cons]

/-- **What a move queues for an operation is what the operation earns by it**, as long as it is pending
where it stands. -/
theorem Client.earnings_marks (c : Client) (t : Task) {id : OperationId} {standing : Option Standing}
    (h : c.phaseOf id = standing.bind Standing.phase?) :
    earnings id standing (c.marks t) = (c.yield t id).queued := by
  have hmoved : earnings id standing (c.marks t) =
      (Mark.moved t (c.perform t).events).earns id standing := by
    rw [marks]
    cases c.allots t <;> simp [earnings, Mark.earns]
  rw [hmoved]
  by_cases hreport : ∃ i severity text, t = .report i severity text
  · obtain ⟨i, severity, text, rfl⟩ := hreport
    rw [queued_report, Mark.earns, ← h, phaseOf, Option.isSome_map]
  · have htouch := (c.perform_touch id t).earns h fun i severity text ht => hreport ⟨i, severity, text, ht⟩
    rw [htouch]
    cases t with
    | report i severity text => exact absurd ⟨i, severity, text, rfl⟩ hreport
    | _ => rfl

/-! ## Every schedule -/

namespace ClientThreads

/-- An operation that was not refused is pending in the phase in which it stands. -/
theorem phase_run (config : Config) (schedule : List Choice) (id : OperationId)
    (hgiven : (run config schedule).given.length < 2 ^ 64 - 1)
    (hunrefused : ¬ (run config schedule).Refused id) :
    (run config schedule).client.phaseOf id =
      ((run config schedule).standing id).bind Standing.phase? := by
  rcases accounted_run config schedule id hgiven with hblank | accounted
  · have hentry : (run config schedule).client.pending.get? id = none :=
      congrArg (·.view.entry) hblank
    have hstanding : (run config schedule).standing id = none := congrArg OperationShare.standing hblank
    rw [Client.phaseOf, hentry, hstanding]
    rfl
  · have stands : Stands ((run config schedule).client.pending.get? id)
      ((run config schedule).standing id) (finals ((run config schedule).queued id)) :=
      accounted.stands.resolve_left hunrefused
    rw [Client.phaseOf]
    generalize (run config schedule).client.pending.get? id = entry at stands
    generalize (run config schedule).standing id = standing at stands
    generalize finals ((run config schedule).queued id) = told at stands
    cases stands with
    | submitted hphase | prepared hphase => exact congrArg some hphase
    | ended => rfl

/-- A step from where an operation is pending as it stands queues what the operation earns. -/
theorem Step.earned {s s' : ClientThreads} (step : Step s s') {id : OperationId}
    (hphase : s.client.phaseOf id = (s.standing id).bind Standing.phase?)
    (h : s.queued id = s.earned id) : s'.queued id = s'.earned id := by
  cases step with
  | join => exact h
  | ask r haway => exact h
  | answer u a =>
    rw [ClientThreads.queued, ClientThreads.earned, List.flatMap_append, earnings_append]
    simpa [Mark.queued, earnings, Mark.earns, ClientThreads.queued, ClientThreads.earned] using h
  | @move c past before after rest t =>
    have hqueued : (c.marks t).flatMap (Mark.queued id) = (c.yield t id).queued :=
      (marks_digest c t id).2.1
    have hearned := c.earnings_marks t hphase
    rw [ClientThreads.queued, ClientThreads.earned, List.flatMap_append, earnings_append, hqueued]
    exact congrArg₂ (· ++ ·) h hearned.symm

/-- **What was queued for an operation that was not refused is what it has earned.** -/
theorem queued_eq_earned (config : Config) (schedule : List Choice) (id : OperationId)
    (hgiven : (run config schedule).given.length < 2 ^ 64 - 1)
    (hunrefused : ¬ (run config schedule).Refused id) :
    (run config schedule).queued id = (run config schedule).earned id := by
  -- a refusal is not taken back, so there was none at any time before
  induction schedule using List.reverseRecOn with
  | nil => rfl
  | append_singleton schedule choice ih =>
    have hgrown := past_run config schedule [choice]
    have hbefore : (run config schedule).given.length < 2 ^ 64 - 1 :=
      Nat.lt_of_le_of_lt (given_grow hgrown).length_le hgiven
    have hunrefused' : ¬ (run config schedule).Refused id := fun h => hunrefused (refused_grow hgrown id h)
    rw [run_append, List.foldl_cons, List.foldl_nil]
    rcases act_step (run config schedule) choice with hsame | step
    · rw [hsame]
      exact ih hbefore hunrefused'
    · exact step.earned (phase_run config schedule id hbefore hunrefused') (ih hbefore hunrefused')

end ClientThreads

end TwoPhase
