import TwoPhase.Proofs.ClientThreads.Outcomes
/-
Submissions that the channel refuses, under every interleaving.

A submission is entered in the table before it is handed to the channel, and taken back out if the
channel refuses it. Between the two the table is unlocked, so anything may reach the operation: the
channel itself may deliver messages before it answers. A sweep in that window ends the operation, and
its submitter is then told that it was taken. The news that the operation is prepared does not end it.
Its listener is called, a handle is made, and when the channel refuses after all, the entry goes without
a last callback. What holds of every submission is said here with that case set apart (`Submitted`), and
one schedule (`race`) shows that it occurs.
-/

set_option autoImplicit false

namespace TwoPhase

open Client (Task Frame Upcall Answer Event)

/-! ## What is known of an operation whose submission was taken back -/

/-- An operation whose submission was taken back has left the table without a last callback, and the
holders of a handle are those who are told that it is prepared. -/
structure OperationShare.Released (d : OperationShare) : Prop where
  gone : (∃ e, .error e ∈ d.answers) → d.view.entry = none ∧ finals d.queued = []
  granted : ∀ handle, d.view.handle = some handle → .prepared handle.result ∈ d.queued

/-- An operation that is pending was not queued a last callback. -/
theorem Life.finals_of_pending {phase : Phase} {queued : List Callback}
    (h : Life (some phase) queued) : finals queued = [] := by
  rw [← OperationShare.finals_heard]
  cases h with
  | submitted h =>
    rw [h]
    rfl
  | prepared h =>
    rw [h]
    rfl

/-- What has left the table is queued nothing and does not come back. -/
theorem Touch.of_gone {id : OperationId} {v v' : View} {t : Task} {y : Yield}
    (touch : Touch id v t v' y) (hknown : y.enlisted = false) (hgone : v.entry = none) :
    v'.entry = none ∧ y.queued = [] := by
  cases touch with
  | enlisted => contradiction
  | withdrawn hentry => exact ⟨rfl, rfl⟩
  | claimed hentry hphase hdecision => cases hentry.symm.trans hgone
  | accepted hentry hphase => cases hentry.symm.trans hgone
  | finished hentry hallows => cases hentry.symm.trans hgone
  | reported hentry => cases hentry.symm.trans hgone
  | swept hentry => cases hentry.symm.trans hgone
  | _ => exact ⟨hgone, rfl⟩

/-- Only the refusal of a pending submission tells its submitter of an error. -/
theorem Touch.of_refused {id : OperationId} {v v' : View} {t : Task} {y : Yield}
    (touch : Touch id v t v' y) {e : ClientError} (h : .error e ∈ y.answers) :
    v.entry ≠ none ∧ v'.entry = none ∧ y.queued = [] := by
  cases touch with
  | withdrawn hentry =>
    refine ⟨?_, rfl, rfl⟩
    rw [hentry]
    exact Option.some_ne_none _
  | admitted hadmitted =>
    rw [List.mem_singleton] at h
    cases h
  | _ => contradiction

/-- A handle is made together with the callback that carries it, and keeps its result. -/
theorem Touch.grants {id : OperationId} {v v' : View} {t : Task} {y : Yield}
    (touch : Touch id v t v' y) {queued : List Callback}
    (h : ∀ handle, v.handle = some handle → .prepared handle.result ∈ queued) :
    ∀ handle, v'.handle = some handle → .prepared handle.result ∈ queued ++ y.queued := by
  intro handle hhandle
  cases touch with
  | asked hold hasked =>
    have hmem := h _ hold
    obtain rfl := Option.some.inj hhandle
    exact List.mem_append_left _ hmem
  | accepted hentry hphase =>
    obtain rfl := Option.some.inj hhandle
    exact List.mem_append_right _ (List.mem_singleton_self _)
  | _ => exact List.mem_append_left _ (h handle hhandle)

namespace OperationShare

theorem released_newcomer (id : OperationId) (listener : Listener) (operation : Operation)
    (payload : List UInt8) : Released (newcomer id listener operation payload) where
  gone := by
    rintro ⟨e, he⟩
    contradiction
  granted := by
    intro handle hhandle
    contradiction

theorem Released.step {id : OperationId} {d d' : OperationShare} {delivery : Delivery}
    (h : Released d) (alive : Alive id d delivery) (hone : d.enlistings = 1)
    (hone' : d'.enlistings = 1) (step : Step id d d') : Released d' := by
  obtain ⟨gone, granted⟩ := h
  cases step with
  | answered u a hu => exact ⟨gone, granted⟩
  | @moved v v' t y before after n queued begun turns answers standing touch hroom =>
    refine ⟨?_, touch.grants granted⟩
    rintro ⟨e, he⟩
    rcases List.mem_append.mp he with hold | hnew
    · obtain ⟨hentry, hqueued⟩ := gone ⟨e, hold⟩
      obtain ⟨hentry', hnone⟩ := touch.of_gone (unenlisted hone hone') hentry
      refine ⟨hentry', ?_⟩
      rw [hnone, List.append_nil]
      exact hqueued
    · obtain ⟨hpending, hentry', hnone⟩ := touch.of_refused hnew
      obtain ⟨entry, hentry⟩ := Option.ne_none_iff_exists'.mp hpending
      have life : Life (v.entry.map (·.phase)) queued := alive.life
      rw [hentry, Option.map_some] at life
      refine ⟨hentry', ?_⟩
      rw [hnone, List.append_nil]
      exact life.finals_of_pending

end OperationShare

namespace ClientThreads

theorem released_run (config : Config) (schedule : List Choice) (id : OperationId)
    (hgiven : (run config schedule).given.length < 2 ^ 64 - 1) :
    (run config schedule).share id = .blank ∨
      ((run config schedule).share id).Released := by
  refine (share_induction (P := fun d => (∃ delivery, d.Alive id delivery) ∧ d.Released)
    ?_ ?_ schedule (count_given_le config schedule id hgiven)).imp_right fun h => h.2.2
  · intro listener operation payload
    exact ⟨OperationShare.alive_newcomer id listener operation payload,
      OperationShare.released_newcomer id listener operation payload⟩
  · rintro d d' ⟨⟨delivery, alive⟩, h⟩ hone hone' step
    exact ⟨alive.step hone hone' step, h.step alive hone hone' step⟩

/-! ## What every submitter may rely on -/

/-- A submission was taken back after the operation had been given its identifier. -/
def Refused (s : ClientThreads) (id : OperationId) : Prop := ∃ e, .error e ∈ s.answers id

/-- Whatever was queued for an operation has been called, and what the calls announced was published. -/
structure CaughtUp (s : ClientThreads) (id : OperationId) : Prop where
  queue : ∀ delivery, s.client.deliveries.get? id = some delivery → delivery.mailbox.queue = []
  frames : ∀ f ∈ s.frames, f.popped? id = none ∧ f.carries? id = none

/-- How a submission and its operation can end together. -/
structure Submitted (s : ClientThreads) (id : OperationId) : Prop where
  /-- A refused operation is never told an end, and no waiter on it ever learns one. -/
  endless : s.Refused id → finals (s.calls id) = [] ∧ (s.client.cell id).outcome = none
  /-- Its listener is not called at all, as long as no handle was made in the meantime. -/
  silent : s.Refused id → s.client.handles.get? id = none → heard (s.calls id) = []
  /-- Otherwise the listener is given that handle, and nothing after it. -/
  stranded : s.Refused id → s.CaughtUp id →
    ∀ handle, s.client.handles.get? id = some handle →
      heard (s.calls id) = [.prepared handle.result]
  /-- An operation that was not refused leaves the table with an outcome, which every handle knows once
  the callbacks are made. -/
  resolved : id ∈ s.given → ¬ s.Refused id → s.client.pending.get? id = none → s.CaughtUp id →
    ∃ outcome, (s.client.cell id).outcome = some outcome ∧ finals (s.calls id) = [outcome]

/-- Where the callbacks are made, what was queued is what was called. -/
theorem CaughtUp.calls {s : ClientThreads} {id : OperationId} {delivery : Delivery} (h : s.CaughtUp id)
    (alive : (s.share id).Alive id delivery) : s.calls id = s.queued id := by
  have hpopped : (s.frames.filter (Frame.about id)).filterMap (Frame.popped? id) = [] := by
    rw [List.filterMap_eq_nil_iff]
    intro f hf
    exact (h.frames f (List.mem_filter.mp hf).1).1
  have flow : s.queued id = s.calls id ++ _ ++ delivery.mailbox.queue := alive.delivering.flow
  rw [flow, h.queue delivery alive.found, List.append_nil]
  rw [show (s.share id).frames = s.frames.filter (Frame.about id) from rfl, hpopped,
    List.append_nil]

/-- Where the callbacks are made, what they announced is in the cell. -/
theorem CaughtUp.published {s : ClientThreads} {id : OperationId} (h : s.CaughtUp id)
    (accounted : (s.share id).Accounted id) (outcome : Outcome) :
    outcome ∈ finals (s.calls id) ↔ (s.client.cell id).outcome = some outcome := by
  have hcarried : (s.frames.filter (Frame.about id)).filterMap (Frame.carries? id) = [] := by
    rw [List.filterMap_eq_nil_iff]
    intro f hf
    exact (h.frames f (List.mem_filter.mp hf).1).2
  have hpublished := accounted.published outcome
  rw [show (s.share id).frames = s.frames.filter (Frame.about id) from rfl, hcarried] at hpublished
  rw [Client.outcome_cell]
  exact hpublished.trans (or_iff_left (List.not_mem_nil))

/-- An operation that was given its identifier has a share of its own. -/
theorem not_mem_given_of_blank {s : ClientThreads} {id : OperationId} (hblank : s.share id = .blank) :
    id ∉ s.given := by
  have hcount : s.given.count id = 0 := congrArg OperationShare.enlistings hblank
  exact List.count_eq_zero.mp hcount

/-- What is known of an operation that was given its identifier. -/
structure Documented (s : ClientThreads) (id : OperationId) (delivery : Delivery) : Prop where
  alive : (s.share id).Alive id delivery
  accounted : (s.share id).Accounted id
  released : (s.share id).Released
  called : ∃ rest, s.calls id ++ rest = s.queued id

theorem documented (config : Config) (schedule : List Choice) (id : OperationId)
    (hgiven : (run config schedule).given.length < 2 ^ 64 - 1) :
    (run config schedule).share id = .blank ∨
      ∃ delivery, (run config schedule).Documented id delivery := by
  rcases alive_run config schedule id hgiven with hblank | ⟨delivery, alive⟩
  · exact Or.inl hblank
  · have hfound : (run config schedule).share id ≠ .blank := by
      intro hblank
      have hdelivery := alive.found
      rw [hblank] at hdelivery
      contradiction
    exact Or.inr ⟨delivery, alive, (accounted_run config schedule id hgiven).resolve_left hfound,
      (released_run config schedule id hgiven).resolve_left hfound,
      calls_prefix_queued config schedule id hgiven⟩

namespace Documented

variable {s : ClientThreads} {id : OperationId} {delivery : Delivery}

/-- What a refused operation was queued bounds what its listener was told. -/
theorem heard_of_refused (h : s.Documented id delivery) (hrefused : s.Refused id) :
    heard (s.queued id) = [] ∨ ∃ result, heard (s.queued id) = [.prepared result] := by
  obtain ⟨hentry, hfinals⟩ := h.released.gone hrefused
  have life : Life ((s.share id).view.entry.map (·.phase)) (s.queued id) := h.alive.life
  rw [hentry, Option.map_none] at life
  generalize hqueued : s.queued id = queued at life
  have hnone : finals queued = [] := hqueued ▸ hfinals
  cases life with
  | withdrawn h => exact h
  | refused h => simp [finals, Callback.outcome?] at hnone
  | ended h => simp at hnone

theorem endless (h : s.Documented id delivery) (hrefused : s.Refused id) :
    finals (s.calls id) = [] ∧ (s.client.cell id).outcome = none := by
  obtain ⟨hentry, hfinals⟩ := h.released.gone hrefused
  obtain ⟨rest, hrest⟩ := h.called
  have hcalls : finals (s.calls id) = [] := by
    have hsplit : finals (s.calls id) ++ finals rest = [] := by
      rw [← finals_append, hrest]
      exact hfinals
    exact (List.append_eq_nil_iff.mp hsplit).1
  refine ⟨hcalls, ?_⟩
  cases hcell : (s.client.cell id).outcome with
  | none => rfl
  | some outcome =>
    rw [Client.outcome_cell] at hcell
    have hmem : outcome ∈ finals (s.calls id) := (h.accounted.published outcome).mpr (Or.inl hcell)
    rw [hcalls] at hmem
    contradiction

theorem silent (h : s.Documented id delivery) (hrefused : s.Refused id)
    (hhandle : s.client.handles.get? id = none) : heard (s.calls id) = [] := by
  obtain ⟨rest, hrest⟩ := h.called
  have hqueued : heard (s.queued id) = [] := by
    refine (h.heard_of_refused hrefused).resolve_right ?_
    rintro ⟨result, hresult⟩
    have hmem : .prepared result ∈ heard (s.queued id) := by
      rw [hresult]
      exact List.mem_singleton_self _
    exact h.accounted.handed result (List.mem_filter.mp hmem).1 hhandle
  have hsplit : heard (s.calls id) ++ heard rest = [] := by
    rw [← heard_append, hrest]
    exact hqueued
  exact (List.append_eq_nil_iff.mp hsplit).1

theorem stranded (h : s.Documented id delivery) (hrefused : s.Refused id) (hcaught : s.CaughtUp id)
    {handle : LiveHandle} (hhandle : s.client.handles.get? id = some handle) :
    heard (s.calls id) = [.prepared handle.result] := by
  rw [hcaught.calls h.alive]
  have hmem : .prepared handle.result ∈ heard (s.queued id) :=
    List.mem_filter.mpr ⟨h.released.granted handle hhandle, rfl⟩
  rcases h.heard_of_refused hrefused with hnil | ⟨result, hresult⟩
  · rw [hnil] at hmem
    contradiction
  · rw [hresult, List.mem_singleton] at hmem
    rw [hresult, hmem]

theorem resolved (h : s.Documented id delivery) (hunrefused : ¬ s.Refused id)
    (hentry : s.client.pending.get? id = none) (hcaught : s.CaughtUp id) :
    ∃ outcome, (s.client.cell id).outcome = some outcome ∧ finals (s.calls id) = [outcome] := by
  have stands : Stands none (s.standing id) (finals (s.queued id)) := by
    have hstands := h.accounted.stands.resolve_left hunrefused
    rw [show (s.share id).view.entry = none from hentry] at hstands
    exact hstands
  have hcalls := hcaught.calls h.alive
  generalize hended : finals (s.queued id) = ended at stands
  generalize s.standing id = standing at stands
  cases stands with
  | @ended outcome =>
    have hfinals : finals (s.calls id) = [outcome] := by rw [hcalls, hended]
    refine ⟨outcome, (hcaught.published h.accounted outcome).mp ?_, hfinals⟩
    rw [hfinals]
    exact List.mem_singleton_self _

end Documented

/-- **A submission that is refused leaves its listener alone, unless the operation was prepared before
the refusal was known; every other operation ends for its listener and for all handles alike.** -/
theorem submitted (config : Config) (schedule : List Choice) (id : OperationId)
    (hgiven : (run config schedule).given.length < 2 ^ 64 - 1) :
    (run config schedule).Submitted id := by
  rcases documented config schedule id hgiven with hblank | ⟨delivery, h⟩
  · have hanswers : (run config schedule).answers id = [] := congrArg OperationShare.answers hblank
    have hunrefused : ¬ (run config schedule).Refused id := by
      rintro ⟨e, he⟩
      rw [hanswers] at he
      contradiction
    exact ⟨fun hrefused => absurd hrefused hunrefused, fun hrefused => absurd hrefused hunrefused,
      fun hrefused => absurd hrefused hunrefused,
      fun hmember => absurd hmember (not_mem_given_of_blank hblank)⟩
  · exact ⟨h.endless, h.silent, fun hrefused hcaught handle => h.stranded hrefused hcaught,
      fun _ => h.resolved⟩

/-! ## The case that is set apart -/

/-- A channel that delivers the news that the operation is prepared before it refuses the submission. -/
def race : List Choice :=
  [.join, .ask 0 (.submit true (.recorder "") ⟨.undefined, [], .discard⟩), .move 0, .move 0, .move 0,
    .move 0, .answer 0 .returned, .move 0,
    .ask 0 (.deliver (.prepared ⟨1⟩ .undefined)), .move 0, .move 0, .move 0, .move 0,
    .answer 0 .returned, .move 0, .move 0, .answer 0 .returned, .move 0, .move 0,
    .answer 0 (.sent (.error .closed)), .move 0]

theorem refused_race : (run {} race).Refused ⟨1⟩ := by
  have hany : ((run {} race).answers ⟨1⟩).any (fun answer => answer.toOption.isNone) = true := by
    decide +kernel
  obtain ⟨answer, hmem, hanswer⟩ := List.any_eq_true.mp hany
  rcases answer with e | i
  · exact ⟨e, hmem⟩
  · contradiction

theorem caughtUp_race : (run {} race).CaughtUp ⟨1⟩ where
  queue := by
    have hall : (((run {} race).client.deliveries.get? ⟨1⟩).all fun delivery =>
        delivery.mailbox.queue.isEmpty) = true := by decide +kernel
    intro delivery hdelivery
    rw [hdelivery] at hall
    exact List.isEmpty_iff.mp hall
  frames := by
    have hnone : (run {} race).frames.isEmpty = true := by decide +kernel
    intro f hf
    rw [List.isEmpty_iff.mp hnone] at hf
    contradiction

/-- **A refused submission can leave its listener with a handle that never learns an outcome.** The
operation is pending no more, every callback was made, and the last of them said that it is prepared. -/
theorem refused_while_prepared :
    (run {} race).Refused ⟨1⟩ ∧ (run {} race).CaughtUp ⟨1⟩ ∧
      (run {} race).client.pending.get? ⟨1⟩ = none ∧
      ((run {} race).client.handles.get? ⟨1⟩).isSome = true ∧
      (heard ((run {} race).calls ⟨1⟩)).length = 1 ∧
      ((run {} race).client.cell ⟨1⟩).outcome = none := by
  have hpending : ((run {} race).client.pending.get? ⟨1⟩).isNone = true := by decide +kernel
  have hcell : ((run {} race).client.cell ⟨1⟩).outcome.isNone = true := by decide +kernel
  exact ⟨refused_race, caughtUp_race, Option.isNone_iff_eq_none.mp hpending, by decide +kernel,
    by decide +kernel, Option.isNone_iff_eq_none.mp hcell⟩

theorem submitted_of_race :
    (run {} race).given.length < 2 ^ 64 - 1 ∧ (run {} race).Submitted ⟨1⟩ := by
  have hgiven : (run {} race).given.length < 2 ^ 64 - 1 := by decide +kernel
  exact ⟨hgiven, submitted {} race ⟨1⟩ hgiven⟩

end ClientThreads

end TwoPhase
