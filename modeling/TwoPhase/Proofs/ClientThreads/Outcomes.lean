import TwoPhase.Proofs.ClientThreads.Sends
/-
How an operation ends, under every interleaving.

An operation can end on four ways: it is completed, it fails, its decision cannot be sent, or a sweep
takes it. On each of them it must leave the table, be owed exactly one last callback, and have the
outcome of that callback published. `Stands` ties the entry in the table to what has reached the
operation and to the last callbacks that were queued; the outcome of a last callback that has begun is
either published or on a frame that will publish it. Where no frame is left nothing is on its way, so
the listener and the cell agree.
-/

set_option autoImplicit false

namespace TwoPhase

open Client (Task Frame Upcall Answer Event Cause)

/-! ## Outcomes and where they are -/

/-- The outcomes that callbacks announce. -/
def finals (callbacks : List Callback) : List Outcome := callbacks.filterMap Callback.outcome?

@[simp] theorem finals_nil : finals [] = [] := rfl

@[simp] theorem finals_append (first second : List Callback) :
    finals (first ++ second) = finals first ++ finals second := List.filterMap_append ..

@[simp] theorem finals_callback (outcome : Outcome) : finals [outcome.callback] = [outcome] := by
  cases outcome <;> rfl

@[simp] theorem finals_prepared (result : Value) : finals [.prepared result] = [] := rfl

@[simp] theorem finals_report (severity : Severity) (text : String) :
    finals [.report severity text] = [] := rfl

/-- The outcome that an operation sees published. -/
def View.outcome (v : View) : Option Outcome := v.delivery.bind (·.outcome.outcome)

namespace Client

/-- What the outcome cell of an operation holds is part of its view. -/
theorem outcome_cell (c : Client) (id : OperationId) :
    (c.cell id).outcome = (c.view id).outcome := by
  cases hdelivery : c.deliveries.get? id <;>
    simp [cell, view, View.outcome, hdelivery, OutcomeCell.vacant]

/-- The outcome that a frame carries: it belongs to a callback that has begun and is not published. -/
def Frame.carries? (id : OperationId) : Frame → Option Outcome
  | .inside (.notify i callback) | .todo (.called i callback _) =>
    if i = id then callback.outcome? else none
  | .todo (.resolve i outcome) => if i = id then some outcome else none
  | _ => none

/-- Whether a frame belongs to a submission whose end its caller has not learned yet. -/
def Frame.submits (id : OperationId) : Frame → Bool
  | .todo (.raise u) | .inside u => u.executes id
  | .todo (.submissionSent i _) => i = id
  | _ => false

end Client

/-- How the entry of an operation, where it stands and the last callbacks that were queued for it
belong together, unless its submission was taken back. -/
inductive Stands : Option Pending → Option Standing → List Outcome → Prop
  | submitted {entry : Pending} (hphase : entry.phase = .submitted) :
      Stands (some entry) (some .submitted) []
  | prepared {entry : Pending} (hphase : entry.phase = .prepared) :
      Stands (some entry) (some .prepared) []
  | ended {outcome : Outcome} : Stands none (some (.ended outcome)) [outcome]

/-- The books on the end of an operation that exists. -/
structure OperationShare.Accounted (id : OperationId) (d : OperationShare) : Prop where
  /-- Its submitter is told once how that went. -/
  answered : d.frames.countP (Frame.submits id) + d.answers.length = 1
  /-- The submission was taken back, or the operation stands as its entry says. -/
  stands : (∃ e, .error e ∈ d.answers) ∨ Stands d.view.entry d.standing (finals d.queued)
  /-- The outcome of a last callback that has begun is published, or carried by a frame. -/
  published : ∀ outcome, outcome ∈ finals (d.turns.filterMap Turn.begun?) ↔
    d.view.outcome = some outcome ∨ outcome ∈ d.frames.filterMap (Frame.carries? id)
  /-- Whoever is to be told that it is prepared is to be handed something. -/
  handed : ∀ result, .prepared result ∈ d.queued → d.view.handle ≠ none

/-! ## What one move does to the books -/

@[simp] theorem View.outcome_post (v : View) (callback : Callback) :
    (v.post callback).outcome = v.outcome := by
  cases hdelivery : v.delivery <;> simp [View.post, View.outcome, hdelivery]

@[simp] theorem View.entry_post (v : View) (callback : Callback) :
    (v.post callback).entry = v.entry := rfl

/-- A deliverer carries no outcome. -/
theorem silent_drainIf (id : OperationId) (owed : Bool) :
    (Client.drainIf id owed).countP (Frame.submits id) = 0 ∧
      (Client.drainIf id owed).filterMap (Frame.carries? id) = [] := by
  cases owed <;> simp [Client.drainIf, Frame.submits, Frame.carries?]

/-- A submission that is under way stays under way, until its submitter is told. -/
theorem Touch.submits {id : OperationId} {v v' : View} {t : Task} {y : Yield}
    (touch : Touch id v t v' y) (hknown : y.enlisted = false) :
    y.frames.countP (Frame.submits id) + y.answers.length =
      (heldFor id t).countP (Frame.submits id) := by
  cases touch with
  | enlisted => contradiction
  | aside hframe hcause =>
    have hheld : heldFor id t = [] := List.filter_cons_of_neg (Bool.eq_false_iff.mp hframe)
    simp [hheld]
  | accepted | finished | reported | swept =>
    simp [heldFor, Frame.about, (silent_drainIf id v.owed).1]
  | @claimed entry d hentry hphase hdecision =>
    cases d <;> simp [heldFor, Frame.about, Frame.submits, Upcall.executes, Outbound.decide]
  | @called callback panicked =>
    cases callback.outcome? <;> simp [heldFor, Frame.about, Frame.submits]
  | @subscribed delivery tag hdelivery =>
    cases (delivery.outcome.subscribe tag).2 <;>
      simp [heldFor, Frame.about, Frame.submits, Upcall.executes]
  | resolved hdelivery =>
    simp [heldFor, Frame.about, Frame.submits, Upcall.executes, Function.comp_def]
  | @raised u hu =>
    have hheld : heldFor id (.raise u) = [.todo (.raise u)] := List.filter_cons_of_pos hu
    by_cases hsend : u.executes id = true <;> simp [hheld, Frame.submits, hsend]
  | _ => simp [heldFor, Frame.about, Frame.submits, Upcall.executes]

/-- Where there is one outcome at most, whatever a move has in hand or begins is afterwards published
or still carried. -/
theorem Touch.publishes {id : OperationId} {v v' : View} {t : Task} {y : Yield}
    (touch : Touch id v t v' y) (hknown : y.enlisted = false) (hfound : v.delivery ≠ none)
    (hone : ∀ first second, v.outcome = some first →
      second ∈ (heldFor id t).filterMap (Frame.carries? id) → first = second) (outcome : Outcome) :
    (v'.outcome = some outcome ∨ outcome ∈ y.frames.filterMap (Frame.carries? id)) ↔
      (v.outcome = some outcome ∨ outcome ∈ (heldFor id t).filterMap (Frame.carries? id)) ∨
        outcome ∈ finals (y.began.filterMap Upcall.callback?) := by
  cases touch with
  | enlisted => contradiction
  | aside hframe hcause =>
    have hheld : heldFor id t = [] := List.filter_cons_of_neg (Bool.eq_false_iff.mp hframe)
    simp [hheld]
  | @accepted entry result hentry hphase =>
    have hsame : (View.outcome ⟨some { entry with phase := .prepared }, v.delivery,
      some ⟨result, false⟩⟩) = v.outcome := rfl
    simp [heldFor, Frame.about, Frame.carries?, (silent_drainIf id v.owed).2, hsame]
  | finished | swept =>
    have hsame : View.outcome { v with entry := none } = v.outcome := rfl
    simp [heldFor, Frame.about, Frame.carries?, (silent_drainIf id v.owed).2, hsame]
  | reported hentry =>
    simp [heldFor, Frame.about, Frame.carries?, (silent_drainIf id v.owed).2]
  | @claimed entry d hentry hphase hdecision =>
    cases d <;> simp [heldFor, Frame.about, Frame.carries?, View.outcome]
  | @called callback panicked =>
    cases houtcome : callback.outcome? <;>
      simp [heldFor, Frame.about, Frame.carries?, houtcome]
  | @released delivery hdelivery hqueue =>
    simp [heldFor, Frame.about, Frame.carries?, View.outcome, hdelivery]
  | @popped delivery callback rest hdelivery hqueue =>
    simp [heldFor, Frame.about, Frame.carries?, View.outcome, hdelivery]
  | @resolved delivery ended hdelivery =>
    have hheld : heldFor id (.resolve id ended) = [.todo (.resolve id ended)] := by
      simp [heldFor, Frame.about]
    have hbefore : v.outcome = delivery.outcome.outcome := by rw [View.outcome, hdelivery]; rfl
    -- the cell takes the outcome in, or has it already, since there is only one
    have hafter : View.outcome { v with delivery := some { delivery with
        outcome := (delivery.outcome.resolve ended).1 } } = some ended := by
      rw [View.outcome, Option.bind_some, OutcomeCell.resolve]
      split
      · rename_i known hcell
        rw [hcell, hone known ended (hbefore.trans hcell) (by simp [hheld, Frame.carries?])]
      · rfl
    have hcell : v.outcome = some outcome → ended = outcome := fun h =>
      (hone outcome ended h (by simp [hheld, Frame.carries?])).symm
    rw [hafter]
    simp [hheld, Frame.carries?, Function.comp_def]
    grind
  | unresolved hdelivery => exact absurd hdelivery hfound
  | @subscribed delivery tag hdelivery =>
    have hcell : (delivery.outcome.subscribe tag).1.outcome = delivery.outcome.outcome := by
      rw [OutcomeCell.subscribe]
      split <;> simp_all
    cases (delivery.outcome.subscribe tag).2 <;>
      simp [heldFor, Frame.about, Frame.carries?, View.outcome, hdelivery, hcell]
  | @raised u hu =>
    have hheld : heldFor id (.raise u) = [.todo (.raise u)] := List.filter_cons_of_pos hu
    cases u with
    | notify i callback =>
      obtain rfl : i = id := of_decide_eq_true hu
      simp [hheld, Frame.carries?, Upcall.callback?, finals]
    | _ => simp [hheld, Frame.carries?, Upcall.callback?, List.filterMap_cons]
  | _ => simp [heldFor, Frame.about, Frame.carries?, View.outcome]

/-- A cause that is refused leaves an operation where it stands. -/
theorem Stands.refuse {v : View} {standing : Option Standing} {ended : List Outcome}
    (h : Stands v.entry standing ended) {cause : Cause} (hcause : v.Refuses cause) :
    standing.map (·.after cause) = standing := by
  generalize hentry : v.entry = entry at h
  cases h with
  | @submitted entry hphase =>
    cases cause with
    | prepared result =>
      have hrefused := hcause entry hentry
      rw [hphase] at hrefused
      contradiction
    | ended outcome =>
      have hrefused := hcause entry hentry
      rw [hphase] at hrefused
      cases outcome with
      | completed result => rfl
      | failed f => contradiction
  | @prepared entry hphase =>
    cases cause with
    | prepared result => rfl
    | ended outcome =>
      have hrefused := hcause entry hentry
      rw [hphase] at hrefused
      cases outcome <;> contradiction
  | ended => rfl

/-- An operation stands where its entry says, or it ended as the last callback says. -/
theorem Stands.finish {entry : Pending} {standing : Option Standing} {ended : List Outcome}
    (h : Stands (some entry) standing ended) {outcome : Outcome}
    (hallows : entry.phase.allows (Client.finalPhase outcome) = true) :
    Stands none (standing.map (·.after (.ended outcome))) (ended ++ [outcome]) := by
  cases h with
  | submitted hphase =>
    rw [hphase] at hallows
    cases outcome with
    | completed result => contradiction
    | failed f => exact .ended
  | prepared hphase => exact .ended

/-- An operation ends at most once. -/
theorem Stands.length_le {entry : Option Pending} {standing : Option Standing}
    {ended : List Outcome} (h : Stands entry standing ended) : ended.length ≤ 1 := by
  cases h <;> simp

/-- An operation has ended as soon as it is not pending any more. -/
theorem Stands.ended_iff {entry : Option Pending} {standing : Option Standing}
    {ended : List Outcome} (h : Stands entry standing ended) : ended ≠ [] ↔ entry = none := by
  cases h <;> simp

/-- It has ended as its standing says. -/
theorem Stands.mem_iff {entry : Option Pending} {standing : Option Standing}
    {ended : List Outcome} (h : Stands entry standing ended) (outcome : Outcome) :
    outcome ∈ ended ↔ standing = some (.ended outcome) := by
  cases h <;> simp [eq_comm]

/-- What is pending can still fail. -/
theorem Stands.allows_failed {entry : Pending} {standing : Option Standing} {ended : List Outcome}
    (h : Stands (some entry) standing ended) : entry.phase.allows .failed = true := by
  cases h with
  | submitted hphase | prepared hphase =>
    rw [hphase]
    rfl

/-- A move takes an operation along with its standing, or takes its submission back. -/
theorem Touch.stands {id : OperationId} {v v' : View} {t : Task} {y : Yield}
    (touch : Touch id v t v' y) (hknown : y.enlisted = false) {standing : Option Standing}
    {ended : List Outcome} (h : Stands v.entry standing ended) :
    (∃ e, .error e ∈ y.answers) ∨
      Stands v'.entry (Standing.next id standing t y.enlisted) (ended ++ finals y.queued) := by
  cases touch with
  | enlisted => contradiction
  | withdrawn hentry => exact Or.inl ⟨_, List.mem_singleton_self _⟩
  | aside hframe hcause =>
    refine Or.inr ?_
    -- a cause that comes to nothing was refused
    rw [finals_nil, List.append_nil, Standing.next]
    cases hof : t.cause? id with
    | none => simpa [hof] using h
    | some cause => simpa [hof, h.refuse (hcause cause hof)] using h
  | @accepted entry result hentry hphase =>
    refine Or.inr ?_
    rw [hentry] at h
    cases h with
    | submitted _ => simpa [Standing.next, Task.cause?, Standing.after] using Stands.prepared rfl
    | prepared hprepared => cases hphase.symm.trans hprepared
  | @finished entry outcome kind hentry hallows =>
    refine Or.inr ?_
    rw [hentry] at h
    simpa [Standing.next, Task.cause?] using h.finish hallows
  | @swept entry hentry =>
    refine Or.inr ?_
    rw [hentry] at h
    exact @Stands.finish _ _ _ h (.failed .channelClosed) h.allows_failed
  | @reported entry severity text hentry =>
    exact Or.inr (by simpa [Standing.next, Task.cause?] using h)
  | @claimed entry d hentry hphase hdecision =>
    refine Or.inr ?_
    rw [hentry] at h
    cases h with
    | submitted hsubmitted => cases hphase.symm.trans hsubmitted
    | prepared _ =>
      have hstill : Stands (some { entry with decision := some d }) (some .prepared) [] :=
        .prepared hphase
      simpa [Standing.next, Task.cause?] using hstill
  | _ => exact Or.inr (by simpa [Standing.next, Task.cause?] using h)

/-! ## Every schedule -/

namespace OperationShare

/-- An operation that was just enlisted is submitted, and nobody was told of an end. -/
theorem accounted_newcomer (id : OperationId) (listener : Listener) (operation : Operation)
    (payload : List UInt8) : Accounted id (newcomer id listener operation payload) where
  answered := by simp [newcomer, Frame.submits, Upcall.executes]
  stands := Or.inr (.submitted rfl)
  published := by simp [newcomer, View.outcome, OutcomeCell.vacant, Frame.carries?]
  handed := by simp [newcomer]

/-- Ends are for the listener, so leaving reports out makes no difference. -/
theorem finals_heard (callbacks : List Callback) : finals (heard callbacks) = finals callbacks := by
  induction callbacks with
  | nil => rfl
  | cons callback rest ih =>
    rw [← List.singleton_append, heard_append, finals_append, finals_append, ih]
    cases callback <;> rfl

/-- The listener is told of at most one end. -/
theorem length_finals_le {phase : Option Phase} {queued : List Callback} (h : Life phase queued) :
    (finals queued).length ≤ 1 := by
  rw [← finals_heard]
  cases h with
  | submitted h => simp [h]
  | prepared h => simp [h]
  | withdrawn h => rcases h with h | ⟨result, h⟩ <;> simp [h]
  | refused h => simp [h, finals, Callback.outcome?]
  | ended h =>
    rw [heard_append, h, heard_callback, finals_append, finals_prepared, finals_callback]
    exact Nat.le_refl _

/-- Foreign code that answers leaves as much of a submission as there was, and carries on what it
carried. -/
theorem books_resume (id : OperationId) {u : Upcall} {frames : List Frame} (h : u.Resumes frames) :
    frames.countP (Frame.submits id) = [Frame.inside u].countP (Frame.submits id) ∧
      frames.filterMap (Frame.carries? id) = [Frame.inside u].filterMap (Frame.carries? id) := by
  cases h with
  | @decided i d result => cases d <;> exact ⟨rfl, rfl⟩
  | _ => exact ⟨rfl, rfl⟩

/-- A move hands out handles, and takes none back. -/
theorem handed_move {id : OperationId} {v v' : View} {t : Task} {y : Yield}
    (touch : Touch id v t v' y) {result : Value} (h : v.handle ≠ none ∨ .prepared result ∈ y.queued) :
    v'.handle ≠ none := by
  cases touch with
  | @finished entry outcome kind hentry hallows =>
    cases outcome <;> simpa [View.post, Outcome.callback] using h
  | _ => simp_all [View.post]

/-- A step that concerns an operation keeps its account: where it stands, what its listener is told and
what its handle knows go together. -/
theorem Accounted.step {id : OperationId} {d d' : OperationShare} {delivery : Delivery}
    (h : Accounted id d) (alive : Alive id d delivery) (hone : d.enlistings = 1)
    (hone' : d'.enlistings = 1) (step : Step id d d') : Accounted id d' := by
  obtain ⟨answered, stands, published, handed⟩ := h
  obtain ⟨found, delivering, life⟩ := alive
  cases step with
  | @answered v before after n queued begun turns answers standing u a hu =>
    obtain ⟨hsubmits, hcarries⟩ := books_resume id (u.resumes a)
    simp only [List.countP_append, List.filterMap_append] at answered published
    refine ⟨?_, stands, fun outcome => ?_, handed⟩
    · simp only [List.countP_append]
      omega
    · have hended : (u.callback?.map Turn.ended).toList.filterMap Turn.begun? = [] := by
        cases u.callback? <;> rfl
      simp only [List.filterMap_append, hended, List.append_nil, hcarries]
      exact published outcome
  | @moved v v' t y before after n queued begun turns answers standing touch hroom =>
    have hknown : y.enlisted = false := unenlisted hone hone'
    have found : v.delivery = some delivery := found
    have hsubmits := touch.submits hknown
    have hbegun : ((y.began.filterMap Upcall.callback?).map Turn.began).filterMap Turn.begun? =
        y.began.filterMap Upcall.callback? := by
      rw [List.filterMap_map]
      exact List.filterMap_some
    -- what has begun was queued, and among what was queued there is one outcome at most
    have hle : (finals (turns.filterMap Turn.begun?)).length ≤ 1 := by
      have hqueued : (finals queued).length ≤ 1 := length_finals_le life
      have flow : queued = turns.filterMap Turn.begun? ++ _ ++ _ := delivering.flow
      rw [flow, finals_append, finals_append, List.length_append, List.length_append] at hqueued
      omega
    simp only [List.countP_append, List.filterMap_append, List.mem_append] at answered published
    refine ⟨?_, ?_, fun outcome => ?_, fun result hresult => ?_⟩
    · simp only [List.countP_append, List.length_append]
      omega
    · rcases stands with ⟨e, he⟩ | stands
      · exact Or.inl ⟨e, List.mem_append_left _ he⟩
      · rcases touch.stands hknown stands with ⟨e, he⟩ | hstands
        · exact Or.inl ⟨e, List.mem_append_right _ he⟩
        · refine Or.inr ?_
          rw [finals_append]
          exact hstands
    · have hpublishes := touch.publishes hknown (by simp [found]) (fun first second hfirst hsecond =>
        eq_of_length_le_one hle ((published first).mpr (Or.inl hfirst))
          ((published second).mpr (Or.inr (Or.inl (Or.inr hsecond))))) outcome
      simp only [List.filterMap_append, hbegun, finals_append, List.mem_append, published]
      clear * - hpublishes
      grind
    · rcases List.mem_append.mp hresult with hold | hnew
      · have hhandle : v.handle ≠ none := handed result hold
        exact @handed_move id v v' t y touch result (Or.inl hhandle)
      · exact handed_move touch (Or.inr hnew)

end OperationShare

/-- After every schedule the account of an operation is in order, if it was given at all. -/
theorem ClientThreads.accounted_run (config : Config) (schedule : List Choice) (id : OperationId)
    (hgiven : (run config schedule).given.length < 2 ^ 64 - 1) :
    (run config schedule).share id = .blank ∨
      ((run config schedule).share id).Accounted id := by
  refine (share_induction (P := fun d => (∃ delivery, d.Alive id delivery) ∧ d.Accounted id)
    ?_ ?_ schedule (count_given_le config schedule id hgiven)).imp_right fun h => h.2.2
  · intro listener operation payload
    exact ⟨OperationShare.alive_newcomer id listener operation payload,
      OperationShare.accounted_newcomer id listener operation payload⟩
  · rintro d d' ⟨⟨delivery, alive⟩, h⟩ hone hone' step
    exact ⟨alive.step hone hone' step, h.step alive hone hone' step⟩

/-- **Whoever is being told that an operation is prepared has a handle of it.** -/
theorem ClientThreads.handed_run (config : Config) (schedule : List Choice) (id : OperationId)
    (hgiven : (run config schedule).given.length < 2 ^ 64 - 1) {result : Value}
    (hframe : .todo (.raise (.notify id (.prepared result))) ∈ (run config schedule).frames) :
    (run config schedule).client.handles.get? id ≠ none := by
  have hmem : .todo (.raise (.notify id (.prepared result))) ∈
      ((run config schedule).share id).frames :=
    List.mem_filter.mpr ⟨hframe, by simp [Frame.about, Upcall.about]⟩
  have hblank : (run config schedule).share id ≠ .blank := fun hblank => by
    rw [hblank] at hmem
    contradiction
  have accounted := (accounted_run config schedule id hgiven).resolve_left hblank
  obtain ⟨delivery, alive⟩ := (alive_run config schedule id hgiven).resolve_left hblank
  -- it was queued, and is on its way
  refine accounted.handed result ?_
  rw [alive.delivering.flow]
  refine List.mem_append_left _ (List.mem_append_right _ ?_)
  exact List.mem_filterMap.mpr ⟨_, hmem, by simp [Frame.popped?]⟩

/-- Where no frame is left, nothing waits in the mailbox. -/
theorem OperationShare.Alive.queue_of_quiet {id : OperationId} {d : OperationShare} {delivery : Delivery}
    (h : d.Alive id delivery) (hquiet : d.frames = []) : delivery.mailbox.queue = [] := by
  obtain ⟨flow, token, idle, busy, turned⟩ := h.delivering
  rw [hquiet] at token
  -- where nobody delivers the mailbox is idle, and so it is empty
  refine idle (Bool.eq_false_iff.mpr fun hdelivering => ?_)
  rw [if_pos hdelivering] at token
  contradiction

/-- Where no frame is left, whatever was queued has been called. -/
theorem OperationShare.Alive.calls_of_quiet {id : OperationId} {d : OperationShare} {delivery : Delivery}
    (h : d.Alive id delivery) (hquiet : d.frames = []) :
    d.turns.filterMap Turn.begun? = d.queued := by
  have flow := h.delivering.flow
  rw [hquiet, h.queue_of_quiet hquiet, List.filterMap_nil, List.append_nil, List.append_nil] at flow
  exact flow.symm

/-- Where no frame is left, an end that was queued is published. -/
theorem OperationShare.Accounted.told {id : OperationId} {d : OperationShare} {delivery : Delivery}
    (h : d.Accounted id) (alive : d.Alive id delivery) (hquiet : d.frames = []) {outcome : Outcome}
    (hqueued : outcome ∈ finals d.queued) : d.view.outcome = some outcome := by
  rw [← alive.calls_of_quiet hquiet] at hqueued
  rcases (h.published outcome).mp hqueued with hpublished | hcarried
  · exact hpublished
  · rw [hquiet] at hcarried
    contradiction

/-- An end that was queued for an operation without frames is published. -/
theorem ClientThreads.told_of_quiet (config : Config) (schedule : List Choice) (id : OperationId)
    (hgiven : (run config schedule).given.length < 2 ^ 64 - 1)
    (hquiet : (run config schedule).frames.filter (Frame.about id) = []) {outcome : Outcome}
    (hqueued : outcome ∈ finals ((run config schedule).queued id)) :
    ((run config schedule).client.cell id).outcome = some outcome := by
  have hblank : (run config schedule).share id ≠ .blank := fun hblank => by
    have hnone : (run config schedule).queued id = [] := congrArg OperationShare.queued hblank
    rw [hnone] at hqueued
    contradiction
  have accounted := (accounted_run config schedule id hgiven).resolve_left hblank
  obtain ⟨delivery, alive⟩ := (alive_run config schedule id hgiven).resolve_left hblank
  rw [Client.outcome_cell]
  exact accounted.told alive hquiet hqueued

/-- **Where no frame is left, the listener and the cell agree**: an operation whose submitter was told
that it was taken is pending, and neither has heard of an end, or it has ended, and both have heard of
that end, the listener once. -/
theorem ClientThreads.settled_of_quiet (config : Config) (schedule : List Choice) (id : OperationId)
    (hgiven : (run config schedule).given.length < 2 ^ 64 - 1)
    (hok : .ok id ∈ (run config schedule).answers id)
    (hquiet : (run config schedule).frames.filter (Frame.about id) = []) :
    Stands ((run config schedule).client.pending.get? id) ((run config schedule).standing id)
        (finals ((run config schedule).calls id)) ∧
      finals ((run config schedule).calls id) =
        ((run config schedule).client.cell id).outcome.toList := by
  rcases accounted_run config schedule id hgiven with hblank | ⟨answered, stands, published, handed⟩
  · have hanswers : (run config schedule).answers id = [] := congrArg OperationShare.answers hblank
    rw [hanswers] at hok
    contradiction
  rcases alive_run config schedule id hgiven with hblank | ⟨delivery, alive⟩
  · have hanswers : (run config schedule).answers id = [] := congrArg OperationShare.answers hblank
    rw [hanswers] at hok
    contradiction
  have hcalls : (run config schedule).calls id = (run config schedule).queued id :=
    alive.calls_of_quiet hquiet
  have hframes : ((run config schedule).share id).frames = [] := hquiet
  rw [hframes] at answered published
  have hone : ((run config schedule).answers id).length ≤ 1 := by
    have hlength : 0 + ((run config schedule).answers id).length = 1 := answered
    omega
  -- it was told that it was taken, and nothing else
  have stands : Stands ((run config schedule).client.pending.get? id)
      ((run config schedule).standing id) (finals ((run config schedule).calls id)) := by
    rw [hcalls]
    refine stands.resolve_left ?_
    rintro ⟨e, he⟩
    cases eq_of_length_le_one hone hok he
  refine ⟨stands, ?_⟩
  have hpublished (outcome : Outcome) : outcome ∈ finals ((run config schedule).calls id) ↔
      ((run config schedule).client.cell id).outcome = some outcome := by
    rw [Client.outcome_cell]
    exact (published outcome).trans (or_iff_left (fun h => by contradiction))
  -- of two lists with one item at most it is enough to compare the items
  have hle := stands.length_le
  generalize finals ((run config schedule).calls id) = ended at hle hpublished
  rcases ended with _ | ⟨outcome, _ | ⟨second, rest⟩⟩
  · cases hcell : ((run config schedule).client.cell id).outcome with
    | none => rfl
    | some outcome => cases (hpublished outcome).mpr hcell
  · rw [(hpublished outcome).mp List.mem_cons_self]
    rfl
  · exact absurd hle (by simp)

/-! ## After the close -/

/-- No move makes an operation pending but the one that enlists it. -/
theorem Touch.pending {id : OperationId} {v v' : View} {t : Task} {y : Yield}
    (touch : Touch id v t v' y) (h : v'.entry ≠ none) : v.entry ≠ none ∨ y.enlisted = true := by
  cases touch with
  | enlisted listener operation payload => exact Or.inr rfl
  | withdrawn hentry => exact absurd rfl h
  | claimed hentry hphase hdecision => exact Or.inl (by simp [hentry])
  | accepted hentry hphase => exact Or.inl (by simp [hentry])
  | finished hentry hallows => exact absurd rfl h
  | reported hentry => exact Or.inl (by simp [hentry])
  | swept hentry => exact absurd rfl h
  | _ => exact Or.inl h

/-- **Once the table was swept it stays empty.** -/
theorem ClientThreads.closed_run (config : Config) (schedule : List Choice) :
    ((∃ shown, .moved .sweep shown ∈ (run config schedule).past) →
        (run config schedule).client.closed = true) ∧
      ((run config schedule).client.closed = true →
        ∀ id, (run config schedule).client.pending.get? id = none) := by
  refine run_induction (P := fun s => ((∃ shown, .moved .sweep shown ∈ s.past) →
    s.client.closed = true) ∧ (s.client.closed = true → ∀ id, s.client.pending.get? id = none))
    ⟨by simp [fresh], fun _ _ => rfl⟩ (fun s s' h step => ?_) schedule
  cases step with
  | join => exact h
  | ask r haway => exact h
  | answer u a =>
    refine ⟨?_, h.2⟩
    rintro ⟨shown, hshown⟩
    exact h.1 ⟨shown, by simpa using hshown⟩
  | @move c past before after rest t =>
    obtain ⟨hswept, hempty⟩ := h
    have hclosed := (c.header_perform t).2
    refine ⟨?_, fun hclosed' id => ?_⟩
    · rintro ⟨shown, hshown⟩
      rcases List.mem_append.mp hshown with hold | hnew
      · have hbefore : c.closed = true := hswept ⟨shown, hold⟩
        simp [hclosed, hbefore]
      · obtain ⟨rfl, -⟩ : t = .sweep ∧ _ := by simpa [Client.marks, eq_comm] using hnew
        simp [hclosed, Task.sweeps]
    · by_cases hsweep : t = .sweep
      · obtain ⟨deliveries, hframe⟩ := c.sweep_frame
        simp [hsweep, Client.perform, hframe]
      · have hbefore : c.closed = true := by
          have hnot : t.sweeps = false := by cases t <;> first | rfl | exact absurd rfl hsweep
          simpa [hclosed, hnot] using hclosed'
        by_contra hpending
        rcases (c.perform_touch id t).pending hpending with hentry | henlisted
        · exact hentry (hempty hbefore id)
        · -- a closed table takes nothing in
          have hallots : c.allots t = some id := by simpa [Client.yield] using henlisted
          cases t <;> simp [Client.allots, hbefore] at hallots

end TwoPhase
