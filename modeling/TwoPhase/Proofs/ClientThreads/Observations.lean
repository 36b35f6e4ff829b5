import TwoPhase.Proofs.ClientThreads.Touch
/-
What one move of a client can do to what is observed of an operation.

An observation is first due, on the stack of the thread whose move gave rise to it, and then told; the
lock is free in between. A decision that was taken down is on an errand: to the channel, and once the
channel has answered, to the observer. `ObservationStep` lists everything that a move can do to the entry
of an operation, to what is due about it and to its errands, and `perform_observation` says that the list
is complete. How far a message came and what was sent besides is left out, which `Touch` has.
-/

set_option autoImplicit false

namespace TwoPhase

open Client (Task Frame Upcall Answer Event)

/-! ## What is told about an operation -/

/-- The operation that an observation is about. -/
def Observation.id? : Observation → Option OperationId
  | submitted id | prepared id | decisionSent id _ | completed id | failed id _ => some id
  | violation (.unknownOperation id _) | violation (.completedBeforePrepared id) => some id
  | channelClosed _ => none

/-- The decision of an operation that an observation says was sent. -/
def Observation.decisionOf? (id : OperationId) : Observation → Option Decision
  | decisionSent i d => if i = id then some d else none
  | _ => none

/-- An observation, if it is about an operation and not about its decision. -/
def Observation.due? (id : OperationId) (o : Observation) : Option Observation :=
  match o with
  | decisionSent .. => none
  | _ => if o.id? = some id then some o else none

/-- The decision of an operation that a message carries. -/
def Outbound.decisionOf? (id : OperationId) : Outbound → Option Decision
  | commit i => if i = id then some .commit else none
  | rollback i => if i = id then some .rollback else none
  | execute .. => none

/-- Whether an answer means that the channel took a message. -/
def Client.Answer.taken : Answer → Bool
  | .sent (.error _) => false
  | _ => true

/-- How far a decision has come that was taken down. -/
inductive Errand where
  /-- It is about to be handed to the channel. -/
  | leaving (d : Decision)
  /-- The channel has it and has not answered yet. -/
  | away (d : Decision)
  /-- The channel has answered, and has taken it or not. -/
  | back (d : Decision) (taken : Bool)
  /-- It was sent, and the observer is to be told so. -/
  | sent (d : Decision)

namespace Client.Frame

/-- What a frame is about to tell the observer of an operation, its decision apart. -/
def observation? (id : OperationId) : Frame → Option Observation
  | .todo (.announce o) | .todo (.raise (.observe o)) => o.due? id
  | _ => none

/-- The errand that a frame is on for an operation. -/
def errand? (id : OperationId) : Frame → Option Errand
  | .todo (.raise (.send m)) => (m.decisionOf? id).map .leaving
  | .inside (.send m) => (m.decisionOf? id).map .away
  | .todo (.decisionSent i d result) => if i = id then some (.back d result.isOk) else none
  | .todo (.announce o) | .todo (.raise (.observe o)) => (o.decisionOf? id).map .sent
  | _ => none

end Client.Frame

/-! ## Everything that can happen in one move -/

/-- What a move leaves to be observed of one operation. -/
structure News where
  /-- The operation was given its identifier. -/
  enlisted : Bool := false
  dues : List Observation := []
  errands : List Errand := []

/-- The part of a move that is to be observed of an operation. -/
def Client.news (c : Client) (t : Task) (id : OperationId) : News where
  enlisted := c.allots t == some id
  dues := (c.perform t).frames.filterMap (Frame.observation? id)
  errands := (c.perform t).frames.filterMap (Frame.errand? id)

/-- What a task can do to the entry of the operation `id`, where `next` is the identifier to be given
next, and what it leaves to be observed. -/
inductive ObservationStep (id next : OperationId) : Option Pending → Task → Option Pending → News → Prop
  /-- The task is about something else, or tells nobody of what it does. -/
  | aside {entry : Option Pending} {t : Task} (hdue : (Frame.todo t).observation? id = none)
      (herrand : (Frame.todo t).errand? id = none) : ObservationStep id next entry t entry {}
  | announced {entry : Option Pending} {o : Observation} :
      ObservationStep id next entry (.announce o) entry
        { dues := (o.due? id).toList, errands := ((o.decisionOf? id).map .sent).toList }
  | observed {entry : Option Pending} {o : Observation} :
      ObservationStep id next entry (.raise (.observe o)) entry {}
  | enlisted {entry : Option Pending} {listener : Listener} {operation : Operation}
      {payload : List UInt8} (hnext : id = next) :
      ObservationStep id next entry (.enlist listener operation payload)
        (some ⟨operation, .submitted, none⟩)
        { enlisted := true, dues := [.submitted id] }
  | withdrawn {entry : Pending} {e : ChannelError} :
      ObservationStep id next (some entry) (.submissionSent id (.error e)) none {}
  | accepted {entry : Pending} {result : Value} (hphase : entry.phase = .submitted) :
      ObservationStep id next (some entry) (.accept id result) (some { entry with phase := .prepared })
        { dues := [.prepared id] }
  | finished {entry : Pending} {outcome : Outcome} {kind : String}
      (hallows : entry.phase.allows (Client.finalPhase outcome) = true) :
      ObservationStep id next (some entry) (.finish id outcome kind) none
        { dues := [Client.ended id outcome] }
  | swept {entry : Pending} :
      ObservationStep id next (some entry) .sweep none { dues := [.failed id .channelClosed] }
  /-- News of a completion come before the operation is prepared. -/
  | early {entry : Pending} {outcome : Outcome} {kind : String}
      (hrefuses : entry.phase.allows (Client.finalPhase outcome) = false) :
      ObservationStep id next (some entry) (.finish id outcome kind) (some entry)
        { dues := [.violation (.completedBeforePrepared id)] }
  /-- News come of an operation that was never submitted. -/
  | unknown {t : Task} {kind : String} (hnew : ¬ id < next) (hdue : (Frame.todo t).observation? id = none)
      (herrand : (Frame.todo t).errand? id = none) :
      ObservationStep id next none t none { dues := [.violation (.unknownOperation id kind)] }
  | claimed {entry : Pending} {d : Decision} (hphase : entry.phase = .prepared)
      (hdecision : entry.decision = none) :
      ObservationStep id next (some entry) (.claim id d) (some { entry with decision := some d })
        { errands := [.leaving d] }
  | departed {entry : Option Pending} {m : Outbound} :
      ObservationStep id next entry (.raise (.send m)) entry
        { errands := ((m.decisionOf? id).map .away).toList }
  | landed {entry : Option Pending} {d : Decision} :
      ObservationStep id next entry (.decisionSent id d (.ok ())) entry { errands := [.sent d] }
  | refused {entry : Option Pending} {d : Decision} {e : ChannelError} :
      ObservationStep id next entry (.decisionSent id d (.error e)) entry {}

/-! ### The list is complete -/

namespace Client

/-- Nothing that is due about an operation stands in the frame of a deliverer. -/
theorem due_drainIf (id i : OperationId) (owed : Bool) :
    (drainIf i owed).filterMap (Frame.observation? id) = [] := by
  cases owed <;> rfl

theorem errand_drainIf (id i : OperationId) (owed : Bool) :
    (drainIf i owed).filterMap (Frame.errand? id) = [] := by
  cases owed <;> rfl

/-- Whoever fails one operation is to tell the observer of that one. -/
theorem dues_failed (id i : OperationId) (owed : Bool) :
    (Frame.todo (.announce (.failed i .channelClosed)) :: drainIf i owed).filterMap
      (Frame.observation? id) =
      if i = id then [.failed id .channelClosed] else [] := by
  rw [filterMap_cons_toList, due_drainIf, List.append_nil]
  by_cases h : i = id
  · subst h
    simp [Frame.observation?, Observation.due?, Observation.id?]
  · simp [h, Frame.observation?, Observation.due?, Observation.id?]

/-- Whoever sweeps is to tell the observer of every operation that was pending. -/
theorem dues_failAll (id : OperationId) {ids : List OperationId} (hnodup : ids.Nodup) (c : Client) :
    ((c.failAll ids).2.flatMap fun p => (Frame.todo (.announce (.failed p.1 .channelClosed)) ::
        drainIf p.1 p.2).filterMap (Frame.observation? id)) =
      if id ∈ ids then [.failed id .channelClosed] else [] := by
  simp only [dues_failed]
  induction ids generalizing c with
  | nil => rfl
  | cons first rest ih =>
    obtain ⟨hfirst, hrest⟩ := List.nodup_cons.mp hnodup
    rw [failAll, List.flatMap_cons, ih hrest]
    -- nothing is pending twice, so it fails now or later, and once
    by_cases h : first = id
    · subst h
      simp [hfirst]
    · simp [h, Ne.symm h]

/-- A sweep sends no decision and tells of none. -/
theorem errands_sweep (c : Client) (id : OperationId) :
    c.sweep.frames.filterMap (Frame.errand? id) = [] := by
  refine List.filterMap_eq_nil_iff.mpr fun f hf => ?_
  simp only [sweep, List.mem_append, List.mem_flatMap] at hf
  rcases hf with hf | ⟨⟨i, mine⟩, _, hf⟩
  · cases hclosed : c.closed with
    | true => simp [hclosed] at hf
    | false =>
      obtain rfl : f = _ := by simpa [hclosed] using hf
      rfl
  · rcases List.mem_cons.mp hf with rfl | hf
    · rfl
    · cases mine with
      | false => contradiction
      | true =>
        rw [List.mem_singleton.mp hf]
        rfl

/-- A sweep leaves one failure to be told for each operation that was pending, whatever phase it
was in. -/
theorem dues_sweep (c : Client) (id : OperationId) :
    c.sweep.frames.filterMap (Frame.observation? id) =
      if id ∈ c.pending.ids then [.failed id .channelClosed] else [] := by
  let cleared : Client := { c with closed := true, pending := .empty }
  have hdues := dues_failAll id c.pending.nodup_ids cleared
  have hfirst : (if c.closed then [] else
      [Frame.todo (.announce (.channelClosed c.pending.entries.length))]).filterMap
        (Frame.observation? id) = [] := by
    cases c.closed <;> rfl
  simp only [sweep, List.filterMap_append, hfirst, List.nil_append, List.filterMap_flatMap]
  exact hdues

end Client

attribute [local simp] Client.perform Client.news Frame.observation? Frame.errand?
  Observation.due? Observation.id? Observation.decisionOf? Outbound.decisionOf?
  Table.get?_insert Table.get?_erase Table.contains List.filterMap_cons Client.count Client.allots
  Client.due_drainIf Client.errand_drainIf Client.pending_enqueue

section

variable (c : Client) (id : OperationId)

/-- What a task does to what is observed of an operation. -/
def Client.Tells (t : Task) : Prop :=
  ObservationStep id c.nextId (c.pending.get? id) t ((c.perform t).client.pending.get? id) (c.news t id)

/-- A task is `aside` if it leaves the entry alone and nothing to be observed, as long as it was about
to tell nothing itself. -/
theorem ObservationStep.of_aside {t : Task}
    (hentry : (c.perform t).client.pending.get? id = c.pending.get? id)
    (hnews : c.news t id = {}) (hdue : (Frame.todo t).observation? id = none)
    (herrand : (Frame.todo t).errand? id = none) : c.Tells id t := by
  rw [Client.Tells, hentry, hnews]
  exact .aside hdue herrand

/-- With the entry of an operation it becomes due to tell that it was submitted, before anything is
sent. -/
theorem tells_enlist (listener : Listener) (operation : Operation) (payload : List UInt8) :
    c.Tells id (.enlist listener operation payload) := by
  by_cases hclosed : c.closed = true
  · refine ObservationStep.of_aside c id ?_ ?_ rfl rfl <;> simp [Client.enlist, hclosed, Client.refuse]
  · by_cases hid : c.nextId = id
    · have h : ObservationStep id c.nextId (c.pending.get? id) (.enlist listener operation payload) _ _ :=
        .enlisted hid.symm
      simpa [Client.Tells, Client.enlist, hclosed, hid] using h
    · refine ObservationStep.of_aside c id ?_ ?_ rfl rfl <;>
        simp [Client.enlist, hclosed, hid, Ne.symm hid]

/-- A submission that the channel refused loses its entry, and nobody observes that. -/
theorem tells_submissionSent (i : OperationId) (result : Except ChannelError Unit) :
    c.Tells id (.submissionSent i result) := by
  rcases result with e | ok
  · cases hentry : c.pending.get? i with
    | none =>
      refine ObservationStep.of_aside c id ?_ ?_ rfl rfl <;> simp [Client.submissionSent, hentry]
    | some entry =>
      by_cases hid : i = id
      · subst hid
        have h : ObservationStep i c.nextId (some entry) (.submissionSent i (.error e)) _ _ := .withdrawn
        simpa [Client.Tells, Client.submissionSent, hentry] using h
      · refine ObservationStep.of_aside c id ?_ ?_ rfl rfl <;>
          simp [Client.submissionSent, hentry, Ne.symm hid]
  · exact ObservationStep.of_aside c id rfl rfl rfl rfl

theorem tells_decide (i : OperationId) (d : Decision) : c.Tells id (.decide i d) := by
  cases hhandle : c.handles.get? i with
  | none => refine ObservationStep.of_aside c id ?_ ?_ rfl rfl <;> simp [Client.decide, hhandle]
  | some handle =>
    cases hasked : handle.asked <;>
      refine ObservationStep.of_aside c id ?_ ?_ rfl rfl <;> simp [Client.decide, hhandle, hasked]

/-- A claim that is granted takes the decision down and sends it on its errand. -/
theorem tells_claim (i : OperationId) (d : Decision) : c.Tells id (.claim i d) := by
  cases hentry : c.pending.get? i with
  | none => refine ObservationStep.of_aside c id ?_ ?_ rfl rfl <;> simp [Client.claim, hentry]
  | some entry =>
    by_cases hopen : entry.phase = .prepared ∧ entry.decision = none
    · by_cases hid : i = id
      · subst hid
        have h : ObservationStep i c.nextId (some entry) (.claim i d) _ _ := .claimed hopen.1 hopen.2
        cases d <;> simpa [Client.Tells, Client.claim, hentry, hopen, Outbound.decide] using h
      · refine ObservationStep.of_aside c id ?_ ?_ rfl rfl
        · simp [Client.claim, hentry, hopen, Ne.symm hid]
        · cases d <;> simp [Client.claim, hentry, hopen, Outbound.decide, hid]
    · refine ObservationStep.of_aside c id ?_ ?_ rfl rfl <;> simp [Client.claim, hentry, hopen]

/-- The observer is to be told of a decision once the channel has taken it, and not if it
was refused. -/
theorem tells_decisionSent (i : OperationId) (d : Decision) (result : Except ChannelError Unit) :
    c.Tells id (.decisionSent i d result) := by
  by_cases hid : i = id
  · subst hid
    rcases result with e | ok
    · exact .refused
    · have h : ObservationStep i c.nextId (c.pending.get? i) (.decisionSent i d (.ok ())) _ _ := .landed
      simpa [Client.Tells, Client.decisionSent] using h
  · refine ObservationStep.of_aside c id ?_ ?_ rfl (if_neg hid) <;>
      rcases result with e | ok <;> simp [Client.decisionSent, hid]

/-- News that find no entry are told only if the operation was never submitted. -/
theorem tells_drop {t : Task} {i : OperationId} {kind : String}
    (hperform : c.perform t = c.drop i kind) (hallots : c.allots t = none)
    (hnone : c.pending.get? i = none) (hdue : (Frame.todo t).observation? id = none)
    (herrand : (Frame.todo t).errand? id = none) : c.Tells id t := by
  by_cases hlate : i < c.nextId
  · refine ObservationStep.of_aside c id ?_ ?_ hdue herrand
    · rw [hperform, Client.drop, if_pos hlate]
      rfl
    · rw [Client.news, hperform, hallots, Client.drop, if_pos hlate]
      rfl
  · by_cases hid : i = id
    · subst hid
      have h : ObservationStep i c.nextId none t none { dues := [.violation (.unknownOperation i kind)] } :=
        .unknown hlate hdue herrand
      rw [Client.Tells, Client.news, hperform, hallots, Client.drop, if_neg hlate]
      simpa [hnone] using h
    · refine ObservationStep.of_aside c id ?_ ?_ hdue herrand
      · rw [hperform, Client.drop, if_neg hlate]
      · rw [Client.news, hperform, hallots, Client.drop, if_neg hlate]
        simp [hid]

/-- News of an operation that is prepared are due to be told if they take effect. They are a violation
if the operation is unknown, and nothing is told of news that come again. -/
theorem tells_accept (i : OperationId) (result : Value) : c.Tells id (.accept i result) := by
  cases hentry : c.pending.get? i with
  | none =>
    have hdrop : c.perform (.accept i result) = c.drop i "prepared" := by simp [Client.accept, hentry]
    exact tells_drop c id hdrop rfl hentry rfl rfl
  | some entry =>
    by_cases hallows : entry.phase.allows .prepared = true
    · have haccept := @Client.accept_of_allows c i entry result hentry hallows
      by_cases hid : i = id
      · subst hid
        have hphase : entry.phase = .submitted := by
          cases hp : entry.phase <;> simp [hp, Phase.allows] at hallows ⊢
        have h : ObservationStep i c.nextId (some entry) (.accept i result) _ _ := .accepted hphase
        simpa [Client.Tells, haccept, Client.promote, hentry] using h
      · refine ObservationStep.of_aside c id ?_ ?_ rfl rfl <;>
          simp [haccept, Client.promote, hid, Ne.symm hid]
    · refine ObservationStep.of_aside c id ?_ ?_ rfl rfl <;> simp [Client.accept, hentry, hallows]

/-- An end is due to be told when the entry goes. An end that comes too early is told as a violation,
and the entry stays. -/
theorem tells_finish (i : OperationId) (outcome : Outcome) (kind : String) :
    c.Tells id (.finish i outcome kind) := by
  cases hentry : c.pending.get? i with
  | none =>
    have hdrop : c.perform (.finish i outcome kind) = c.drop i kind := by simp [Client.finish, hentry]
    exact tells_drop c id hdrop rfl hentry rfl rfl
  | some entry =>
    by_cases hallows : entry.phase.allows (Client.finalPhase outcome) = true
    · have hfinish := @Client.finish_of_allows c i entry outcome kind hentry hallows
      by_cases hid : i = id
      · subst hid
        have h : ObservationStep i c.nextId (some entry) (.finish i outcome kind) _ _ := .finished hallows
        cases outcome <;>
          simpa [Client.Tells, hfinish, Client.without, hentry, Client.ended] using h
      · refine ObservationStep.of_aside c id ?_ ?_ rfl rfl <;>
          cases outcome <;> simp [hfinish, Client.without, Client.ended, hid, Ne.symm hid]
    · by_cases hid : i = id
      · subst hid
        have h : ObservationStep i c.nextId (some entry) (.finish i outcome kind) _ _ :=
          .early (Bool.eq_false_iff.mpr hallows)
        simpa [Client.Tells, Client.finish, hentry, hallows] using h
      · refine ObservationStep.of_aside c id ?_ ?_ rfl rfl <;>
          simp [Client.finish, hentry, hallows, hid]

/-- Reports are not observed, not even those that are dropped. -/
theorem tells_report (i : OperationId) (severity : Severity) (text : String) :
    c.Tells id (.report i severity text) := by
  cases hentry : c.pending.get? i <;>
    refine ObservationStep.of_aside c id ?_ ?_ rfl rfl <;> simp [Client.report, hentry]

/-- The failure of an operation is due to be told if it was pending when the sweep came. -/
theorem tells_sweep : c.Tells id .sweep := by
  obtain ⟨deliveries, hclient⟩ := c.sweep_frame
  have hnone : (c.perform .sweep).client.pending.get? id = none := by
    rw [Client.perform, hclient]
    rfl
  have hnews : c.news .sweep id =
      { dues := if id ∈ c.pending.ids then [.failed id .channelClosed] else [] } := by
    rw [Client.news, Client.perform, c.dues_sweep, c.errands_sweep]
    rfl
  cases hentry : c.pending.get? id with
  | none =>
    have hmem : id ∉ c.pending.ids := by simp [Table.mem_ids, hentry]
    rw [if_neg hmem] at hnews
    exact ObservationStep.of_aside c id (hnone.trans hentry.symm) hnews rfl rfl
  | some entry =>
    have hmem : id ∈ c.pending.ids := by simp [Table.mem_ids, hentry]
    rw [if_pos hmem] at hnews
    rw [Client.Tells, hentry, hnone, hnews]
    exact .swept

/-- Deliverers go about their business unobserved. -/
theorem tells_drain (i : OperationId) : c.Tells id (.drain i) := by
  cases hdelivery : c.deliveries.get? i with
  | none => refine ObservationStep.of_aside c id ?_ ?_ rfl rfl <;> simp [Client.drain, hdelivery]
  | some d =>
    rcases hpop : d.mailbox.pop with ⟨_ | callback, mailbox⟩ <;>
      refine ObservationStep.of_aside c id ?_ ?_ rfl rfl <;> simp [Client.drain, hdelivery, hpop]

theorem tells_called (i : OperationId) (callback : Callback) (panicked : Bool) :
    c.Tells id (.called i callback panicked) := by
  cases houtcome : callback.outcome? <;>
    refine ObservationStep.of_aside c id ?_ ?_ rfl rfl <;> simp [Client.called, houtcome]

theorem tells_resolve (i : OperationId) (outcome : Outcome) : c.Tells id (.resolve i outcome) := by
  cases hdelivery : c.deliveries.get? i with
  | none => refine ObservationStep.of_aside c id ?_ ?_ rfl rfl <;> simp [Client.resolve, hdelivery]
  | some d =>
    refine ObservationStep.of_aside c id ?_ ?_ rfl rfl <;>
      simp [Client.resolve, hdelivery, List.filterMap_map, Function.comp_def]

theorem tells_subscribe (i : OperationId) (tag : String) : c.Tells id (.subscribe i tag) := by
  cases hdelivery : c.deliveries.get? i with
  | none => refine ObservationStep.of_aside c id ?_ ?_ rfl rfl <;> simp [Client.subscribe, hdelivery]
  | some d =>
    cases hknown : (d.outcome.subscribe tag).2 <;>
      refine ObservationStep.of_aside c id ?_ ?_ rfl rfl <;> simp [Client.subscribe, hdelivery, hknown]

/-- **The list is complete.** -/
theorem Client.perform_observation (t : Task) : c.Tells id t := by
  -- tasks that touch no entry are aside; for the others there is one lemma each
  cases t with
  | submit channelOpen listener operation =>
    cases channelOpen with
    | false => exact ObservationStep.of_aside c id rfl rfl rfl rfl
    | true =>
      cases hencode : operation.payload.encode c.config.maxFrameBytes.toNat <;>
        refine ObservationStep.of_aside c id ?_ ?_ rfl rfl <;> simp [hencode, Client.refuse]
  | enlist listener operation payload => exact tells_enlist c id listener operation payload
  | submissionSent i result => exact tells_submissionSent c id i result
  | decide i d => exact tells_decide c id i d
  | claim i d => exact tells_claim c id i d
  | decisionSent i d result => exact tells_decisionSent c id i d result
  | decided i d result => exact ObservationStep.of_aside c id rfl rfl rfl rfl
  | dispatch m => cases m <;> exact ObservationStep.of_aside c id rfl rfl rfl rfl
  | accept i result => exact tells_accept c id i result
  | finish i outcome kind => exact tells_finish c id i outcome kind
  | report i severity text => exact tells_report c id i severity text
  | sweep => exact tells_sweep c id
  | announce o =>
    have hnews : c.news (.announce o) id =
        { dues := (o.due? id).toList, errands := ((o.decisionOf? id).map .sent).toList } := by
      rw [Client.news, Client.perform, filterMap_cons_toList, filterMap_cons_toList]
      simp only [List.filterMap_nil, List.append_nil]
      rfl
    rw [Client.Tells, hnews]
    exact .announced
  | drain i => exact tells_drain c id i
  | called i callback panicked => exact tells_called c id i callback panicked
  | resolve i outcome => exact tells_resolve c id i outcome
  | subscribe i tag => exact tells_subscribe c id i tag
  | raise u =>
    cases u with
    | observe o => exact .observed
    | send m =>
      have hnews : c.news (.raise (.send m)) id =
          { errands := ((m.decisionOf? id).map .away).toList } := by
        rw [Client.news, Client.perform, filterMap_cons_toList, filterMap_cons_toList]
        simp only [List.filterMap_nil, List.append_nil]
        rfl
      rw [Client.Tells, hnews]
      exact .departed
    | notify i callback => exact ObservationStep.of_aside c id rfl rfl rfl rfl
    | outcome i tag outcome => exact ObservationStep.of_aside c id rfl rfl rfl rfl

end

end TwoPhase
