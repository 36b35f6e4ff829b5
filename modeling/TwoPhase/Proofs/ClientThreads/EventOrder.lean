import TwoPhase.Proofs.ClientThreads.Frames
import TwoPhase.Proofs.ClientThreads.Observations
/-
The events of an operation: what the observer is told about it, and when the channel answers to its
decision.

`EventOrder` says in which orders the events can stand at any moment, by the entry of the operation,
what is due about it and the errands of its decision. It is kept by every move that no other thread
interferes with: what waits on the stacks meanwhile is at most the news of a sweep, and a decision that
the channel has not answered. These two also make the one exception: the end of an operation may be
told before its decision comes back, and then the observer hears last that it was sent.
-/

set_option autoImplicit false

namespace TwoPhase

open Client (Task Frame Upcall Answer Event)

/-! ## Events of an operation -/

/-- One event of an operation. -/
inductive OperationEvent where
  /-- The observer is told something about it. -/
  | told (o : Observation)
  /-- The channel answers to its decision, which it has taken or not. -/
  | answered (taken : Bool)
  deriving DecidableEq

/-- Whether an observation is about a message that does not fit. -/
def Observation.isStrange : Observation → Bool
  | violation _ => true
  | _ => false

/-- Whether the observer is told of a message that does not fit. -/
def OperationEvent.isStrange : OperationEvent → Bool
  | told o => o.isStrange
  | answered _ => false

/-- What the observer is told, if anything. -/
def OperationEvent.told? : OperationEvent → Option Observation
  | told o => some o
  | answered _ => none

namespace Client

/-- What a task adds to the events of an operation. -/
def Task.event? (id : OperationId) : Task → Option OperationEvent
  | .raise (.observe o) => if o.id? = some id then some (.told o) else none
  | _ => none

/-- What the answer to a call out adds to the events of an operation. -/
def Upcall.event? (id : OperationId) : Upcall → Answer → Option OperationEvent
  | .send m, a => (m.decisionOf? id).map fun _ => .answered a.taken
  | _, _ => none

end Client

/-- What is observed about an operation is due about it, or is about its decision. -/
theorem Observation.due_or_decision {id : OperationId} {o : Observation} (h : o.id? = some id) :
    (o.due? id = some o ∧ o.decisionOf? id = none) ∨
      ∃ d, o = .decisionSent id d ∧ o.due? id = none ∧ o.decisionOf? id = some d := by
  cases o with
  | decisionSent i d =>
    obtain rfl : i = id := Option.some.inj h
    exact Or.inr ⟨d, rfl, rfl, if_pos rfl⟩
  | channelClosed n => contradiction
  | _ => exact Or.inl ⟨if_pos h, rfl⟩

theorem Observation.not_due_of_id {id : OperationId} {o : Observation} (h : o.id? ≠ some id) :
    o.due? id = none ∧ o.decisionOf? id = none := by
  cases o with
  | decisionSent i d => exact ⟨rfl, if_neg fun hid => h (congrArg some hid)⟩
  | channelClosed n => exact ⟨rfl, rfl⟩
  | _ => exact ⟨if_neg h, rfl⟩

/-- Only what is due or on an errand is told. -/
theorem Client.Task.event_of_aside {id : OperationId} {t : Task}
    (hdue : (Frame.todo t).observation? id = none)
    (herrand : (Frame.todo t).errand? id = none) : t.event? id = none := by
  cases t with
  | raise u =>
    cases u with
    | observe o =>
      refine if_neg fun h => ?_
      rcases Observation.due_or_decision h with ⟨hsome, -⟩ | ⟨d, -, -, hsome⟩
      · cases hdue.symm.trans hsome
      · have hsent : (Frame.todo (.raise (.observe o))).errand? id = some (.sent d) :=
          congrArg (Option.map Errand.sent) hsome
        cases herrand.symm.trans hsent
    | _ => rfl
  | _ => rfl

/-- An operation in the eyes of its observer. -/
structure ObserverState where
  entry : Option Pending
  /-- What the observer is about to be told, the decision apart. -/
  dues : List Observation
  /-- How far the decision has come. -/
  errands : List Errand
  /-- What happened so far. -/
  events : List OperationEvent

/-- The same state, on whichever stacks things wait. -/
structure ObserverState.Like (x y : ObserverState) : Prop where
  entry : x.entry = y.entry
  dues : x.dues.Perm y.dues
  errands : x.errands.Perm y.errands
  events : x.events = y.events

theorem ObserverState.Like.symm {x y : ObserverState} (h : x.Like y) : y.Like x :=
  ⟨h.entry.symm, h.dues.symm, h.errands.symm, h.events.symm⟩

theorem ObserverState.Like.trans {x y z : ObserverState} (hxy : x.Like y) (hyz : y.Like z) : x.Like z :=
  ⟨hxy.entry.trans hyz.entry, hxy.dues.trans hyz.dues, hxy.errands.trans hyz.errands,
    hxy.events.trans hyz.events⟩

/-! ## The events of a decision -/

/-- How far the decision has come, and which events it has had. -/
inductive Ruled (id : OperationId) : List Errand → List OperationEvent → Prop
  | undecided : Ruled id [] []
  | leaving {d : Decision} : Ruled id [.leaving d] []
  | away {d : Decision} : Ruled id [.away d] []
  | back {d : Decision} {taken : Bool} : Ruled id [.back d taken] [.answered taken]
  | sent {d : Decision} : Ruled id [.sent d] [.answered true]
  | told {d : Decision} : Ruled id [] [.answered true, .told (.decisionSent id d)]
  | refused : Ruled id [] [.answered false]

namespace Ruled

variable {id : OperationId} {errands : List Errand} {verdict : List OperationEvent} {d : Decision}

theorem depart (h : Ruled id (.leaving d :: errands) verdict) :
    Ruled id (.away d :: errands) (verdict ++ []) := by
  cases h
  exact .away

theorem answer (h : Ruled id (.away d :: errands) verdict) (taken : Bool) :
    Ruled id (.back d taken :: errands) (verdict ++ [.answered taken]) := by
  cases h
  exact .back

theorem land (h : Ruled id (.back d true :: errands) verdict) :
    Ruled id (.sent d :: errands) (verdict ++ []) := by
  cases h
  exact .sent

theorem refuse (h : Ruled id (.back d false :: errands) verdict) : Ruled id errands (verdict ++ []) := by
  cases h
  exact .refused

theorem tell (h : Ruled id (.sent d :: errands) verdict) :
    Ruled id errands (verdict ++ [.told (.decisionSent id d)]) := by
  cases h
  exact .told

end Ruled

/-! ## The order of events -/

/-- Nothing but violations. -/
def Strange (events : List OperationEvent) : Prop := ∀ b ∈ events, b.isStrange = true

/-- The operation is submitted, and messages that do not fit may come before and after. -/
def Opened (id : OperationId) (events : List OperationEvent) : Prop :=
  ∃ early late, Strange early ∧ Strange late ∧ events = early ++ .told (.submitted id) :: late

theorem Strange.snoc {events : List OperationEvent} (h : Strange events) {o : Observation}
    (ho : o.isStrange = true) : Strange (events ++ [.told o]) := by
  intro b hb
  rcases List.mem_append.mp hb with hb | hb
  · exact h b hb
  · rw [List.mem_singleton.mp hb]
    exact ho

theorem Strange.opened {events : List OperationEvent} (h : Strange events) (id : OperationId) :
    Opened id (events ++ [.told (.submitted id)]) :=
  ⟨events, [], h, (fun _ hb => by contradiction), rfl⟩

theorem Opened.snoc {id : OperationId} {events : List OperationEvent} (h : Opened id events)
    {o : Observation} (ho : o.isStrange = true) : Opened id (events ++ [.told o]) := by
  obtain ⟨early, late, hearly, hlate, rfl⟩ := h
  exact ⟨early, late ++ [.told o], hearly, hlate.snoc ho, by simp⟩

/-- In which orders the events of an operation can stand, given or not. -/
inductive EventOrder (id : OperationId) : Bool → ObserverState → Prop
  | unknown {dues : List Observation} {events : List OperationEvent}
      (hdues : ∀ o ∈ dues, o.isStrange = true) (hevents : Strange events) :
      EventOrder id false ⟨none, dues, [], events⟩
  | enlisted {entry : Pending} {events : List OperationEvent} (hphase : entry.phase = .submitted)
      (hevents : Strange events) : EventOrder id true ⟨some entry, [.submitted id], [], events⟩
  | submitted {entry : Pending} {dues : List Observation} {opening : List OperationEvent}
      (hphase : entry.phase = .submitted) (hdues : ∀ o ∈ dues, o.isStrange = true)
      (hopened : Opened id opening) : EventOrder id true ⟨some entry, dues, [], opening⟩
  | accepted {entry : Pending} {opening : List OperationEvent} (hphase : entry.phase = .prepared)
      (hopened : Opened id opening) : EventOrder id true ⟨some entry, [.prepared id], [], opening⟩
  | prepared {entry : Pending} {errands : List Errand} {opening verdict : List OperationEvent}
      (hphase : entry.phase = .prepared) (hopened : Opened id opening)
      (hruled : Ruled id errands verdict)
      (hfree : entry.decision = none → errands = [] ∧ verdict = []) :
      EventOrder id true ⟨some entry, [], errands, opening ++ .told (.prepared id) :: verdict⟩
  | withdrawn {opening : List OperationEvent} (hopened : Opened id opening) :
      EventOrder id true ⟨none, [], [], opening⟩
  | retracted {errands : List Errand} {opening verdict : List OperationEvent} (hopened : Opened id opening)
      (hruled : Ruled id errands verdict) :
      EventOrder id true ⟨none, [], errands, opening ++ .told (.prepared id) :: verdict⟩
  | failing {opening : List OperationEvent} {f : Failure} (hopened : Opened id opening) :
      EventOrder id true ⟨none, [.failed id f], [], opening⟩
  | failed {opening : List OperationEvent} {f : Failure} (hopened : Opened id opening) :
      EventOrder id true ⟨none, [], [], opening ++ [.told (.failed id f)]⟩
  | ending {errands : List Errand} {opening verdict : List OperationEvent} {outcome : Outcome}
      (hopened : Opened id opening) (hruled : Ruled id errands verdict) :
      EventOrder id true ⟨none, [Client.ended id outcome], errands,
        opening ++ .told (.prepared id) :: verdict⟩
  | ended {errands : List Errand} {opening verdict later : List OperationEvent} {outcome : Outcome}
      (hopened : Opened id opening) (hruled : Ruled id errands (verdict ++ later))
      (hsettled : verdict ≠ [.answered true]) :
      EventOrder id true ⟨none, [], errands, opening ++ .told (.prepared id) ::
        (verdict ++ .told (Client.ended id outcome) :: later)⟩

/-- What may wait on the stacks while a thread moves on. -/
structure Patient (dues : List Observation) (errands : List Errand) : Prop where
  dues : ∀ o ∈ dues, ∃ i f, o = .failed i f
  errands : ∀ e ∈ errands, ∃ d, e = .away d

namespace EventOrder

variable {id : OperationId} {known : Bool} {entry : Option Pending} {dues : List Observation}
  {errands : List Errand} {events : List OperationEvent}

/-- It does not matter which stack something waits on. -/
theorem like {x y : ObserverState} (h : EventOrder id known x) (hlike : x.Like y) :
    EventOrder id known y := by
  obtain ⟨entry, dues, errands, events⟩ := x
  obtain ⟨entry', dues', errands', events'⟩ := y
  obtain ⟨hentry, hdues, herrands, hevents⟩ := hlike
  dsimp only at hentry hdues herrands hevents
  subst hentry hevents
  -- there is at most one errand, and at most one observation due but for violations, which may come in
  -- any order
  have hruled {v : List OperationEvent} (hruled : Ruled id errands v) : errands' = errands := by
    cases hruled <;> simpa using herrands.symm
  cases h with
  | unknown hstrange hevents =>
    rw [herrands.nil_eq.symm]
    exact .unknown (fun o ho => hstrange o (hdues.mem_iff.mpr ho)) hevents
  | enlisted hphase hevents =>
    rw [herrands.nil_eq.symm, List.perm_singleton.mp hdues.symm]
    exact .enlisted hphase hevents
  | submitted hphase hstrange hopened =>
    rw [herrands.nil_eq.symm]
    exact .submitted hphase (fun o ho => hstrange o (hdues.mem_iff.mpr ho)) hopened
  | accepted hphase hopened =>
    rw [herrands.nil_eq.symm, List.perm_singleton.mp hdues.symm]
    exact .accepted hphase hopened
  | prepared hphase hopened hv hfree =>
    rw [hruled hv, hdues.nil_eq.symm]
    exact .prepared hphase hopened hv hfree
  | withdrawn hopened =>
    rw [herrands.nil_eq.symm, hdues.nil_eq.symm]
    exact .withdrawn hopened
  | retracted hopened hv =>
    rw [hruled hv, hdues.nil_eq.symm]
    exact .retracted hopened hv
  | failing hopened =>
    rw [herrands.nil_eq.symm, List.perm_singleton.mp hdues.symm]
    exact .failing hopened
  | failed hopened =>
    rw [herrands.nil_eq.symm, hdues.nil_eq.symm]
    exact .failed hopened
  | ending hopened hv =>
    rw [hruled hv, List.perm_singleton.mp hdues.symm]
    exact .ending hopened hv
  | ended hopened hv hsettled =>
    rw [hruled hv, hdues.nil_eq.symm]
    exact .ended hopened hv hsettled

/-- A decision comes on, and its events with it. -/
theorem rule {errands' : List Errand} {more : List OperationEvent}
    (h : EventOrder id known ⟨entry, dues, errands, events⟩) (hsome : errands ≠ [])
    (hnext : ∀ verdict, Ruled id errands verdict → Ruled id errands' (verdict ++ more)) :
    EventOrder id known ⟨entry, dues, errands', events ++ more⟩ := by
  cases h with
  | prepared hphase hopened hruled hfree =>
    rw [List.append_assoc, List.cons_append]
    exact .prepared hphase hopened (hnext _ hruled) fun hnone => absurd (hfree hnone).1 hsome
  | retracted hopened hruled =>
    rw [List.append_assoc, List.cons_append]
    exact .retracted hopened (hnext _ hruled)
  | ending hopened hruled =>
    rw [List.append_assoc, List.cons_append]
    exact .ending hopened (hnext _ hruled)
  | @ended _ _ verdict later _ hopened hruled hsettled =>
    have hlater := hnext _ hruled
    rw [List.append_assoc] at hlater
    simp only [List.append_assoc, List.cons_append]
    exact .ended hopened hlater hsettled
  | _ => exact absurd rfl hsome

/-- The observer is told what is due. -/
theorem tell {o : Observation} (h : EventOrder id known ⟨entry, o :: dues, errands, events⟩)
    (hpatient : Patient dues errands) :
    EventOrder id known ⟨entry, dues, errands, events ++ [.told o]⟩ := by
  cases h with
  | unknown hdues hevents =>
    exact .unknown (fun x hx => hdues x (List.mem_cons_of_mem o hx))
      (hevents.snoc (hdues o List.mem_cons_self))
  | enlisted hphase hevents =>
    exact .submitted hphase (fun _ hx => by contradiction) (hevents.opened id)
  | submitted hphase hdues hopened =>
    exact .submitted hphase (fun x hx => hdues x (List.mem_cons_of_mem o hx))
      (hopened.snoc (hdues o List.mem_cons_self))
  | accepted hphase hopened => exact .prepared hphase hopened .undecided fun _ => ⟨rfl, rfl⟩
  | failing hopened => exact .failed hopened
  | @ending _ opening verdict outcome hopened hruled =>
    -- what waits is not a decision that has come back, so the events of the decision do not break off
    -- between the answer and the observer
    have hsettled : verdict ≠ [.answered true] := by
      rintro rfl
      cases hruled with
      | back => exact absurd (hpatient.errands _ List.mem_cons_self) (by simp)
      | sent => exact absurd (hpatient.errands _ List.mem_cons_self) (by simp)
    rw [List.append_assoc, List.cons_append]
    refine .ended hopened ?_ hsettled
    rw [List.append_nil]
    exact hruled

/-! ### The state when nothing is due -/

/-- What is told of violations is told before anything else happens. -/
theorem not_strange_of_patient (hpatient : Patient dues errands)
    (hdues : ∀ o ∈ dues, o.isStrange = true) : dues = [] := by
  refine List.eq_nil_iff_forall_not_mem.mpr fun o ho => ?_
  obtain ⟨i, f, rfl⟩ := hpatient.dues o ho
  exact absurd (hdues _ ho) (by simp [Observation.isStrange])

theorem of_unknown (h : EventOrder id false ⟨entry, dues, errands, events⟩) :
    entry = none ∧ (∀ o ∈ dues, o.isStrange = true) ∧ errands = [] ∧ Strange events := by
  cases h with
  | unknown hdues hevents => exact ⟨rfl, hdues, rfl, hevents⟩

/-- An operation that is in the table is at one of two points, unless it is just being told of. -/
theorem of_pending {e : Pending} (h : EventOrder id known ⟨some e, dues, errands, events⟩)
    (hpatient : Patient dues errands) : known = true ∧ dues = [] ∧
      ((e.phase = .submitted ∧ errands = [] ∧ Opened id events) ∨
        (e.phase = .prepared ∧ ∃ opening verdict, events = opening ++ .told (.prepared id) :: verdict ∧
          Opened id opening ∧ Ruled id errands verdict ∧
          (e.decision = none → errands = [] ∧ verdict = []))) := by
  cases h with
  | enlisted hphase hevents => exact absurd (hpatient.dues _ List.mem_cons_self) (by simp)
  | submitted hphase hdues hopened =>
    exact ⟨rfl, not_strange_of_patient hpatient hdues, Or.inl ⟨hphase, rfl, hopened⟩⟩
  | accepted hphase hopened => exact absurd (hpatient.dues _ List.mem_cons_self) (by simp)
  | prepared hphase hopened hruled hfree =>
    exact ⟨rfl, rfl, Or.inr ⟨hphase, _, _, rfl, hopened, hruled, hfree⟩⟩

/-! ### Moves -/

/-- A pending operation leaves the table, and whoever took it out tells the observer how it ended. -/
theorem leave {e : Pending} (h : EventOrder id known ⟨some e, dues, errands, events⟩)
    (hpatient : Patient dues errands) {outcome : Outcome}
    (hallows : e.phase.allows (Client.finalPhase outcome) = true) :
    EventOrder id known ⟨none, Client.ended id outcome :: dues, errands, events⟩ := by
  obtain ⟨rfl, rfl, ⟨hphase, rfl, hopened⟩ | ⟨-, opening, verdict, rfl, hopened, hruled, -⟩⟩ :=
    h.of_pending hpatient
  · rw [hphase] at hallows
    cases outcome with
    | completed result => contradiction
    | failed f => exact .failing hopened
  · exact .ending hopened hruled

end EventOrder

/-- **Every move keeps the order of events**, while what waits elsewhere is patient. -/
theorem ObservationStep.eventOrder {id next : OperationId} {entry entry' : Option Pending} {t : Task}
    {n : News} (observation : ObservationStep id next entry t entry' n) {known : Bool}
    {dues : List Observation} {errands : List Errand} {events : List OperationEvent}
    (hpatient : Patient dues errands)
    (hnew : ¬ id < next → known = false) (hfresh : n.enlisted = true → known = false)
    (h : EventOrder id known ⟨entry, ((Frame.todo t).observation? id).toList ++ dues,
      ((Frame.todo t).errand? id).toList ++ errands, events⟩) :
    EventOrder id (known || n.enlisted)
      ⟨entry', n.dues ++ dues, n.errands ++ errands, events ++ (t.event? id).toList⟩ := by
  cases observation with
  | aside hdue herrand =>
    rw [hdue, herrand] at h
    rw [Client.Task.event_of_aside hdue herrand]
    simpa using h
  | announced => simpa [Client.Task.event?, Frame.observation?, Frame.errand?] using h
  | @observed entry o =>
    by_cases hid : o.id? = some id
    · have hevent : (Task.raise (.observe o)).event? id = some (.told o) := if_pos hid
      rw [hevent]
      rcases Observation.due_or_decision hid with ⟨hdue, hdecision⟩ | ⟨d, rfl, hdue, hdecision⟩
      · simp only [Frame.observation?, Frame.errand?, hdue, hdecision, Option.map_none, Option.toList_none,
          Option.toList_some, List.nil_append, List.singleton_append] at h
        simpa using h.tell hpatient
      · simp only [Frame.observation?, Frame.errand?, hdue, hdecision, Option.map_some, Option.toList_none,
          Option.toList_some, List.nil_append, List.singleton_append] at h
        simpa using h.rule (List.cons_ne_nil _ _) fun _ hruled => hruled.tell
    · obtain ⟨hdue, hdecision⟩ := Observation.not_due_of_id hid
      simpa [Client.Task.event?, hid, Frame.observation?, Frame.errand?, hdue, hdecision] using h
  | enlisted hnext =>
    -- violations told before it was given do not count among the events that are ordered
    obtain rfl := hfresh rfl
    simp only [Frame.observation?, Frame.errand?, Option.toList_none, List.nil_append] at h
    obtain ⟨rfl, hdues, rfl, hevents⟩ := h.of_unknown
    obtain rfl := EventOrder.not_strange_of_patient hpatient hdues
    simpa [Client.Task.event?] using EventOrder.enlisted rfl hevents
  | withdrawn =>
    -- the operation may have been prepared before the channel refused its submission
    have h' := h
    simp only [Frame.observation?, Frame.errand?, Option.toList_none, List.nil_append] at h'
    obtain ⟨rfl, rfl, ⟨-, rfl, hopened⟩ | ⟨-, opening, verdict, rfl, hopened, hruled, -⟩⟩ :=
      h'.of_pending hpatient
    · simpa [Client.Task.event?] using EventOrder.withdrawn hopened
    · simpa [Client.Task.event?] using EventOrder.retracted hopened hruled
  | accepted hphase =>
    simp only [Frame.observation?, Frame.errand?, Option.toList_none, List.nil_append] at h
    obtain ⟨rfl, rfl, ⟨-, rfl, hopened⟩ | ⟨hprepared, -⟩⟩ := h.of_pending hpatient
    · simpa [Client.Task.event?] using EventOrder.accepted rfl hopened
    · cases hphase.symm.trans hprepared
  | finished hallows =>
    simp only [Frame.observation?, Frame.errand?, Option.toList_none, List.nil_append] at h
    simpa [Client.Task.event?] using h.leave hpatient hallows
  | @swept entry =>
    simp only [Frame.observation?, Frame.errand?, Option.toList_none, List.nil_append] at h
    have hallows : entry.phase.allows (Client.finalPhase (.failed .channelClosed)) = true := by
      obtain ⟨-, -, ⟨hphase, -⟩ | ⟨hphase, -⟩⟩ := h.of_pending hpatient <;> rw [hphase] <;> rfl
    simpa [Client.Task.event?, Client.ended] using h.leave hpatient hallows
  | @early entry outcome kind hrefuses =>
    simp only [Frame.observation?, Frame.errand?, Option.toList_none, List.nil_append] at h
    obtain ⟨rfl, rfl, ⟨hphase, rfl, hopened⟩ | ⟨hphase, -⟩⟩ := h.of_pending hpatient
    -- only while it is submitted does an operation refuse an end
    · have hdues : ∀ o ∈ [Observation.violation (.completedBeforePrepared id)],
          o.isStrange = true := by simp [Observation.isStrange]
      simpa [Client.Task.event?] using EventOrder.submitted hphase hdues hopened
    · rw [hphase] at hrefuses
      cases outcome <;> contradiction
  | @unknown t kind hlater hdue herrand =>
    obtain rfl := hnew hlater
    rw [hdue, herrand] at h
    obtain ⟨-, hdues, rfl, hevents⟩ := h.of_unknown
    rw [Client.Task.event_of_aside hdue herrand]
    have hstrange : ∀ o ∈ Observation.violation (.unknownOperation id kind) :: dues,
        o.isStrange = true := by simpa [Observation.isStrange] using hdues
    simpa using EventOrder.unknown hstrange hevents
  | @claimed entry d hphase hdecision =>
    simp only [Frame.observation?, Frame.errand?, Option.toList_none, List.nil_append] at h
    obtain ⟨rfl, rfl, ⟨hsubmitted, -⟩ | ⟨-, opening, verdict, rfl, hopened, -, hfree⟩⟩ :=
      h.of_pending hpatient
    · cases hphase.symm.trans hsubmitted
    · obtain ⟨rfl, rfl⟩ := hfree hdecision
      have heventOrder : EventOrder id true ⟨some { entry with decision := some d }, [], [.leaving d],
          opening ++ [.told (.prepared id)]⟩ :=
        .prepared hphase hopened .leaving fun hnone => by contradiction
      simpa [Client.Task.event?] using heventOrder
  | @departed entry m =>
    cases hdecision : m.decisionOf? id with
    | none => simpa [Client.Task.event?, Frame.observation?, Frame.errand?, hdecision] using h
    | some d =>
      simp only [Frame.observation?, Frame.errand?, hdecision, Option.map_some, Option.toList_none,
        Option.toList_some, List.nil_append, List.singleton_append] at h
      simpa [Client.Task.event?] using h.rule (List.cons_ne_nil _ _) fun _ hruled => hruled.depart
  | @landed entry d =>
    simp only [Frame.observation?, Frame.errand?, if_pos, Option.toList_none, Option.toList_some,
      List.nil_append, List.singleton_append] at h
    simpa [Client.Task.event?] using h.rule (List.cons_ne_nil _ _) fun _ hruled => hruled.land
  | @refused entry d e =>
    simp only [Frame.observation?, Frame.errand?, if_pos, Option.toList_none, Option.toList_some,
      List.nil_append, List.singleton_append] at h
    simpa [Client.Task.event?] using h.rule (List.cons_ne_nil _ _) fun _ hruled => hruled.refuse

theorem Outbound.decisionOf_decide (id i : OperationId) (d : Decision) :
    (Outbound.decide i d).decisionOf? id = if i = id then some d else none := by
  cases d <;> rfl

/-- The answer to a decision comes back with the decision. -/
theorem Client.Upcall.resume_decide (i : OperationId) (d : Decision) (a : Answer) :
    ∃ result : Except ChannelError Unit, result.isOk = a.taken ∧
      (Upcall.send (.decide i d)).resume a = [.todo (.decisionSent i d result)] := by
  cases a with
  | sent result => cases d <;> exact ⟨result, by cases result <;> rfl, rfl⟩
  | _ => cases d <;> exact ⟨.ok (), rfl, rfl⟩

/-- What an answer brings back for the observer of an operation: nothing, or its decision. -/
inductive Client.Upcall.Brings (id : OperationId) (u : Upcall) (a : Answer) : Prop
  | nothing (hbefore : (Frame.inside u).errand? id = none)
      (hafter : (u.resume a).filterMap (Frame.errand? id) = []) (hevent : u.event? id a = none)
  | decision (d : Decision) (hbefore : (Frame.inside u).errand? id = some (.away d))
      (hafter : (u.resume a).filterMap (Frame.errand? id) = [.back d a.taken])
      (hevent : u.event? id a = some (.answered a.taken))

theorem Client.Upcall.brings_decide (id i : OperationId) (d : Decision) (a : Answer) :
    (Upcall.send (.decide i d)).Brings id a := by
  obtain ⟨result, htaken, hresume⟩ := Upcall.resume_decide i d a
  by_cases hid : i = id
  · subst hid
    refine .decision d ?_ ?_ ?_ <;>
      simp [hresume, Frame.errand?, Upcall.event?, Outbound.decisionOf_decide, htaken]
  · refine .nothing ?_ ?_ ?_ <;>
      simp [hresume, Frame.errand?, Upcall.event?, Outbound.decisionOf_decide, hid]

theorem Client.Upcall.brings (id : OperationId) (u : Upcall) (a : Answer) : u.Brings id a := by
  cases u with
  | send m =>
    cases m with
    | execute i payload => cases a <;> exact .nothing rfl rfl rfl
    | commit i => exact brings_decide id i .commit a
    | rollback i => exact brings_decide id i .rollback a
  | notify i callback => cases a <;> exact .nothing rfl rfl rfl
  | observe o => exact .nothing rfl rfl rfl
  | outcome i tag outcome => exact .nothing rfl rfl rfl

/-- What is left of a call out when it returns is not what is due. -/
theorem Client.Upcall.resume_due (id : OperationId) (u : Upcall) (a : Answer) :
    (u.resume a).filterMap (Frame.observation? id) = [] := by
  have hresumes := u.resumes a
  generalize u.resume a = frames at hresumes
  cases hresumes <;> rfl

/-- **An answer keeps the order of events**, whatever waits elsewhere. -/
theorem EventOrder.answer {id : OperationId} {known : Bool} {entry : Option Pending}
    {dues : List Observation} {errands : List Errand} {events : List OperationEvent} {u : Upcall}
    {a : Answer} (h : EventOrder id known ⟨entry, ((Frame.inside u).observation? id).toList ++ dues,
      ((Frame.inside u).errand? id).toList ++ errands, events⟩) (hbrings : u.Brings id a) :
    EventOrder id known ⟨entry, dues, (u.resume a).filterMap (Frame.errand? id) ++ errands,
      events ++ (u.event? id a).toList⟩ := by
  cases hbrings with
  | nothing hbefore hafter hevent =>
    rw [hbefore] at h
    rw [hafter, hevent]
    simpa [Frame.observation?] using h
  | decision d hbefore hafter hevent =>
    rw [hbefore] at h
    rw [hafter, hevent]
    exact EventOrder.rule h (List.cons_ne_nil _ _) fun _ hruled => hruled.answer a.taken

end TwoPhase
