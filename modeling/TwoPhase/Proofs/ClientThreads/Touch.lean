import TwoPhase.Proofs.ClientThreads.Basic
/-
What one move of a client can do to one operation.

The state of a client is seen through the eyes of a single operation: its pending entry, its delivery
and its handle. `Touch` lists everything that a move can do to such a view, with the frames, the
queued callbacks and the calls out that concern the operation, and `perform_touch` says that the list
is complete. Every invariant of an operation is then a case analysis on `Touch`, in which all other
operations are one case.
-/

set_option autoImplicit false

namespace TwoPhase

open Client (Task Frame Upcall Answer Event Stride)

/-! ## What concerns an operation -/

namespace Client

/-- Whether a call out carries something of an operation. -/
def Upcall.about (id : OperationId) : Upcall → Bool
  | .observe _ => false
  | .send m => m.id = id
  | .notify i _ => i = id
  | .outcome i _ _ => i = id

/-- Whether a frame is something that the client still owes to an operation. Requests from outside
that merely name it are not. -/
def Frame.about (id : OperationId) : Frame → Bool
  | .todo (.submissionSent i _) | .todo (.claim i _) | .todo (.decisionSent i _ _)
  | .todo (.drain i) | .todo (.called i _ _) | .todo (.resolve i _) => i = id
  | .todo (.raise u) | .inside u => u.about id
  | _ => false

/-- The callback that an event queues for an operation. -/
def Event.queuedFor (id : OperationId) : Event → Option Callback
  | .queued i callback => if i = id then some callback else none
  | _ => none

/-- The call out that an event begins and that concerns an operation. -/
def Event.begunAbout (id : OperationId) : Event → Option Upcall
  | .began u => if u.about id then some u else none
  | _ => none

/-- What an event tells the submitter of an operation. -/
def Event.answerFor (id : OperationId) : Event → Option (Except ClientError OperationId)
  | .submission (some i) result => if i = id then some result else none
  | _ => none

/-- What becomes of an operation once a cause reaches it: the news that it is prepared, or its end. -/
inductive Cause where
  | prepared (result : Value)
  | ended (outcome : Outcome)

/-- The cause that a task holds for an operation. -/
def Task.cause? (id : OperationId) : Task → Option Cause
  | .accept i result => if i = id then some (.prepared result) else none
  | .finish i outcome _ => if i = id then some (.ended outcome) else none
  | .sweep => some (.ended (.failed .channelClosed))
  | _ => none

end Client

open Client (Cause)

/-! ## Views -/

/-- A client as one operation sees it. -/
structure View where
  entry : Option Pending
  delivery : Option Delivery
  handle : Option LiveHandle

/-- The view of an operation. -/
def Client.view (c : Client) (id : OperationId) : View :=
  ⟨c.pending.get? id, c.deliveries.get? id, c.handles.get? id⟩

namespace View

/-- The view after a callback was put into the mailbox. -/
def post (v : View) (callback : Callback) : View :=
  { v with delivery := v.delivery.map fun d =>
      { d with mailbox := (d.mailbox.enqueue callback).1 } }

/-- Whether whoever puts a callback into the mailbox becomes its deliverer. -/
def owed (v : View) : Bool :=
  match v.delivery with
  | none => false
  | some d => !d.mailbox.delivering

/-- Whether a cause finds the operation in no phase that admits it. -/
def Refuses (v : View) : Cause → Prop
  | .prepared _ => ∀ entry, v.entry = some entry → entry.phase.allows .prepared = false
  | .ended outcome =>
    ∀ entry, v.entry = some entry → entry.phase.allows (Client.finalPhase outcome) = false

end View

/-- What a move produces that concerns one operation. -/
structure Yield where
  /-- The operation was given its identifier. -/
  enlisted : Bool := false
  frames : List Frame := []
  queued : List Callback := []
  began : List Upcall := []
  answers : List (Except ClientError OperationId) := []

/-- The part of a move that concerns an operation. -/
def Client.yield (c : Client) (t : Task) (id : OperationId) : Yield where
  enlisted := c.allots t == some id
  frames := (c.perform t).frames.filter (Frame.about id)
  queued := (c.perform t).events.filterMap (Event.queuedFor id)
  began := (c.perform t).events.filterMap (Event.begunAbout id)
  answers := (c.perform t).events.filterMap (Event.answerFor id)

/-! ## Everything that can happen to an operation in one move -/

/-- What a task can do to the operation `id`, from view to view. -/
inductive Touch (id : OperationId) : View → Task → View → Yield → Prop
  /-- The task is about something else, or comes to nothing. -/
  | aside {v : View} {t : Task} (hframe : (Frame.todo t).about id = false)
      (hcause : ∀ cause, t.cause? id = some cause → v.Refuses cause) : Touch id v t v {}
  | enlisted {v : View} (listener : Listener) (operation : Operation) (payload : List UInt8) :
      Touch id v (.enlist listener operation payload)
        ⟨some ⟨operation, .submitted, none⟩, some ⟨listener, operation.sink, .idle, .vacant⟩,
          v.handle⟩
        { enlisted := true, frames := [.todo (.raise (.send (.execute id payload)))] }
  | admitted {v : View} {result : Except ChannelError Unit}
      (h : result = .ok () ∨ v.entry = none) :
      Touch id v (.submissionSent id result) v { answers := [.ok id] }
  | withdrawn {v : View} {e : ChannelError} {entry : Pending} (hentry : v.entry = some entry) :
      Touch id v (.submissionSent id (.error e)) { v with entry := none }
        { answers := [.error (.channelUnavailable e.message)] }
  | asked {v : View} {handle : LiveHandle} {d : Decision} (hhandle : v.handle = some handle)
      (hasked : handle.asked = false) :
      Touch id v (.decide id d) { v with handle := some { handle with asked := true } }
        { frames := [.todo (.claim id d)] }
  | claimed {v : View} {entry : Pending} {d : Decision} (hentry : v.entry = some entry)
      (hphase : entry.phase = .prepared) (hdecision : entry.decision = none) :
      Touch id v (.claim id d) { v with entry := some { entry with decision := some d } }
        { frames := [.todo (.raise (.send (.decide id d)))] }
  | late {v : View} {d : Decision}
      (h : ∀ entry, v.entry = some entry → ¬ (entry.phase = .prepared ∧ entry.decision = none)) :
      Touch id v (.claim id d) v {}
  | decisionSent {v : View} {d : Decision} {result : Except ChannelError Unit} :
      Touch id v (.decisionSent id d result) v {}
  | accepted {v : View} {entry : Pending} {result : Value} (hentry : v.entry = some entry)
      (hphase : entry.phase = .submitted) :
      Touch id v (.accept id result)
        (View.post ⟨some { entry with phase := .prepared }, v.delivery, some ⟨result, false⟩⟩
          (.prepared result))
        { frames := Client.drainIf id v.owed, queued := [.prepared result] }
  | finished {v : View} {entry : Pending} {outcome : Outcome} {kind : String}
      (hentry : v.entry = some entry)
      (hallows : entry.phase.allows (Client.finalPhase outcome) = true) :
      Touch id v (.finish id outcome kind) (View.post { v with entry := none } outcome.callback)
        { frames := Client.drainIf id v.owed, queued := [outcome.callback] }
  | reported {v : View} {entry : Pending} {severity : Severity} {text : String}
      (hentry : v.entry = some entry) :
      Touch id v (.report id severity text) (v.post (.report severity text))
        { frames := Client.drainIf id v.owed, queued := [.report severity text] }
  | swept {v : View} {entry : Pending} (hentry : v.entry = some entry) :
      Touch id v .sweep (View.post { v with entry := none } (.failed .channelClosed))
        { frames := Client.drainIf id v.owed, queued := [.failed .channelClosed] }
  | released {v : View} {d : Delivery} (hdelivery : v.delivery = some d)
      (hqueue : d.mailbox.queue = []) :
      Touch id v (.drain id) { v with delivery := some { d with mailbox := .idle } } {}
  | popped {v : View} {d : Delivery} {callback : Callback} {rest : List Callback}
      (hdelivery : v.delivery = some d) (hqueue : d.mailbox.queue = callback :: rest) :
      Touch id v (.drain id)
        { v with delivery := some { d with mailbox := { d.mailbox with queue := rest } } }
        { frames := [.todo (.raise (.notify id callback)), .todo (.drain id)] }
  | undelivered {v : View} (hdelivery : v.delivery = none) : Touch id v (.drain id) v {}
  | called {v : View} {callback : Callback} {panicked : Bool} :
      Touch id v (.called id callback panicked) v
        { frames := (callback.outcome?.map fun o => Frame.todo (.resolve id o)).toList }
  | resolved {v : View} {d : Delivery} {outcome : Outcome} (hdelivery : v.delivery = some d) :
      Touch id v (.resolve id outcome)
        { v with delivery := some { d with outcome := (d.outcome.resolve outcome).1 } }
        { frames := (d.outcome.resolve outcome).2.map fun tag =>
            Frame.todo (.raise (.outcome id tag outcome)) }
  | unresolved {v : View} {outcome : Outcome} (hdelivery : v.delivery = none) :
      Touch id v (.resolve id outcome) v {}
  | subscribed {v : View} {d : Delivery} {tag : String} (hdelivery : v.delivery = some d) :
      Touch id v (.subscribe id tag)
        { v with delivery := some { d with outcome := (d.outcome.subscribe tag).1 } }
        { frames := ((d.outcome.subscribe tag).2.map fun o =>
            Frame.todo (.raise (.outcome id tag o))).toList }
  | raised {v : View} {u : Upcall} (hu : u.about id = true) :
      Touch id v (.raise u) v { frames := [.inside u], began := [u] }

/-! ## The list is complete -/

@[simp] theorem Outbound.id_execute (id : OperationId) (payload : List UInt8) :
    (Outbound.execute id payload).id = id := rfl

@[simp] theorem Outbound.id_decide (id : OperationId) (d : Decision) :
    (Outbound.decide id d).id = id := by
  cases d <;> rfl

namespace Client

/-- A callback that is put into the mailbox of an operation changes its view as `View.post` says.
Without a delivery it changes nothing. -/
theorem view_enqueue (c : Client) (id : OperationId) (callback : Callback) :
    (c.enqueue id callback).1.view id = (c.view id).post callback := by
  rw [enqueue]
  split
  · rename_i hnone
    simp only [view, View.post, hnone, Option.map_none]
  · rename_i d hd
    simp only [view, View.post, hd, Option.map_some, Table.get?_insert, if_true]

/-- Whoever puts a callback in becomes the deliverer if nobody is delivering, and the view tells whether
somebody is. -/
theorem owed_enqueue (c : Client) (id : OperationId) (callback : Callback) :
    (c.enqueue id callback).2 = (c.view id).owed := by
  rw [enqueue]
  split
  · rename_i hnone
    simp only [view, View.owed, hnone]
  · rename_i d hd
    simp only [view, View.owed, hd, Mailbox.enqueue]

/-- What is put into one mailbox does not show to any other operation. -/
theorem view_enqueue_of_ne (c : Client) {id i : OperationId} (h : id ≠ i) (callback : Callback) :
    (c.enqueue i callback).1.view id = c.view id := by
  rw [enqueue]
  split
  · rfl
  · simp only [view, Table.get?_insert, if_neg h]

/-- What a sweep leaves of an operation, and the delivery it owes to it. -/
theorem view_failAll (id : OperationId) {ids : List OperationId} (hnodup : ids.Nodup) (c : Client) :
    (c.failAll ids).1.view id =
        (if id ∈ ids then (c.view id).post (.failed .channelClosed) else c.view id) ∧
      ((c.failAll ids).2.flatMap fun p => (drainIf p.1 p.2).filter (Frame.about id)) =
        if id ∈ ids then drainIf id (c.view id).owed else [] := by
  induction ids generalizing c with
  | nil => exact ⟨rfl, rfl⟩
  | cons first rest ih =>
    obtain ⟨hfirst, hrest⟩ := List.nodup_cons.mp hnodup
    obtain ⟨hview, howed⟩ := ih hrest (c.enqueue first (.failed .channelClosed)).1
    rw [failAll]
    simp only [List.flatMap_cons]
    -- nothing is pending twice, so this delivery is touched now or later, and once
    by_cases h : id = first
    · subst h
      rw [hview, howed, if_neg hfirst, if_neg hfirst, if_pos List.mem_cons_self,
        if_pos List.mem_cons_self, view_enqueue, owed_enqueue, List.append_nil]
      refine ⟨rfl, ?_⟩
      rw [drainIf]
      split <;> simp [Frame.about]
    · have hmem : id ∈ first :: rest ↔ id ∈ rest := by simp [h]
      have hother : (drainIf first (c.enqueue first (.failed .channelClosed)).2).filter
          (Frame.about id) = [] := by
        rw [drainIf]
        split <;> simp [Frame.about, Ne.symm h]
      rw [hview, howed, hother, List.nil_append, view_enqueue_of_ne c h]
      simp only [hmem, and_self]

end Client

/-! ### Task by task -/

attribute [local simp] Upcall.about Frame.about Event.queuedFor Event.begunAbout Event.answerFor
  Client.Task.cause? Client.allots Client.perform Client.view Table.get?_insert Table.get?_erase
  Table.contains List.filterMap_cons

section

variable (c : Client) (id : OperationId)

theorem Touch.of_aside {id : OperationId} {v v' : View} {t : Task} {y : Yield} (hv : v' = v)
    (hy : y = {}) (hframe : (Frame.todo t).about id = false)
    (hcause : ∀ cause, t.cause? id = some cause → v.Refuses cause) : Touch id v t v' y := by
  subst hv hy
  exact .aside hframe hcause

/-- A task that is no cause, and leaves an operation and everything of it alone. -/
theorem Touch.of_silent {id : OperationId} {v v' : View} {t : Task} {y : Yield} (hv : v' = v)
    (hy : y = {}) (hframe : (Frame.todo t).about id = false) (hcause : t.cause? id = none) :
    Touch id v t v' y := by
  refine .of_aside hv hy hframe fun cause h => ?_
  rw [hcause] at h
  contradiction

/-- An enlistment concerns the operation that gets the next identifier. A closed client gives none. -/
theorem touch_enlist (listener : Listener) (operation : Operation) (payload : List UInt8) :
    Touch id (c.view id) (.enlist listener operation payload)
      ((c.enlist listener operation payload).client.view id)
      (c.yield (.enlist listener operation payload) id) := by
  by_cases hclosed : c.closed = true
  · refine Touch.of_silent ?_ ?_ rfl rfl
    · simp [Client.enlist, hclosed, Client.refuse]
    · simp [Client.yield, Client.enlist, hclosed, Client.refuse]
  · by_cases hid : c.nextId = id
    · have h : Touch id (c.view id) (.enlist listener operation payload) _ _ :=
        .enlisted listener operation payload
      simpa [Client.yield, Client.enlist, hclosed, hid] using h
    · refine Touch.of_silent ?_ ?_ rfl rfl
      · simp [Client.enlist, hclosed, Ne.symm hid]
      · simp [Client.yield, Client.enlist, hclosed, hid]

/-- The answer of the channel to a submission is passed on to the submitter. The entry is taken away if
the channel refused and the entry is still there, whatever phase it is in by then. -/
theorem touch_submissionSent (i : OperationId) (result : Except ChannelError Unit) :
    Touch id (c.view id) (.submissionSent i result) ((c.submissionSent i result).client.view id)
      (c.yield (.submissionSent i result) id) := by
  rcases result with e | ok
  · by_cases hid : i = id
    · subst hid
      cases hentry : c.pending.get? i with
      | none =>
        have h : Touch i (c.view i) (.submissionSent i (.error e)) _ _ := .admitted (Or.inr hentry)
        simpa [Client.yield, Client.submissionSent, Client.count, hentry] using h
      | some entry =>
        have h : Touch i (c.view i) (.submissionSent i (.error e)) _ _ := .withdrawn hentry
        simpa [Client.yield, Client.submissionSent, Client.count, hentry] using h
    · refine Touch.of_silent ?_ ?_ (by simp [hid]) rfl
      · by_cases hin : (c.pending.get? i).isSome = true
        · simp [Client.submissionSent, Client.count, hin, Ne.symm hid]
        · simp [Client.submissionSent, Client.count, hin]
      · by_cases hin : (c.pending.get? i).isSome = true
        · simp [Client.yield, Client.submissionSent, Client.count, hin, hid]
        · simp [Client.yield, Client.submissionSent, Client.count, hin, hid]
  · by_cases hid : i = id
    · subst hid
      have h : Touch i (c.view i) (.submissionSent i (.ok ok)) _ _ := .admitted (Or.inl rfl)
      simpa [Client.yield, Client.submissionSent] using h
    · exact Touch.of_silent rfl (by simp [Client.yield, Client.submissionSent, hid])
        (by simp [hid]) rfl

/-- A request for a decision leads to a claim the first time that the handle is asked, and
never again. -/
theorem touch_decide (i : OperationId) (d : Decision) :
    Touch id (c.view id) (.decide i d) ((c.decide i d).client.view id)
      (c.yield (.decide i d) id) := by
  cases hhandle : c.handles.get? i with
  | none =>
    refine Touch.of_silent ?_ ?_ rfl rfl
    · simp [Client.decide, hhandle]
    · simp [Client.yield, Client.decide, hhandle]
  | some handle =>
    by_cases hasked : handle.asked = true
    · refine Touch.of_silent ?_ ?_ rfl rfl
      · simp [Client.decide, hhandle, hasked]
      · simp [Client.yield, Client.decide, hhandle, hasked]
    · by_cases hid : i = id
      · subst hid
        have h : Touch i (c.view i) (.decide i d) _ _ := .asked hhandle (by simpa using hasked)
        simpa [Client.yield, Client.decide, hhandle, hasked] using h
      · refine Touch.of_silent ?_ ?_ rfl rfl
        · simp [Client.decide, hhandle, hasked, Ne.symm hid]
        · simp [Client.yield, Client.decide, hhandle, hasked, hid]

/-- A claim takes the decision down if the operation is prepared and undecided, and comes too late
otherwise. -/
theorem touch_claim (i : OperationId) (d : Decision) :
    Touch id (c.view id) (.claim i d) ((c.claim i d).client.view id) (c.yield (.claim i d) id) := by
  have hother (hid : i ≠ id) : (Frame.todo (.claim i d)).about id = false := by simp [hid]
  cases hentry : c.pending.get? i with
  | none =>
    by_cases hid : i = id
    · subst hid
      have h : Touch i (c.view i) (.claim i d) _ _ := .late (by simp [hentry])
      simpa [Client.yield, Client.claim, hentry] using h
    · refine Touch.of_silent ?_ ?_ (hother hid) rfl
      · simp [Client.claim, hentry]
      · simp [Client.yield, Client.claim, hentry]
  | some entry =>
    by_cases hopen : entry.phase = .prepared ∧ entry.decision = none
    · by_cases hid : i = id
      · subst hid
        have h : Touch i (c.view i) (.claim i d) _ _ := .claimed hentry hopen.1 hopen.2
        simpa [Client.yield, Client.claim, hentry, hopen] using h
      · refine Touch.of_silent ?_ ?_ (hother hid) rfl
        · simp [Client.claim, hentry, hopen, Ne.symm hid]
        · simp [Client.yield, Client.claim, hentry, hopen, hid]
    · by_cases hid : i = id
      · subst hid
        have h : Touch i (c.view i) (.claim i d) _ _ := .late (by simpa [hentry] using hopen)
        simpa [Client.yield, Client.claim, hentry, hopen] using h
      · refine Touch.of_silent ?_ ?_ (hother hid) rfl
        · simp [Client.claim, hentry, hopen]
        · simp [Client.yield, Client.claim, hentry, hopen]

/-- The answer of the channel to a decision leaves the view alone. If the channel refused, the failure
that follows is a task of its own. -/
theorem touch_decisionSent (i : OperationId) (d : Decision) (result : Except ChannelError Unit) :
    Touch id (c.view id) (.decisionSent i d result) ((c.decisionSent i d result).client.view id)
      (c.yield (.decisionSent i d result) id) := by
  have hview : (c.decisionSent i d result).client.view id = c.view id := by
    rcases result with e | ok <;> simp [Client.decisionSent, Client.count]
  have hyield : c.yield (.decisionSent i d result) id = {} := by
    rcases result with e | ok <;> simp [Client.yield, Client.decisionSent]
  by_cases hid : i = id
  · subst hid
    rw [hview, hyield]
    exact .decisionSent
  · exact Touch.of_silent hview hyield (by simp [hid]) rfl

/-- A deliverer is about the operation whose mailbox it empties, and about no other. -/
theorem filter_drainIf (i : OperationId) (owed : Bool) :
    (Client.drainIf i owed).filter (Frame.about id) = if i = id then Client.drainIf i owed else [] := by
  cases owed <;> by_cases hid : i = id <;> simp [Client.drainIf, hid]

/-- An operation that is not pending refuses every cause. -/
theorem View.refuses_of_none {v : View} (h : v.entry = none) (cause : Cause) : v.Refuses cause := by
  cases cause <;> simp [View.Refuses, h]

/-- A notification that finds no entry is counted or reported, and no operation sees anything of it. -/
theorem drop_view (i : OperationId) (kind : String) : (c.drop i kind).client.view id = c.view id := by
  by_cases hlate : i < c.nextId <;> simp [Client.drop, hlate, Client.count]

/-- Nor does it produce anything for an operation. -/
theorem yield_of_drop {t : Task} {i : OperationId} {kind : String}
    (hperform : c.perform t = c.drop i kind) (hallots : c.allots t = none) : c.yield t id = {} := by
  rw [Client.yield, hperform, hallots]
  by_cases hlate : i < c.nextId <;> simp [Client.drop, hlate]

/-- The news that an operation is prepared take effect on one that is submitted. Coming again, or for
another operation, they leave it alone. -/
theorem touch_accept (i : OperationId) (result : Value) :
    Touch id (c.view id) (.accept i result) ((c.accept i result).client.view id)
      (c.yield (.accept i result) id) := by
  cases hentry : c.pending.get? i with
  | none =>
    have hdrop : c.accept i result = c.drop i "prepared" := by simp [Client.accept, hentry]
    refine Touch.of_aside (by rw [hdrop, drop_view]) (yield_of_drop c id hdrop rfl) rfl
      fun cause hcause => ?_
    by_cases hid : i = id
    · subst hid
      exact View.refuses_of_none hentry cause
    · simp [hid] at hcause
  | some entry =>
    by_cases hallows : entry.phase.allows .prepared = true
    · have haccept := @Client.accept_of_allows c i entry result hentry hallows
      by_cases hid : i = id
      · subst hid
        have hphase : entry.phase = .submitted := by
          cases hp : entry.phase <;> simp [hp, Phase.allows] at hallows ⊢
        have h : Touch i (c.view i) (.accept i result) _ _ := .accepted hentry hphase
        -- the mailbox is still as it was before the news
        have hview : (c.promote i entry result).view i =
            ⟨some { entry with phase := .prepared }, (c.view i).delivery, some ⟨result, false⟩⟩ := by
          simp [Client.promote]
        have howed : ((c.promote i entry result).view i).owed = (c.view i).owed := by
          rw [hview]
          rfl
        rw [haccept, Client.view_enqueue, hview]
        have hyield : c.yield (.accept i result) i =
            { frames := Client.drainIf i (c.view i).owed, queued := [.prepared result] } := by
          simp only [Client.yield, Client.perform, haccept, Client.owed_enqueue, howed]
          simp [filter_drainIf]
        rw [hyield]
        exact h
      · refine Touch.of_aside ?_ ?_ rfl fun cause hcause => by simp [hid] at hcause
        · rw [haccept, Client.view_enqueue_of_ne _ (Ne.symm hid)]
          simp [Client.promote, Ne.symm hid]
        · simp [Client.yield, haccept, filter_drainIf, hid]
    · -- news that comes again is counted, and its phase refuses it
      have hagain : c.accept i result =
          ⟨c.count .duplicates, [], [.noted (.preparedAgain i entry.phase)]⟩ := by
        rw [Client.accept, hentry]
        exact if_neg hallows
      refine Touch.of_aside ?_ ?_ rfl fun cause hcause => ?_
      · simp [hagain, Client.count]
      · simp [Client.yield, hagain]
      · by_cases hid : i = id
        · subst hid
          simp only [Task.cause?, if_true, Option.some.injEq] at hcause
          subst hcause
          simp [View.Refuses, hentry, hallows]
        · simp [hid] at hcause

/-- An end takes the entry away and is queued for the listener, if there is an entry whose phase admits
that end. -/
theorem touch_finish (i : OperationId) (outcome : Outcome) (kind : String) :
    Touch id (c.view id) (.finish i outcome kind) ((c.finish i outcome kind).client.view id)
      (c.yield (.finish i outcome kind) id) := by
  cases hentry : c.pending.get? i with
  | none =>
    have hdrop : c.finish i outcome kind = c.drop i kind := by simp [Client.finish, hentry]
    refine Touch.of_aside (by rw [hdrop, drop_view]) (yield_of_drop c id hdrop rfl) rfl
      fun cause hcause => ?_
    by_cases hid : i = id
    · subst hid
      exact View.refuses_of_none hentry cause
    · simp [hid] at hcause
  | some entry =>
    by_cases hallows : entry.phase.allows (Client.finalPhase outcome) = true
    · have hfinish := @Client.finish_of_allows c i entry outcome kind hentry hallows
      by_cases hid : i = id
      · subst hid
        have h : Touch i (c.view i) (.finish i outcome kind) _ _ := .finished hentry hallows
        have hview : (c.without i).view i = { c.view i with entry := none } := by
          simp [Client.without]
        have howed : ((c.without i).view i).owed = (c.view i).owed := by
          rw [hview]
          rfl
        have hyield : c.yield (.finish i outcome kind) i =
            { frames := Client.drainIf i (c.view i).owed, queued := [outcome.callback] } := by
          simp only [Client.yield, Client.perform, hfinish, Client.owed_enqueue, howed]
          simp [filter_drainIf]
        rw [hfinish, Client.view_enqueue, hview, hyield]
        exact h
      · refine Touch.of_aside ?_ ?_ rfl fun cause hcause => by simp [hid] at hcause
        · rw [hfinish, Client.view_enqueue_of_ne _ (Ne.symm hid)]
          simp [Client.without, Ne.symm hid]
        · simp [Client.yield, hfinish, filter_drainIf, hid]
    · -- an end that the phase does not admit is announced, and changes nothing
      have hrefused : c.finish i outcome kind =
          ⟨c, [.todo (.announce (.violation (.completedBeforePrepared i)))],
            [.noted (.outOfOrder i entry.phase (.completedBeforePrepared i))]⟩ := by
        rw [Client.finish, hentry]
        exact if_neg hallows
      refine Touch.of_aside ?_ ?_ rfl fun cause hcause => ?_
      · simp [hrefused]
      · simp [Client.yield, hrefused]
      · by_cases hid : i = id
        · subst hid
          simp only [Task.cause?, if_true, Option.some.injEq] at hcause
          subst hcause
          simp [View.Refuses, hentry, hallows]
        · simp [hid] at hcause

/-- A report is queued for an operation that is pending, and comes to nothing otherwise. -/
theorem touch_report (i : OperationId) (severity : Severity) (text : String) :
    Touch id (c.view id) (.report i severity text) ((c.report i severity text).client.view id)
      (c.yield (.report i severity text) id) := by
  cases hentry : c.pending.get? i with
  | none =>
    have hdropped : c.report i severity text = ⟨c, [], [.noted (.reportDropped i)]⟩ := by
      simp [Client.report, hentry]
    exact Touch.of_silent (by simp [hdropped]) (by simp [Client.yield, hdropped]) rfl
      rfl
  | some entry =>
    have hreport : c.report i severity text =
        ⟨(c.enqueue i (.report severity text)).1,
          Client.drainIf i (c.enqueue i (.report severity text)).2,
          [.queued i (.report severity text)]⟩ := by
      rw [Client.report, Table.contains, hentry]
      exact if_pos rfl
    by_cases hid : i = id
    · subst hid
      have h : Touch i (c.view i) (.report i severity text) _ _ := .reported hentry
      have hyield : c.yield (.report i severity text) i =
          { frames := Client.drainIf i (c.view i).owed, queued := [.report severity text] } := by
        simp only [Client.yield, Client.perform, hreport, Client.owed_enqueue]
        simp [filter_drainIf]
      rw [hreport, Client.view_enqueue, hyield]
      exact h
    · refine Touch.of_silent ?_ ?_ rfl rfl
      · rw [hreport, Client.view_enqueue_of_ne _ (Ne.symm hid)]
      · simp [Client.yield, hreport, filter_drainIf, hid]

/-- No identifier stands in the table twice, so a sweep queues one failure for each operation in it. -/
theorem filterMap_queuedFor {ids : List OperationId} (hnodup : ids.Nodup) (callback : Callback) :
    ids.filterMap (fun i => if i = id then some callback else none) =
      if id ∈ ids then [callback] else [] := by
  induction ids with
  | nil => rfl
  | cons first rest ih =>
    obtain ⟨hfirst, hrest⟩ := List.nodup_cons.mp hnodup
    by_cases hid : first = id
    · subst hid
      simp [ih hrest, hfirst]
    · simp [ih hrest, hid, Ne.symm hid]

/-- Apart from notes, all that happens in a sweep is that failures are queued. -/
theorem sweep_events_filterMap {β : Type} (f : Event → Option β) (hnoted : ∀ n, f (.noted n) = none) :
    c.sweep.events.filterMap f =
      c.pending.ids.filterMap fun i => f (.queued i (.failed .channelClosed)) := by
  simp [Client.sweep, List.filterMap_append, List.filterMap_map, hnoted, Table.ids]

/-- A sweep takes the entry of every pending operation away and queues its failure. Operations without
an entry do not notice it. -/
theorem touch_sweep : Touch id (c.view id) .sweep (c.sweep.client.view id) (c.yield .sweep id) := by
  -- the table is cleared at first, and then what was in it is gone through
  let cleared : Client := { c with closed := true, pending := .empty }
  obtain ⟨hview, howed⟩ := Client.view_failAll id c.pending.nodup_ids cleared
  have hcleared : cleared.view id = { c.view id with entry := none } := by simp [cleared]
  have hclient : c.sweep.client.view id =
      if id ∈ c.pending.ids then View.post { c.view id with entry := none } (.failed .channelClosed)
      else { c.view id with entry := none } := by
    rw [← hcleared, ← hview]
    rfl
  have hframes : c.sweep.frames.filter (Frame.about id) =
      if id ∈ c.pending.ids then Client.drainIf id (c.view id).owed else [] := by
    have hsame : (cleared.view id).owed = (c.view id).owed := by rw [hcleared]; rfl
    rw [← hsame, ← howed]
    by_cases hclosed : c.closed = true <;>
      simp [Client.sweep, hclosed, List.filter_flatMap, cleared]
  have hyield : c.yield .sweep id =
      if id ∈ c.pending.ids then
        { frames := Client.drainIf id (c.view id).owed, queued := [.failed .channelClosed] }
      else {} := by
    rw [Client.yield]
    simp only [Client.perform, hframes]
    rw [sweep_events_filterMap c (Event.queuedFor id) fun _ => rfl,
      sweep_events_filterMap c (Event.begunAbout id) fun _ => rfl,
      sweep_events_filterMap c (Event.answerFor id) fun _ => rfl]
    have hqueued := filterMap_queuedFor id c.pending.nodup_ids (.failed .channelClosed)
    by_cases hmem : id ∈ c.pending.ids <;> simp_all
  cases hentry : c.pending.get? id with
  | none =>
    have hmem : id ∉ c.pending.ids := by simp [Table.mem_ids, hentry]
    refine Touch.of_aside ?_ ?_ rfl fun cause _ => View.refuses_of_none hentry cause
    · rw [hclient, if_neg hmem]
      simp [hentry]
    · rw [hyield, if_neg hmem]
  | some entry =>
    have hmem : id ∈ c.pending.ids := by simp [Table.mem_ids, hentry]
    rw [hclient, hyield, if_pos hmem, if_pos hmem]
    exact .swept hentry

/-- A deliverer takes the next callback out of its mailbox, or gives the mailbox free if there
is none. -/
theorem touch_drain (i : OperationId) :
    Touch id (c.view id) (.drain i) ((c.drain i).client.view id) (c.yield (.drain i) id) := by
  have hother (hid : i ≠ id) : (Frame.todo (.drain i)).about id = false := by simp [hid]
  cases hdelivery : c.deliveries.get? i with
  | none =>
    by_cases hid : i = id
    · subst hid
      have h : Touch i (c.view i) (.drain i) _ _ := .undelivered hdelivery
      simpa [Client.yield, Client.drain, hdelivery] using h
    · exact Touch.of_silent (by simp [Client.drain, hdelivery])
        (by simp [Client.yield, Client.drain, hdelivery]) (hother hid) rfl
  | some d =>
    cases hqueue : d.mailbox.queue with
    | nil =>
      by_cases hid : i = id
      · subst hid
        have h : Touch i (c.view i) (.drain i) _ _ := .released hdelivery hqueue
        simpa [Client.yield, Client.drain, hdelivery, Mailbox.pop, hqueue, Mailbox.idle] using h
      · refine Touch.of_silent ?_ ?_ (hother hid) rfl
        · simp [Client.drain, hdelivery, Mailbox.pop, hqueue, Ne.symm hid]
        · simp [Client.yield, Client.drain, hdelivery, Mailbox.pop, hqueue]
    | cons callback rest =>
      by_cases hid : i = id
      · subst hid
        have h : Touch i (c.view i) (.drain i) _ _ := .popped hdelivery hqueue
        simpa [Client.yield, Client.drain, hdelivery, Mailbox.pop, hqueue] using h
      · refine Touch.of_silent ?_ ?_ (hother hid) rfl
        · simp [Client.drain, hdelivery, Mailbox.pop, hqueue, Ne.symm hid]
        · simp [Client.yield, Client.drain, hdelivery, Mailbox.pop, hqueue, hid]

/-- When the listener returns or panics, the outcome cell is still to be resolved if the callback was
about an end. -/
theorem touch_called (i : OperationId) (callback : Callback) (panicked : Bool) :
    Touch id (c.view id) (.called i callback panicked)
      ((c.called i callback panicked).client.view id)
      (c.yield (.called i callback panicked) id) := by
  by_cases hid : i = id
  · subst hid
    have h : Touch i (c.view i) (.called i callback panicked) _ _ := .called
    cases houtcome : callback.outcome? <;> cases panicked <;>
      simpa [Client.yield, Client.called, houtcome] using h
  · refine Touch.of_silent rfl ?_ (by simp [hid]) rfl
    cases houtcome : callback.outcome? <;> cases panicked <;>
      simp [Client.yield, Client.called, houtcome, hid]

/-- A resolution goes to the outcome cell of its operation, and has those called that wait there. -/
theorem touch_resolve (i : OperationId) (outcome : Outcome) :
    Touch id (c.view id) (.resolve i outcome) ((c.resolve i outcome).client.view id)
      (c.yield (.resolve i outcome) id) := by
  have hother (hid : i ≠ id) : (Frame.todo (.resolve i outcome)).about id = false := by simp [hid]
  cases hdelivery : c.deliveries.get? i with
  | none =>
    by_cases hid : i = id
    · subst hid
      have h : Touch i (c.view i) (.resolve i outcome) _ _ := .unresolved hdelivery
      simpa [Client.yield, Client.resolve, hdelivery] using h
    · exact Touch.of_silent (by simp [Client.resolve, hdelivery])
        (by simp [Client.yield, Client.resolve, hdelivery]) (hother hid) rfl
  | some d =>
    by_cases hid : i = id
    · subst hid
      have h : Touch i (c.view i) (.resolve i outcome) _ _ := .resolved hdelivery
      simpa [Client.yield, Client.resolve, hdelivery, List.filter_map, Function.comp_def,
        List.filter_eq_self.mpr] using h
    · refine Touch.of_silent ?_ ?_ (hother hid) rfl
      · simp [Client.resolve, hdelivery, Ne.symm hid]
      · simp [Client.yield, Client.resolve, hdelivery, List.filter_map, Function.comp_def, hid]

/-- A registration goes to the outcome cell of its operation, and is called at once if the outcome is
known. -/
theorem touch_subscribe (i : OperationId) (tag : String) :
    Touch id (c.view id) (.subscribe i tag) ((c.subscribe i tag).client.view id)
      (c.yield (.subscribe i tag) id) := by
  cases hdelivery : c.deliveries.get? i with
  | none =>
    exact Touch.of_silent (by simp [Client.subscribe, hdelivery])
      (by simp [Client.yield, Client.subscribe, hdelivery]) rfl rfl
  | some d =>
    by_cases hid : i = id
    · subst hid
      have h : Touch i (c.view i) (.subscribe i tag) _ _ := .subscribed hdelivery
      cases hknown : (d.outcome.subscribe tag).2 <;>
        simpa [Client.yield, Client.subscribe, hdelivery, hknown] using h
    · refine Touch.of_silent ?_ ?_ rfl rfl
      · simp [Client.subscribe, hdelivery, Ne.symm hid]
      · cases hknown : (d.outcome.subscribe tag).2 <;>
          simp [Client.yield, Client.subscribe, hdelivery, hknown, hid]

/-- **The list is complete**: whatever a task does, it does one of the listed things to the view of an
operation. -/
theorem Client.perform_touch (t : Task) :
    Touch id (c.view id) t ((c.perform t).client.view id) (c.yield t id) := by
  cases t with
  | submit channelOpen listener operation =>
    cases channelOpen with
    | false =>
      exact Touch.of_silent rfl (by simp [Client.yield, Client.refuse]) rfl rfl
    | true =>
      cases hencode : operation.payload.encode c.config.maxFrameBytes.toNat with
      | error e =>
        refine Touch.of_silent ?_ ?_ rfl rfl
        · simp [hencode, Client.refuse]
        · simp [Client.yield, hencode, Client.refuse]
      | ok payload =>
        refine Touch.of_silent ?_ ?_ rfl rfl
        · simp [hencode]
        · simp [Client.yield, hencode]
  | enlist listener operation payload => exact touch_enlist c id listener operation payload
  | submissionSent i result => exact touch_submissionSent c id i result
  | decide i d => exact touch_decide c id i d
  | claim i d => exact touch_claim c id i d
  | decisionSent i d result => exact touch_decisionSent c id i d result
  | decided i d result => exact Touch.of_silent rfl (by simp [Client.yield]) rfl rfl
  | dispatch m =>
    refine Touch.of_silent rfl ?_ rfl rfl
    cases m <;> simp [Client.yield, Client.taskOf]
  | accept i result => exact touch_accept c id i result
  | finish i outcome kind => exact touch_finish c id i outcome kind
  | report i severity text => exact touch_report c id i severity text
  | sweep => exact touch_sweep c id
  | announce o =>
    exact Touch.of_silent rfl (by simp [Client.yield]) rfl rfl
  | drain i => exact touch_drain c id i
  | called i callback panicked => exact touch_called c id i callback panicked
  | resolve i outcome => exact touch_resolve c id i outcome
  | subscribe i tag => exact touch_subscribe c id i tag
  | raise u =>
    -- a call out is about the operation itself, or about something else
    by_cases hu : u.about id = true
    · have hframes : (c.perform (.raise u)).frames.filter (Frame.about id) = [.inside u] :=
        List.filter_cons_of_pos hu
      have hbegan : (c.perform (.raise u)).events.filterMap (Event.begunAbout id) = [u] :=
        List.filterMap_cons_some (if_pos hu)
      have hyield : c.yield (.raise u) id = { frames := [.inside u], began := [u] } := by
        rw [Client.yield, hframes, hbegan]
        rfl
      rw [hyield]
      exact .raised hu
    · have hframes : (c.perform (.raise u)).frames.filter (Frame.about id) = [] :=
        List.filter_cons_of_neg hu
      have hbegan : (c.perform (.raise u)).events.filterMap (Event.begunAbout id) = [] :=
        List.filterMap_cons_none (if_neg hu)
      have hframe : (Frame.todo (.raise u)).about id = false := Bool.eq_false_iff.mpr hu
      refine Touch.of_silent rfl ?_ hframe rfl
      rw [Client.yield, hframes, hbegan]
      rfl

end

/-- A delivery keeps its listener and its sink, which it got when its operation was enlisted. -/
theorem Touch.addressed {id : OperationId} {v v' : View} {t : Task} {y : Yield}
    (touch : Touch id v t v' y) {d : Delivery} (h : v'.delivery = some d) :
    (∃ before, v.delivery = some before ∧ before.listener = d.listener ∧ before.sink = d.sink) ∨
      ∃ operation payload, t = .enlist d.listener operation payload ∧ operation.sink = d.sink ∧
        y.enlisted = true := by
  cases touch with
  | enlisted listener operation payload =>
    obtain rfl := Option.some.inj h
    exact Or.inr ⟨operation, payload, rfl, rfl, rfl⟩
  | accepted | finished | reported | swept =>
    obtain ⟨before, hbefore, rfl⟩ := Option.map_eq_some_iff.mp h
    exact Or.inl ⟨before, hbefore, rfl, rfl⟩
  | released hdelivery | popped hdelivery | resolved hdelivery | subscribed hdelivery =>
    obtain rfl := Option.some.inj h
    exact Or.inl ⟨_, hdelivery, rfl, rfl⟩
  | _ => exact Or.inl ⟨d, h, rfl, rfl⟩

end TwoPhase
