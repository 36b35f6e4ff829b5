import TwoPhase.Proofs.ClientThreads.Frames
import TwoPhase.Proofs.ClientThreads.Observations
/-
Which operation a move belongs to.

Submissions and sweeps apart, every frame belongs to one operation (`Frame.owner?`), and so do the frames
that it leaves. A move that belongs to an operation looks at the entry, the delivery and the handle of
that operation and at nothing else of the client but the identifier to be given next, so two clients that
look alike to the operation make the same move (`perform_twin`); and it leaves every other operation as it
is (`view_perform_of_ne`).
-/

set_option autoImplicit false

namespace TwoPhase

open Client (Task Frame Upcall Answer Event Stride)

/-! ## Owners -/

namespace Client

/-- The operation that a call out belongs to. -/
def Upcall.owner? : Upcall → Option OperationId
  | .observe o => o.id?
  | .send m => some m.id
  | .notify id _ | .outcome id _ _ => some id

/-- The operation that a task belongs to. A submission has none yet, and a sweep is about all of them. -/
def Task.owner? : Task → Option OperationId
  | .submit .. | .enlist .. | .sweep => none
  | .submissionSent id _ | .decide id _ | .claim id _ | .decisionSent id _ _ | .decided id _ _
  | .accept id _ | .finish id _ _ | .report id _ _ | .drain id | .called id _ _ | .resolve id _
  | .subscribe id _ => some id
  | .dispatch m => m.id?
  | .announce o => o.id?
  | .raise u => u.owner?

/-- The operation that a frame belongs to. -/
def Frame.owner? : Frame → Option OperationId
  | .todo t => t.owner?
  | .inside u => u.owner?

end Client

/-- The operation that something in the past belongs to. -/
def Mark.owner? : Mark → Option OperationId
  | .moved t _ => t.owner?
  | .enlisted id => some id
  | .answered u _ => u.owner?

namespace Client

variable {id : OperationId} {t : Task}

/-- A call out leaves frames to the operation that it belongs to. -/
theorem Upcall.owner_resume {u : Upcall} (howner : u.owner? = some id) (a : Answer) :
    ∀ f ∈ u.resume a, f.owner? = some id := by
  have hresumes := u.resumes a
  generalize u.resume a = frames at hresumes
  cases hresumes with
  | submitted | called => simpa [Frame.owner?, Task.owner?, Upcall.owner?] using howner
  | decided => simpa [Frame.owner?, Task.owner?, Upcall.owner?] using howner
  | observed | told => simp

/-- Nothing is given an identifier in a move that belongs to an operation. -/
theorem allots_of_owner (howner : t.owner? = some id) (c : Client) : c.allots t = none := by
  cases t with
  | enlist => contradiction
  | _ => rfl

/-- A move that belongs to an operation leaves one mark. -/
theorem marks_of_owner (howner : t.owner? = some id) (c : Client) :
    c.marks t = [.moved t (c.perform t).events] := by
  rw [marks, allots_of_owner howner]
  rfl

/-- Nor does it use an identifier up. -/
theorem nextId_of_owner (howner : t.owner? = some id) (c : Client) :
    (c.perform t).client.nextId = c.nextId := by
  rw [(c.header_perform t).1, allots_of_owner howner]

/-- **A move leaves all operations alone but the one that it belongs to.** -/
theorem view_perform_of_ne (howner : t.owner? = some id) {i : OperationId} (hne : i ≠ id)
    (c : Client) : (c.perform t).client.view i = c.view i := by
  have htouch := c.perform_touch i t
  generalize (c.perform t).client.view i = v' at htouch ⊢
  generalize c.yield t i = y at htouch
  cases htouch with
  | aside | admitted | late | decisionSent | undelivered | called | unresolved | raised => rfl
  | enlisted | swept => contradiction
  | _ => exact absurd (Option.some.inj howner) hne

/-- A move that belongs to an operation makes no delivery somebody else's. -/
theorem addressed_of_owner (howner : t.owner? = some id) {c : Client} {i : OperationId} {d : Delivery}
    (h : (c.perform t).client.deliveries.get? i = some d) :
    ∃ before, c.deliveries.get? i = some before ∧ before.listener = d.listener ∧
      before.sink = d.sink := by
  rcases (c.perform_touch i t).addressed h with hbefore | ⟨operation, payload, rfl, -⟩
  · exact hbefore
  · contradiction

/-! ## Two clients that look alike to an operation -/

/-- Two strides that are the same to an operation, and leave frames to it alone. -/
structure Stride.Twin (id : OperationId) (s s' : Stride) : Prop where
  view : s.client.view id = s'.client.view id
  frames : s.frames = s'.frames
  events : s.events = s'.events
  owned : ∀ f ∈ s.frames, f.owner? = some id

theorem owner_drainIf (id : OperationId) (owed : Bool) :
    ∀ f ∈ drainIf id owed, f.owner? = some id := by
  cases owed <;> simp [drainIf, Frame.owner?, Task.owner?]

section

variable {c c' : Client}

/-- A callback that is queued for an operation looks the same to it in both clients. -/
theorem twin_enqueue (hview : c.view id = c'.view id) (callback : Callback) (before : List Frame)
    (hbefore : ∀ f ∈ before, f.owner? = some id) (events : List Event) :
    Stride.Twin id
      ⟨(c.enqueue id callback).1, before ++ drainIf id (c.enqueue id callback).2, events⟩
      ⟨(c'.enqueue id callback).1, before ++ drainIf id (c'.enqueue id callback).2, events⟩ where
  view := by rw [view_enqueue, view_enqueue, hview]
  frames := by rw [owed_enqueue, owed_enqueue, hview]
  events := rfl
  owned f hf := (List.mem_append.mp hf).elim (hbefore f) (owner_drainIf id _ f)

/-- Whether a notification without an entry comes late depends on its identifier and the next
one alone. -/
theorem twin_drop (hview : c.view id = c'.view id) (hnext : c.nextId = c'.nextId) (kind : String) :
    Stride.Twin id (c.drop id kind) (c'.drop id kind) := by
  rw [drop, drop, hnext]
  split
  · exact ⟨hview, rfl, rfl, by simp⟩
  · exact ⟨hview, rfl, rfl, by simp [Frame.owner?, Task.owner?, Observation.id?]⟩

attribute [local simp] view count Frame.owner? Task.owner? Upcall.owner? Observation.id?
  Table.get?_insert Table.get?_erase Table.contains

/-- The news that an operation is prepared are dealt with by its entry, its delivery and the next
identifier. -/
theorem twin_accept (hview : c.view id = c'.view id) (hnext : c.nextId = c'.nextId)
    (result : Value) : Stride.Twin id (c.accept id result) (c'.accept id result) := by
  obtain ⟨hpending, hdelivery, hhandle⟩ := View.mk.inj hview
  cases hentry : c.pending.get? id with
  | none =>
    rw [accept, hentry, accept, ← hpending, hentry]
    exact twin_drop hview hnext "prepared"
  | some entry =>
    have hentry' := hpending.symm.trans hentry
    by_cases hallows : entry.phase.allows .prepared = true
    · have hpromote : (c.promote id entry result).view id = (c'.promote id entry result).view id := by
        simp [promote, hdelivery]
      rw [accept_of_allows hentry hallows, accept_of_allows hentry' hallows]
      exact twin_enqueue hpromote (.prepared result) [.todo (.announce (.prepared id))]
        (by simp) _
    · rw [accept, hentry, accept, hentry']
      simp only [if_neg hallows]
      exact ⟨hview, rfl, rfl, by simp⟩

/-- So is an end. -/
theorem twin_finish (hview : c.view id = c'.view id) (hnext : c.nextId = c'.nextId)
    (outcome : Outcome) (kind : String) :
    Stride.Twin id (c.finish id outcome kind) (c'.finish id outcome kind) := by
  obtain ⟨hpending, hdelivery, hhandle⟩ := View.mk.inj hview
  cases hentry : c.pending.get? id with
  | none =>
    rw [finish, hentry, finish, ← hpending, hentry]
    exact twin_drop hview hnext kind
  | some entry =>
    have hentry' := hpending.symm.trans hentry
    by_cases hallows : entry.phase.allows (finalPhase outcome) = true
    · have hwithout : (c.without id).view id = (c'.without id).view id := by
        simp [without, hdelivery, hhandle]
      rw [finish_of_allows hentry hallows, finish_of_allows hentry' hallows]
      exact twin_enqueue hwithout outcome.callback [.todo (.announce (ended id outcome))]
        (by cases outcome <;> simp [ended]) _
    · rw [finish, hentry, finish, hentry']
      simp only [if_neg hallows]
      exact ⟨hview, rfl, rfl, by simp⟩

/-- A report looks for an entry, and goes to the mailbox. -/
theorem twin_report (hview : c.view id = c'.view id) (severity : Severity) (text : String) :
    Stride.Twin id (c.report id severity text) (c'.report id severity text) := by
  have hpending := (View.mk.inj hview).1
  rw [report, report, Table.contains, Table.contains, hpending]
  split
  · exact twin_enqueue hview (.report severity text) [] (by simp) _
  · exact ⟨hview, rfl, rfl, by simp⟩

/-- A claim looks at the entry. -/
theorem twin_claim (hview : c.view id = c'.view id) (d : Decision) :
    Stride.Twin id (c.claim id d) (c'.claim id d) := by
  obtain ⟨hpending, hdelivery, hhandle⟩ := View.mk.inj hview
  rw [claim, claim, hpending]
  split
  · split
    · exact ⟨by simp [hdelivery, hhandle], rfl, rfl, by simp⟩
    · exact ⟨hview, rfl, rfl, by simp⟩
  · exact ⟨hview, rfl, rfl, by simp⟩

/-- A request for a decision looks at the handle. -/
theorem twin_decide (hview : c.view id = c'.view id) (d : Decision) :
    Stride.Twin id (c.decide id d) (c'.decide id d) := by
  obtain ⟨hpending, hdelivery, hhandle⟩ := View.mk.inj hview
  rw [decide, decide, hhandle]
  split
  · exact ⟨hview, rfl, rfl, by simp⟩
  · split
    · exact ⟨hview, rfl, rfl, by simp⟩
    · exact ⟨by simp [hpending, hdelivery], rfl, rfl, by simp⟩

/-- The answer to a submission takes away the entry, if there is one. -/
theorem twin_submissionSent (hview : c.view id = c'.view id) (result : Except ChannelError Unit) :
    Stride.Twin id (c.submissionSent id result) (c'.submissionSent id result) := by
  obtain ⟨hpending, hdelivery, hhandle⟩ := View.mk.inj hview
  rcases result with e | ok
  · cases hentry : c'.pending.get? id <;> constructor <;>
      simp [submissionSent, hpending, hdelivery, hhandle, hentry]
  · exact ⟨hview, rfl, rfl, by simp [submissionSent]⟩

/-- A deliverer looks at its mailbox, and at nothing else. -/
theorem twin_drain (hview : c.view id = c'.view id) :
    Stride.Twin id (c.drain id) (c'.drain id) := by
  obtain ⟨hpending, hdelivery, hhandle⟩ := View.mk.inj hview
  rw [drain, drain, hdelivery]
  split
  · exact ⟨hview, rfl, rfl, by simp⟩
  · rename_i d hd
    rcases hpop : d.mailbox.pop with ⟨_ | callback, mailbox⟩
    · exact ⟨by simp [hpending, hhandle], rfl, rfl, by simp⟩
    · exact ⟨by simp [hpending, hhandle], rfl, rfl, by simp⟩

/-- A resolution looks at the outcome cell, and so does a registration. -/
theorem twin_resolve (hview : c.view id = c'.view id) (outcome : Outcome) :
    Stride.Twin id (c.resolve id outcome) (c'.resolve id outcome) := by
  obtain ⟨hpending, hdelivery, hhandle⟩ := View.mk.inj hview
  rw [resolve, resolve, hdelivery]
  split
  · exact ⟨hview, rfl, rfl, by simp⟩
  · exact ⟨by simp [hpending, hhandle], rfl, rfl, by simp⟩

theorem twin_subscribe (hview : c.view id = c'.view id) (tag : String) :
    Stride.Twin id (c.subscribe id tag) (c'.subscribe id tag) := by
  obtain ⟨hpending, hdelivery, hhandle⟩ := View.mk.inj hview
  rw [subscribe, subscribe, hdelivery]
  split
  · exact ⟨hview, rfl, rfl, by simp⟩
  · rename_i d hd
    rcases hknown : d.outcome.subscribe tag with ⟨cell, _ | outcome⟩
    · exact ⟨by simp [hpending, hhandle], rfl, rfl, by simp⟩
    · exact ⟨by simp [hpending, hhandle], rfl, rfl, by simp⟩

/-- **A move looks at nothing but the operation that it belongs to.** -/
theorem perform_twin (howner : t.owner? = some id) (hview : c.view id = c'.view id)
    (hnext : c.nextId = c'.nextId) : Stride.Twin id (c.perform t) (c'.perform t) := by
  -- one lemma for each task that looks anything up; the others are the same in both
  cases t with
  | submit | enlist | sweep => contradiction
  | submissionSent i result =>
    obtain rfl : i = id := Option.some.inj howner
    exact twin_submissionSent hview result
  | decide i d =>
    obtain rfl : i = id := Option.some.inj howner
    exact twin_decide hview d
  | claim i d =>
    obtain rfl : i = id := Option.some.inj howner
    exact twin_claim hview d
  | decisionSent i d result =>
    obtain rfl : i = id := Option.some.inj howner
    rcases result with e | ok <;>
      exact ⟨hview, rfl, rfl, by simp [perform, decisionSent]⟩
  | decided i d result => exact ⟨hview, rfl, rfl, by simp [perform]⟩
  | dispatch m =>
    refine ⟨hview, rfl, rfl, fun f hf => ?_⟩
    rw [List.mem_singleton.mp hf]
    cases m with
    | channelClosed => contradiction
    | _ => exact howner
  | accept i result =>
    obtain rfl : i = id := Option.some.inj howner
    exact twin_accept hview hnext result
  | finish i outcome kind =>
    obtain rfl : i = id := Option.some.inj howner
    exact twin_finish hview hnext outcome kind
  | report i severity text =>
    obtain rfl : i = id := Option.some.inj howner
    exact twin_report hview severity text
  | announce o => exact ⟨hview, rfl, rfl, by simpa [perform] using howner⟩
  | drain i =>
    obtain rfl : i = id := Option.some.inj howner
    exact twin_drain hview
  | called i callback panicked =>
    obtain rfl : i = id := Option.some.inj howner
    refine ⟨hview, rfl, rfl, fun f hf => ?_⟩
    cases houtcome : callback.outcome? with
    | none => simp [perform, called, houtcome] at hf
    | some outcome =>
      obtain rfl : f = _ := by simpa [perform, called, houtcome] using hf
      rfl
  | resolve i outcome =>
    obtain rfl : i = id := Option.some.inj howner
    exact twin_resolve hview outcome
  | subscribe i tag =>
    obtain rfl : i = id := Option.some.inj howner
    exact twin_subscribe hview tag
  | raise u => exact ⟨hview, rfl, rfl, by simpa [perform] using howner⟩

end

end Client

end TwoPhase
