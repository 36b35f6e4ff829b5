import TwoPhase.Initiator.Handle
import TwoPhase.Proofs.ClientThreads.Histories
import TwoPhase.Proofs.ClientThreads.Tables
/-
What a close tells.

Whoever closes a client takes everything out of the table in one move, and tells about it afterwards,
call by call, while listeners and other threads may ask for whatever they like. A client that was swept
takes nothing in and sends nothing, so what is told from then on was settled by the sweep: what was told
and what the thread that closes has still to tell (`Client.dues`) are together always the same, and
nobody else has anything to tell (`Sweeping`).
-/

set_option autoImplicit false

namespace TwoPhase

open Client (Task Frame Upcall Answer Event Stride)

/-! ## Clients that were swept -/

/-- A client that was swept has nothing pending, and takes nothing in any more. -/
structure Client.Swept (k : Client) : Prop where
  closed : k.closed = true
  empty : ∀ id, k.pending.get? id = none

namespace Client

variable {k : Client}

theorem Swept.perform (h : k.Swept) (t : Task) : (k.perform t).client.Swept := by
  have hclosed := (k.header_perform t).2
  rw [h.closed, Bool.true_or] at hclosed
  refine ⟨hclosed, fun id => ?_⟩
  -- what is pending was so before, or was enlisted just now, which a closed client refuses
  by_contra hpending
  rcases (k.perform_touch id t).pending hpending with hentry | henlisted
  · exact hentry (h.empty id)
  · have hallots : k.allots t = some id := by simpa [yield] using henlisted
    cases t <;> simp [allots, h.closed] at hallots

theorem swept_of_sweep (k : Client) : (k.perform .sweep).client.Swept := by
  obtain ⟨deliveries, h⟩ := k.sweep_frame
  rw [Client.perform, h]
  exact ⟨rfl, fun id => rfl⟩

/-- Another sweep changes nothing and tells nobody. -/
theorem Swept.sweep (h : k.Swept) : k.perform .sweep = ⟨k, [], []⟩ := by
  obtain ⟨config, nextId, closed, pending, deliveries, handles, stats⟩ := k
  obtain rfl : pending = .empty := Table.ext_get? fun id => (h.empty id).trans (Table.get?_empty id).symm
  obtain rfl : closed = true := h.closed
  rfl

end Client

/-! ## What is told -/

/-- Whether a call out tells how operations go, or hands a message over: all do but those that name a
violation of the protocol, and those to subscribers. -/
def Client.Upcall.tells : Upcall → Bool
  | .observe (.violation _) | .outcome .. => false
  | _ => true

/-- What is told, in marks. -/
def Mark.tales (marks : List Mark) : List Upcall := (marks.flatMap Mark.entered).filter Upcall.tells

@[simp] theorem Mark.tales_append (first rest : List Mark) :
    tales (first ++ rest) = tales first ++ tales rest := by
  rw [tales, List.flatMap_append, List.filter_append]
  rfl

@[simp] theorem Mark.tales_nil : tales [] = [] := rfl

namespace Client

/-- What waits in the mailbox of an operation. -/
def mail (c : Client) (id : OperationId) : List Callback :=
  ((c.deliveries.get? id).map (·.mailbox.queue)).getD []

/-- What a frame is going to call. -/
def due (c : Client) : Frame → List Upcall
  | .todo (.announce o) => [.observe o]
  | .todo (.raise u) => [u]
  | .todo (.drain id) => (c.mail id).map (.notify id)
  | _ => []

/-- What a stack is going to tell. -/
def dues (c : Client) (stack : List Frame) : List Upcall := (stack.flatMap c.due).filter Upcall.tells

@[simp] theorem dues_nil (c : Client) : c.dues [] = [] := rfl

@[simp] theorem dues_append (c : Client) (first rest : List Frame) :
    c.dues (first ++ rest) = c.dues first ++ c.dues rest := by
  rw [dues, List.flatMap_append, List.filter_append]
  rfl

theorem dues_cons (c : Client) (f : Frame) (rest : List Frame) :
    c.dues (f :: rest) = c.dues [f] ++ c.dues rest := dues_append c [f] rest

/-- Whether a frame is on its way to tell something, or comes from a callback. -/
def Frame.isNews : Frame → Bool
  | .todo (.announce o) => (Upcall.observe o).tells
  | .todo (.raise u) => u.tells
  | .todo (.drain _) | .todo (.called ..) | .todo (.resolve ..) => true
  | .inside (.notify ..) => true
  | _ => false

/-- What is asked of the frames of a client that was swept: nothing is on its way to the channel or comes
back from there, and no decision was taken down. -/
def Frame.Barren : Frame → Prop
  | .todo (.submissionSent ..) | .todo (.decisionSent ..) => False
  | .todo (.raise (.send _)) | .inside (.send _) => False
  | .todo (.decided id _ result) => result = .error (.alreadyFinalized id)
  | _ => True

/-- Whether an event is no more than a refusal, if it answers a caller at all. -/
def Event.Declines : Event → Prop
  | .submission id result => id = none ∧ ∃ e, result = .error e
  | .decision id _ result => result = .error (.alreadyFinalized id)
  | _ => True

/-! ## What a swept client does

Of the news there are only those that the sweep left. -/

/-- The moves of a client that was swept. -/
inductive Late (c : Client) : Task → Stride → Prop
  /-- A task that brings no news tells nothing, and leaves no frame that does. -/
  | aside {t : Task} {k : Client} {frames : List Frame} {shown : List Event}
      (ht : (Frame.todo t).isNews = false) (hmail : ∀ i, k.mail i = c.mail i)
      (hframes : ∀ f ∈ frames, f.Barren ∧ f.isNews = false)
      (hshown : ∀ e ∈ shown, e.Declines ∧ e.entered? = none) : Late c t ⟨k, frames, shown⟩
  | announced (o : Observation) :
      Late c (.announce o) ⟨c.count o.counter, [.todo (.raise (.observe o))], []⟩
  | raised {u : Upcall} (hu : ∀ m, u ≠ .send m) : Late c (.raise u) ⟨c, [.inside u], [.began u]⟩
  | called {id : OperationId} {callback : Callback} {panicked : Bool} {frames : List Frame}
      {shown : List Event} (hframes : ∀ f ∈ frames, ∃ o, f = .todo (.resolve id o))
      (hshown : ∀ e ∈ shown, ∃ n, e = .noted n) :
      Late c (.called id callback panicked) ⟨c, frames, shown⟩
  | resolved {id : OperationId} {o : Outcome} {k : Client} (tags : List String)
      (hmail : ∀ i, k.mail i = c.mail i) :
      Late c (.resolve id o) ⟨k, tags.map fun tag => .todo (.raise (.outcome id tag o)), []⟩
  | released {id : OperationId} {k : Client} (hmail : ∀ i, k.mail i = c.mail i)
      (hnone : c.mail id = []) : Late c (.drain id) ⟨k, [], []⟩
  | popped {id : OperationId} {k : Client} {callback : Callback}
      (hmail : c.mail id = callback :: k.mail id) (hothers : ∀ i, i ≠ id → k.mail i = c.mail i) :
      Late c (.drain id) ⟨k, [.todo (.raise (.notify id callback)), .todo (.drain id)], []⟩

section

variable {c : Client} {t : Task}

theorem mail_insert_of_queue {id : OperationId} {d d' : Delivery} (hd : c.deliveries.get? id = some d)
    (hqueue : d'.mailbox.queue = d.mailbox.queue) (i : OperationId) :
    mail { c with deliveries := c.deliveries.insert id d' } i = c.mail i := by
  by_cases hi : i = id
  · subst hi
    simp [mail, Table.get?_insert, hd, hqueue]
  · simp [mail, Table.get?_insert, hi]

/-- What changes nothing and leaves no frame is no news. -/
theorem late_of_shown {shown : List Event} (ht : (Frame.todo t).isNews = false)
    (hshown : ∀ e ∈ shown, e.Declines ∧ e.entered? = none) : Late c t ⟨c, [], shown⟩ :=
  .aside ht (fun _ => rfl) (List.forall_mem_nil _) hshown

/-- What changes nothing and shows nothing is no news, if it leaves none. -/
theorem late_of_frames {frames : List Frame} (ht : (Frame.todo t).isNews = false)
    (hframes : ∀ f ∈ frames, f.Barren ∧ f.isNews = false) : Late c t ⟨c, frames, []⟩ :=
  .aside ht (fun _ => rfl) hframes (List.forall_mem_nil _)

theorem late_drop {id : OperationId} {kind : String} (ht : (Frame.todo t).isNews = false) :
    Late c t (c.drop id kind) := by
  rw [drop]
  split
  · -- a duplicate is counted, so the client is another one
    exact .aside ht (fun _ => rfl) (List.forall_mem_nil _) (by simp [Event.Declines, Event.entered?])
  · exact .aside ht (fun _ => rfl) (by simp [Frame.Barren, Frame.isNews, Upcall.tells])
      (by simp [Event.Declines, Event.entered?])

theorem late_drain (id : OperationId) : Late c (.drain id) (c.perform (.drain id)) := by
  rw [Client.perform, drain]
  cases hd : c.deliveries.get? id with
  | none => exact .released (fun _ => rfl) (by simp [mail, hd])
  | some d =>
    obtain ⟨listener, sink, ⟨queue, delivering⟩, outcome⟩ := d
    cases queue with
    | nil => exact .released (mail_insert_of_queue hd rfl) (by simp [mail, hd])
    | cons callback rest =>
      refine .popped ?_ fun i hi => ?_
      · simp [mail, hd, Table.get?_insert]
      · simp [mail, Table.get?_insert, hi]

theorem late_decide (id : OperationId) (d : Decision) :
    Late c (.decide id d) (c.perform (.decide id d)) := by
  rw [Client.perform, decide]
  split
  · exact late_of_frames rfl (by simp [Frame.Barren, Frame.isNews])
  · split
    · exact .aside rfl (fun _ => rfl) (by simp [Frame.Barren, Frame.isNews])
        (by simp [Event.Declines, Event.entered?])
    · -- the handle remembers that it was asked, though it was asked too late
      exact .aside rfl (fun _ => rfl) (by simp [Frame.Barren, Frame.isNews]) (List.forall_mem_nil _)

theorem late_called (id : OperationId) (callback : Callback) (panicked : Bool) :
    Late c (.called id callback panicked) (c.perform (.called id callback panicked)) := by
  refine .called (fun f hf => ?_) (fun e he => ?_)
  · cases callback with
    | complete result => exact ⟨_, List.mem_singleton.mp hf⟩
    | failed failure => exact ⟨_, List.mem_singleton.mp hf⟩
    | _ => contradiction
  · cases panicked with
    | true => exact ⟨_, List.mem_singleton.mp he⟩
    | false => contradiction

theorem late_resolve (id : OperationId) (outcome : Outcome) :
    Late c (.resolve id outcome) (c.perform (.resolve id outcome)) := by
  rw [Client.perform, resolve]
  cases hd : c.deliveries.get? id with
  | none => exact .resolved [] fun _ => rfl
  | some d => exact .resolved _ (mail_insert_of_queue hd rfl)

theorem late_subscribe (id : OperationId) (tag : String) :
    Late c (.subscribe id tag) (c.perform (.subscribe id tag)) := by
  rw [Client.perform, subscribe]
  cases hd : c.deliveries.get? id with
  | none => exact late_of_frames rfl (List.forall_mem_nil _)
  | some d =>
    refine .aside rfl (mail_insert_of_queue hd rfl) (fun f hf => ?_) (List.forall_mem_nil _)
    -- whoever subscribes too late is told at once, but that is no listener
    cases hknown : d.outcome.outcome with
    | none => simp [hknown] at hf
    | some o =>
      obtain rfl : f = .todo (.raise (.outcome id tag o)) := by simpa [hknown] using hf
      exact ⟨trivial, rfl⟩

end

/-- **The list is complete**, for whatever can stand on a stack. -/
theorem Swept.late {c : Client} {t : Task} (h : c.Swept) (ht : (Frame.todo t).Barren) :
    Late c t (c.perform t) := by
  have hclosed := h.closed
  -- the table stays empty and no entry can be made, so every task that needs an entry finds none
  cases t with
  | submit channelOpen listener operation =>
    cases channelOpen with
    | false => exact late_of_shown rfl (by simp [Event.Declines, Event.entered?])
    | true =>
      rw [Client.perform, if_pos rfl]
      split
      · exact late_of_shown rfl (by simp [Event.Declines, Event.entered?])
      · exact late_of_frames rfl (by simp [Frame.Barren, Frame.isNews])
  | enlist listener operation payload =>
    rw [Client.perform, enlist, if_pos hclosed]
    exact late_of_shown rfl (by simp [Event.Declines, Event.entered?])
  | submissionSent id result => contradiction
  | decisionSent id d result => contradiction
  | decide id d => exact late_decide id d
  | claim id d =>
    rw [Client.perform, claim, h.empty]
    exact late_of_frames rfl (by simp [Frame.Barren, Frame.isNews])
  | decided id d result =>
    refine late_of_shown rfl fun e he => ?_
    obtain rfl := List.mem_singleton.mp he
    exact ⟨ht, rfl⟩
  | dispatch m =>
    refine .aside rfl (fun _ => rfl) ?_ (by simp [Event.Declines, Event.entered?])
    cases m <;> simp [taskOf, Frame.Barren, Frame.isNews]
  | accept id result =>
    rw [Client.perform, accept, h.empty]
    exact late_drop rfl
  | finish id outcome kind =>
    rw [Client.perform, finish, h.empty]
    exact late_drop rfl
  | report id severity text =>
    rw [Client.perform, report, Table.contains, h.empty]
    exact late_of_shown rfl (by simp [Event.Declines, Event.entered?])
  | sweep =>
    rw [h.sweep]
    exact late_of_frames rfl (List.forall_mem_nil _)
  | announce o => exact .announced o
  | drain id => exact late_drain id
  | called id callback panicked => exact late_called id callback panicked
  | resolve id outcome => exact late_resolve id outcome
  | subscribe id tag => exact late_subscribe id tag
  | raise u =>
    refine .raised ?_
    rintro m rfl
    exact ht

/-- Where nothing comes back from the channel, only callbacks leave anything when they return. -/
theorem Upcall.Resumes.called_of_barren {u : Upcall} {frames : List Frame} (h : u.Resumes frames)
    (hu : (Frame.inside u).Barren) : ∀ f ∈ frames, ∃ id callback panicked,
      u = .notify id callback ∧ f = .todo (.called id callback panicked) := by
  intro f hf
  cases h with
  | submitted => contradiction
  | @decided id d => cases d <;> contradiction
  | called => exact ⟨_, _, _, rfl, List.mem_singleton.mp hf⟩
  | observed => contradiction
  | told => contradiction

namespace Late

variable {c : Client} {t : Task} {y : Stride}

theorem barren (h : Late c t y) : ∀ f ∈ y.frames, f.Barren := by
  intro f hf
  cases h with
  | aside ht hmail hframes hshown => exact (hframes f hf).1
  | announced o =>
    obtain rfl := List.mem_singleton.mp hf
    trivial
  | @raised u hu =>
    obtain rfl := List.mem_singleton.mp hf
    cases u with
    | send m => exact absurd rfl (hu m)
    | _ => trivial
  | called hframes hshown =>
    obtain ⟨o, rfl⟩ := hframes f hf
    trivial
  | resolved tags hmail =>
    obtain ⟨tag, -, rfl⟩ := List.mem_map.mp hf
    trivial
  | released hmail hnone => contradiction
  | popped hmail hothers =>
    rcases List.mem_pair.mp hf with rfl | rfl <;> trivial

/-- Only what brings news leaves any. -/
theorem news (h : Late c t y) (ht : (Frame.todo t).isNews = false) : ∀ f ∈ y.frames, f.isNews = false := by
  intro f hf
  cases h with
  | aside _ hmail hframes hshown => exact (hframes f hf).2
  | announced o =>
    obtain rfl := List.mem_singleton.mp hf
    exact ht
  | @raised u hu =>
    obtain rfl := List.mem_singleton.mp hf
    cases u with
    | notify id callback => contradiction
    | _ => rfl
  | _ => contradiction

theorem drains (h : Late c t y) (id : OperationId) :
    y.frames.countP (Frame.drains id) ≤ [Frame.todo t].countP (Frame.drains id) := by
  have hnone {frames : List Frame} (hframes : ∀ f ∈ frames, f.drains id = false) :
      frames.countP (Frame.drains id) ≤ [Frame.todo t].countP (Frame.drains id) := by
    rw [List.countP_eq_zero.mpr fun f hf => Bool.eq_false_iff.mp (hframes f hf)]
    exact Nat.zero_le _
  cases h with
  | popped hmail hothers => simp [List.countP_cons, Frame.drains]
  | aside _ _ hframes _ =>
    refine hnone fun f hf => ?_
    have hnews := (hframes f hf).2
    cases f with
    | inside u => rfl
    | todo t => cases t <;> first | rfl | contradiction
  | called hframes hshown =>
    refine hnone fun f hf => ?_
    obtain ⟨o, rfl⟩ := hframes f hf
    rfl
  | _ => exact hnone (by simp [Frame.drains])

theorem declines (h : Late c t y) : ∀ e ∈ y.events, e.Declines := by
  intro e he
  cases h with
  | aside _ _ _ hshown => exact (hshown e he).1
  | raised hu =>
    obtain rfl := List.mem_singleton.mp he
    trivial
  | called _ hshown =>
    obtain ⟨n, rfl⟩ := hshown e he
    trivial
  | _ => contradiction

/-- Mailboxes are emptied by their deliverers only. -/
theorem mail (h : Late c t y) {i : OperationId} (hi : t ≠ .drain i) : y.client.mail i = c.mail i := by
  cases h with
  | aside _ hmail _ _ => exact hmail i
  | resolved _ hmail => exact hmail i
  | released hmail _ => exact hmail i
  | popped _ hothers => exact hothers i fun h => hi (h ▸ rfl)
  | _ => rfl

end Late

/-- What brings no news tells nothing. -/
theorem dues_of_quiet (c : Client) {stack : List Frame} (h : ∀ f ∈ stack, f.isNews = false) :
    c.dues stack = [] := by
  rw [dues, List.filter_eq_nil_iff]
  intro u hu
  obtain ⟨f, hf, hdue⟩ := List.mem_flatMap.mp hu
  have hnews := h f hf
  rcases f with t | u'
  · cases t with
    | announce o =>
      obtain rfl := List.mem_singleton.mp hdue
      exact Bool.eq_false_iff.mp hnews
    | raise u' =>
      obtain rfl := List.mem_singleton.mp hdue
      exact Bool.eq_false_iff.mp hnews
    | drain id => contradiction
    | _ => contradiction
  · contradiction

/-- What is to be told from a stack depends on the mailboxes whose deliverers stand there. -/
theorem dues_congr {c k : Client} {stack : List Frame}
    (h : ∀ id, .todo (.drain id) ∈ stack → k.mail id = c.mail id) : k.dues stack = c.dues stack := by
  refine congrArg (List.filter Upcall.tells) (List.flatMap_congr fun f hf => ?_)
  rcases f with t | u
  · cases t with
    | drain id => simp only [due, h id hf]
    | _ => rfl
  · rfl

/-- What was to be told by a frame is told when it moves, or still to be told by what it leaves. -/
theorem Late.dues {c : Client} {t : Task} {y : Stride} (h : Late c t y) :
    (y.events.filterMap Event.entered?).filter Upcall.tells ++ y.client.dues y.frames =
      c.dues [.todo t] := by
  cases h with
  | aside ht hmail hframes hshown =>
    rw [dues_of_quiet _ fun f hf => (hframes f hf).2, dues_of_quiet c (by simpa using ht),
      List.filterMap_eq_nil_iff.mpr fun e he => (hshown e he).2]
    rfl
  | announced o => rfl
  | raised hu => simp [Client.dues, due, Event.entered?]
  | @called id callback panicked frames shown hframes hshown =>
    have hdues : frames.flatMap c.due = [] := List.flatMap_eq_nil_iff.mpr fun f hf => by
      obtain ⟨o, rfl⟩ := hframes f hf
      rfl
    have htold : shown.filterMap Event.entered? = [] := List.filterMap_eq_nil_iff.mpr fun e he => by
      obtain ⟨n, rfl⟩ := hshown e he
      rfl
    simp [Client.dues, due, hdues, htold]
  | resolved tags hmail =>
    rw [dues_of_quiet]
    · rfl
    · simp [Frame.isNews, Upcall.tells]
  | released hmail hnone => simp [Client.dues, due, hnone]
  | popped hmail hothers => simp [Client.dues, due, hmail]

end Client

namespace ClientThreads

/-! ## The thread that closes, and the others -/

/-- The stack of the thread that still tells, if one does. -/
def stackOf (s : ClientThreads) (teller : Option Nat) : List Frame :=
  (teller.bind fun n => s.threads[n]?).getD []

/-- The threads of a client that was swept, and what happened since: what was told then and what one
thread is going to tell are the agenda, and nobody else tells anything. -/
structure Sweeping (teller : Option Nat) (agenda : List Upcall) (s : ClientThreads) (news : List Mark) :
    Prop where
  swept : s.client.Swept
  barren : ∀ (i : Nat) stack, s.threads[i]? = some stack → ∀ f ∈ stack, f.Barren
  others : ∀ (i : Nat) stack, s.threads[i]? = some stack → teller ≠ some i →
    ∀ f ∈ stack, f.isNews = false
  /-- Nothing is handed out twice. -/
  drains : ∀ id, (s.stackOf teller).countP (Frame.drains id) ≤ 1
  told : Mark.tales news ++ s.client.dues (s.stackOf teller) = agenda
  declined : ∀ t shown, .moved t shown ∈ news → ∀ e ∈ shown, e.Declines

variable {s : ClientThreads} {teller : Option Nat} {agenda : List Upcall} {news : List Mark}

theorem stackOf_of_thread {i : Nat} {stack : List Frame} (hi : s.threads[i]? = some stack)
    (hteller : teller = some i) : s.stackOf teller = stack := by
  rw [stackOf, hteller, Option.bind_some, hi]
  rfl

theorem stackOf_set_of_ne {i : Nat} {new : List Frame} {k : Client} {past : List Mark}
    (hteller : teller ≠ some i) : stackOf ⟨k, s.threads.set i new, past⟩ teller = s.stackOf teller := by
  cases teller with
  | none => rfl
  | some n =>
    have hne : i ≠ n := fun h => hteller (congrArg some h.symm)
    simp only [stackOf, Option.bind_some, List.getElem?_set_ne hne]

namespace Sweeping

variable (h : Sweeping teller agenda s news)
include h

/-- Whatever is handed out on a thread is handed out once. -/
theorem drains_le {i : Nat} {stack : List Frame} (hi : s.threads[i]? = some stack) (id : OperationId) :
    stack.countP (Frame.drains id) ≤ 1 := by
  by_cases hteller : teller = some i
  · have hdrains := h.drains id
    rwa [stackOf_of_thread hi hteller] at hdrains
  · rw [List.countP_eq_zero.mpr fun f hf hdrain => ?_]
    · exact Nat.zero_le 1
    · have hquiet := h.others i stack hi hteller f hf
      rcases f with t | u
      · cases t <;> contradiction
      · contradiction

/-- A thread may put other frames in the place of its own, if what it tells by that was to be told. -/
theorem replaced {i : Nat} {old new : List Frame} {k : Client} {marks past : List Mark}
    (hi : s.threads[i]? = some old) (hswept : k.Swept) (hbarren : ∀ f ∈ new, f.Barren)
    (hquiet : teller ≠ some i → ∀ f ∈ new, f.isNews = false)
    (hmail : teller ≠ some i → ∀ id, k.mail id = s.client.mail id)
    (hdrains : ∀ id, new.countP (Frame.drains id) ≤ old.countP (Frame.drains id))
    (htold : Mark.tales marks ++ k.dues new = s.client.dues old)
    (hdeclined : ∀ t shown, .moved t shown ∈ marks → ∀ e ∈ shown, e.Declines) :
    Sweeping teller agenda ⟨k, s.threads.set i new, past⟩ (news ++ marks) := by
  have hset : (s.threads.set i new)[i]? = some new := by
    rw [List.getElem?_set_self (List.getElem?_eq_some_iff.mp hi).1]
  have hthreads {P : Nat → List Frame → Prop} (hnew : P i new)
      (hold : ∀ j stack, s.threads[j]? = some stack → P j stack) :
      ∀ (j : Nat) stack, (s.threads.set i new)[j]? = some stack → P j stack := by
    intro j stack hj
    rcases getElem?_set_cases hj with ⟨rfl, rfl⟩ | ⟨-, hj⟩
    · exact hnew
    · exact hold j stack hj
  refine ⟨hswept, hthreads hbarren h.barren, hthreads hquiet h.others, fun id => ?_, ?_,
    fun t shown hmem => (List.mem_append.mp hmem).elim (h.declined t shown) (hdeclined t shown)⟩
  · by_cases hteller : teller = some i
    · rw [@stackOf_of_thread ⟨k, s.threads.set i new, past⟩ teller i new hset hteller]
      exact Nat.le_trans (hdrains id) (h.drains_le hi id)
    · rw [stackOf_set_of_ne hteller]
      exact h.drains id
  · rw [Mark.tales_append, List.append_assoc]
    by_cases hteller : teller = some i
    · rw [@stackOf_of_thread ⟨k, s.threads.set i new, past⟩ teller i new hset hteller, htold]
      have htold := h.told
      rwa [stackOf_of_thread hi hteller] at htold
    · -- whoever is not to tell anything has told nothing
      rw [Client.dues_of_quiet _ (h.others i old hi hteller)] at htold
      rw [stackOf_set_of_ne hteller, (List.append_eq_nil_iff.mp htold).1, List.nil_append,
        Client.dues_congr fun id _ => hmail hteller id]
      exact h.told

theorem joined : Sweeping teller agenda (s.act .join) news := by
  have hthreads {P : Nat → List Frame → Prop} (hnew : ∀ j, P j [])
      (hold : ∀ j stack, s.threads[j]? = some stack → P j stack) :
      ∀ (j : Nat) stack, (s.threads ++ [[]])[j]? = some stack → P j stack := by
    intro j stack hj
    rcases getElem?_snoc hj with hj | ⟨-, rfl⟩
    · exact hold j stack hj
    · exact hnew j
  have hstack : (s.act .join).stackOf teller = s.stackOf teller := by
    cases teller with
    | none => rfl
    | some n =>
      simp only [stackOf, act, Option.bind_some, List.getElem?_append]
      split
      · rfl
      · rename_i hn
        rw [List.getElem?_eq_none (Nat.le_of_not_lt hn)]
        cases n - s.threads.length <;> rfl
  refine ⟨h.swept, hthreads (fun _ => List.forall_mem_nil _) h.barren,
    hthreads (fun _ _ => List.forall_mem_nil _) h.others, ?_, ?_,
    h.declined⟩
  · rw [hstack]
    exact h.drains
  · rw [hstack]
    exact h.told

theorem asked {i : Nat} {stack : List Frame} (hi : s.threads[i]? = some stack) (r : Request) :
    Sweeping teller agenda { s with threads := s.threads.set i (.todo r.task :: stack) } news := by
  have hbarren : (Frame.todo r.task).Barren := by cases r <;> trivial
  have hquiet : (Frame.todo r.task).isNews = false := by cases r <;> rfl
  have hdrains (id : OperationId) : (Frame.todo r.task).drains id = false := by cases r <;> rfl
  have hdues : s.client.dues [.todo r.task] = [] :=
    Client.dues_of_quiet _ fun f hf => List.mem_singleton.mp hf ▸ hquiet
  have hasked := @replaced s teller agenda news h i stack (.todo r.task :: stack) s.client [] s.past hi
    h.swept (List.forall_mem_cons.mpr ⟨hbarren, h.barren i stack hi⟩)
    (fun hteller => List.forall_mem_cons.mpr ⟨hquiet, h.others i stack hi hteller⟩) (fun _ _ => rfl)
    (fun id => by rw [List.countP_cons, hdrains id]; simp)
    (by rw [Client.dues_cons, hdues]; rfl) (by simp)
  rwa [List.append_nil] at hasked

theorem moved {i : Nat} {t : Task} {rest : List Frame} (hi : s.threads[i]? = some (.todo t :: rest)) :
    Sweeping teller agenda (s.act (.move i)) (news ++ s.client.marks t) := by
  obtain ⟨htask, hrest⟩ := List.forall_mem_cons.mp (h.barren i _ hi)
  have late := h.swept.late htask
  have hmarks : s.client.marks t = [.moved t (s.client.perform t).events] := by
    cases t with
    | enlist => simp [Client.marks, Client.allots, h.swept.closed]
    | _ => rfl
  rw [act_move hi]
  refine h.replaced hi (h.swept.perform t) ?_ (fun hteller => ?_) (fun hteller id => ?_)
    (fun id => ?_) ?_ ?_
  · intro f hf
    rcases List.mem_append.mp hf with hf | hf
    · exact late.barren f hf
    · exact hrest f hf
  · obtain ⟨htask, hrest⟩ := List.forall_mem_cons.mp (h.others i _ hi hteller)
    intro f hf
    rcases List.mem_append.mp hf with hf | hf
    · exact late.news htask f hf
    · exact hrest f hf
  · refine late.mail ?_
    rintro rfl
    cases h.others i _ hi hteller _ List.mem_cons_self
  · have hdrains := late.drains id
    rw [List.countP_append, ← List.singleton_append, List.countP_append]
    omega
  · -- the deliverers below are not those of the task
    have hbelow : ∀ id, .todo (.drain id) ∈ rest →
        (s.client.perform t).client.mail id = s.client.mail id := by
      intro id hmem
      refine late.mail ?_
      rintro rfl
      have hle := h.drains_le hi id
      have hpos : 0 < rest.countP (Frame.drains id) :=
        List.countP_pos_iff.mpr ⟨_, hmem, by simp [Frame.drains]⟩
      rw [List.countP_cons_of_pos (by simp [Frame.drains])] at hle
      omega
    rw [hmarks, Client.dues_append, Client.dues_congr hbelow, Client.dues_cons, ← late.dues]
    simp [Mark.tales, Mark.entered]
  · rw [hmarks]
    intro t' shown hmem
    obtain ⟨rfl, rfl⟩ := Mark.moved.inj (List.mem_singleton.mp hmem)
    exact late.declines

theorem answered {i : Nat} {u : Upcall} {rest : List Frame} (hi : s.threads[i]? = some (.inside u :: rest))
    (a : Answer) : Sweeping teller agenda (s.act (.answer i a)) (news ++ [.answered u a]) := by
  obtain ⟨hu, hrest⟩ := List.forall_mem_cons.mp (h.barren i _ hi)
  have hresume := (u.resumes a).called_of_barren hu
  have hcount (id : OperationId) : (u.resume a).countP (Frame.drains id) = 0 :=
    List.countP_eq_zero.mpr fun f hf => by
      obtain ⟨_, _, _, -, rfl⟩ := hresume f hf
      simp [Frame.drains]
  have hdues : s.client.dues (u.resume a) = [] := by
    have hnone : (u.resume a).flatMap s.client.due = [] := List.flatMap_eq_nil_iff.mpr fun f hf => by
      obtain ⟨_, _, _, -, rfl⟩ := hresume f hf
      rfl
    rw [Client.dues, hnone, List.filter_nil]
  rw [act_answer hi]
  refine h.replaced hi h.swept ?_ (fun hteller => ?_) (fun _ _ => rfl) (fun id => ?_) ?_ (by simp)
  · intro f hf
    rcases List.mem_append.mp hf with hf | hf
    · obtain ⟨_, _, _, -, rfl⟩ := hresume f hf
      trivial
    · exact hrest f hf
  · obtain ⟨hquiet, hrest⟩ := List.forall_mem_cons.mp (h.others i _ hi hteller)
    intro f hf
    rcases List.mem_append.mp hf with hf | hf
    · obtain ⟨_, _, _, rfl, -⟩ := hresume f hf
      contradiction
    · exact hrest f hf
  · rw [List.countP_append, hcount, List.countP_cons]
    omega
  · rw [Client.dues_append, hdues, Client.dues_cons]
    rfl

/-- Whatever is chosen next, the agenda is the same. -/
theorem act (choice : Choice) : ∃ marks, (s.act choice).past = s.past ++ marks ∧
    Sweeping teller agenda (s.act choice) (news ++ marks) := by
  have hsame : ∃ marks, s.past = s.past ++ marks ∧ Sweeping teller agenda s (news ++ marks) :=
    ⟨[], by simp, by simpa using h⟩
  cases choice with
  | join => exact ⟨[], by simp [ClientThreads.act], by simpa using h.joined⟩
  | ask i r =>
    cases hi : s.threads[i]? with
    | none => simpa only [ClientThreads.act, hi] using hsame
    | some stack =>
      by_cases haway : isAway stack = true
      · simp only [ClientThreads.act, hi, if_pos haway]
        exact ⟨[], by simp, by simpa using h.asked hi r⟩
      · simpa only [ClientThreads.act, hi, if_neg haway] using hsame
  | move i =>
    rcases hi : s.threads[i]? with _ | _ | ⟨t | u, rest⟩
    · simpa only [ClientThreads.act, hi] using hsame
    · simpa only [ClientThreads.act, hi] using hsame
    · exact ⟨s.client.marks t, by rw [act_move hi], h.moved hi⟩
    · simpa only [ClientThreads.act, hi] using hsame
  | answer i a =>
    rcases hi : s.threads[i]? with _ | _ | ⟨t | u, rest⟩
    · simpa only [ClientThreads.act, hi] using hsame
    · simpa only [ClientThreads.act, hi] using hsame
    · simpa only [ClientThreads.act, hi] using hsame
    · exact ⟨[.answered u a], by rw [act_answer hi], h.answered hi a⟩

/-- **The agenda of a sweep stands**, whatever happens after it. -/
theorem foldl (more : List Choice) : ∃ marks, (more.foldl ClientThreads.act s).past = s.past ++ marks ∧
    Sweeping teller agenda (more.foldl ClientThreads.act s) (news ++ marks) := by
  induction more generalizing s news with
  | nil => exact ⟨[], by simp, by simpa using h⟩
  | cons choice more ih =>
    obtain ⟨first, hfirst, hact⟩ := h.act choice
    obtain ⟨rest, hrest, hmore⟩ := ih hact
    exact ⟨first ++ rest, by rw [List.foldl_cons, hrest, hfirst, List.append_assoc],
      by rwa [← List.append_assoc]⟩

/-- Once the thread that tells is done, nobody tells anything any more. -/
theorem done (hdone : s.stackOf teller = []) : Sweeping none agenda s news := by
  refine ⟨h.swept, h.barren, fun i stack hi _ => ?_, fun id => Nat.zero_le 1, ?_, h.declined⟩
  · by_cases hteller : teller = some i
    · obtain rfl : [] = stack := hdone.symm.trans (stackOf_of_thread hi hteller)
      nofun
    · exact h.others i stack hi hteller
  · have htold := h.told
    rwa [hdone] at htold

/-- So what was told by then is the agenda, and nothing is told later. -/
theorem finished {first : List Choice} (hdone : (first.foldl ClientThreads.act s).stackOf teller = [])
    (later : List Choice) : ∃ marks, ((first ++ later).foldl ClientThreads.act s).past = s.past ++ marks ∧
      Sweeping none agenda ((first ++ later).foldl ClientThreads.act s) (news ++ marks) := by
  obtain ⟨before, hbefore, hfirst⟩ := h.foldl first
  obtain ⟨after, hafter, hlater⟩ := (hfirst.done hdone).foldl later
  rw [← List.foldl_append] at hafter hlater
  exact ⟨before ++ after, by rw [hafter, hbefore, List.append_assoc], by rwa [← List.append_assoc]⟩

end Sweeping

end ClientThreads

/-! ## The sweep -/

namespace Client

/-- What a close has to tell: that the channel is closed, with so many operations pending, and the failure
of each of them, to the observer and to its listener, in the order of the table. -/
def farewell (c : Client) : List Upcall :=
  .observe (.channelClosed c.pending.size) :: c.pending.ids.flatMap fun id =>
    [.observe (.failed id .channelClosed), .notify id (.failed .channelClosed)]

/-- A sweep owes a delivery to whoever's mailbox was idle. -/
theorem owed_failAll {ids : List OperationId} (hnodup : ids.Nodup) (c : Client) :
    (c.failAll ids).2 = ids.map fun id => (id, (c.view id).owed) := by
  induction ids generalizing c with
  | nil => rfl
  | cons first rest ih =>
    obtain ⟨hfirst, hrest⟩ := List.nodup_cons.mp hnodup
    rw [failAll, List.map_cons, ← owed_enqueue c first (.failed .channelClosed)]
    refine congrArg (List.cons _) ((ih hrest _).trans (List.map_congr_left fun id hid => ?_))
    rw [view_enqueue_of_ne]
    rintro rfl
    exact hfirst hid

theorem countP_drains_flatMap (id : OperationId) (ids : List OperationId) (o : OperationId → Observation) :
    (ids.flatMap fun i => [Frame.todo (.announce (o i)), .todo (.drain i)]).countP (Frame.drains id) =
      ids.count id := by
  induction ids with
  | nil => rfl
  | cons first rest ih =>
    rw [List.flatMap_cons, List.countP_append, ih, List.count_cons]
    by_cases hid : first = id <;> simp [Frame.drains, hid, Nat.add_comm]

theorem dues_flatMap {α : Type} (c : Client) (l : List α) (g : α → List Frame) :
    c.dues (l.flatMap g) = l.flatMap fun a => c.dues (g a) := by
  induction l with
  | nil => rfl
  | cons a rest ih => rw [List.flatMap_cons, dues_append, ih, List.flatMap_cons]

section

variable {c : Client} (hidle : ∀ id ∈ c.pending.ids, (c.view id).owed = true ∧ c.mail id = [])
include hidle

/-- What a sweep leaves where all mailboxes are idle. -/
theorem frames_of_sweep (hopen : c.closed = false) : (c.perform .sweep).frames =
    .todo (.announce (.channelClosed c.pending.size)) :: c.pending.ids.flatMap fun id =>
      [.todo (.announce (.failed id .channelClosed)), .todo (.drain id)] := by
  let cleared : Client := { c with closed := true, pending := .empty }
  have howed : (cleared.failAll c.pending.ids).2 = c.pending.ids.map fun id => (id, true) := by
    rw [owed_failAll c.pending.nodup_ids]
    exact List.map_congr_left fun id hid => congrArg (Prod.mk id) (hidle id hid).1
  simp only [perform, sweep, hopen, Bool.false_eq_true, if_false, List.singleton_append]
  rw [show (cleared.failAll c.pending.ids).2 = _ from howed, List.flatMap_map]
  rfl

/-- Then the failure waits in each of the mailboxes. -/
theorem mail_of_sweep {id : OperationId} (hid : id ∈ c.pending.ids) :
    (c.perform .sweep).client.mail id = [.failed .channelClosed] := by
  let cleared : Client := { c with closed := true, pending := .empty }
  have hview : (c.perform .sweep).client.view id = (cleared.view id).post (.failed .channelClosed) :=
    ((view_failAll id c.pending.nodup_ids cleared).1).trans (if_pos hid)
  obtain ⟨howed, hmail⟩ := hidle id hid
  have hdelivery : ((c.perform .sweep).client.view id).delivery =
      (c.deliveries.get? id).map fun d =>
        { d with mailbox := (d.mailbox.enqueue (.failed .channelClosed)).1 } := by
    rw [hview]
    rfl
  have hdelivery' : (c.perform .sweep).client.deliveries.get? id = _ := hdelivery
  cases hd : c.deliveries.get? id with
  | none => simp [view, View.owed, hd] at howed
  | some d =>
    have hqueue : d.mailbox.queue = [] := by simpa [mail, hd] using hmail
    simp [mail, hdelivery', hd, hqueue]

/-- So what is to be told after a sweep is the farewell. -/
theorem dues_of_sweep (hopen : c.closed = false) :
    (c.perform .sweep).client.dues (c.perform .sweep).frames = c.farewell := by
  rw [frames_of_sweep hidle hopen, dues_cons, dues_flatMap, farewell]
  refine congrArg (List.cons _) (List.flatMap_congr fun id hid => ?_)
  simp [dues, due, mail_of_sweep hidle hid, Upcall.tells]

end

end Client

/-- Whether a request closes the client: the caller's, or the channel's. -/
def Request.closes : Request → Bool
  | .close | .deliver .channelClosed => true
  | _ => false

/-- The choices by which a thread closes the client: it asks, and moves until the table is empty. -/
def Request.sweeping (n : Nat) : Request → List Choice
  | .close => [.ask n .close, .move n]
  | r => [.ask n r, .move n, .move n]

/-- What is remembered of a close until the table is empty. -/
def Client.closing (c : Client) : Request → List Mark
  | .deliver m => c.marks (.dispatch m) ++ c.marks .sweep
  | _ => c.marks .sweep

/-- Up to then nobody was told anything, and nobody was given anything. -/
theorem Client.closing_quiet (c : Client) {r : Request} (hr : r.closes = true) :
    Mark.tales (c.closing r) = [] ∧ (c.closing r).flatMap Mark.given = [] ∧
      ∀ t shown, .moved t shown ∈ c.closing r → ∀ e ∈ shown, e.Declines := by
  have htales : Mark.tales (c.marks .sweep) = [] := by
    have hevents : (c.perform .sweep).events.filterMap Event.entered? = [] := by
      rw [Client.perform, sweep_events_filterMap c Event.entered? fun _ => rfl,
        List.filterMap_eq_nil_iff]
      exact fun _ _ => rfl
    simp [Mark.tales, Client.marks, Client.allots, Mark.entered, hevents]
  have hdeclined : ∀ t shown, .moved t shown ∈ c.marks .sweep → ∀ e ∈ shown, e.Declines := by
    intro t shown hmem e he
    obtain ⟨rfl, rfl⟩ := Mark.moved.inj (List.mem_singleton.mp hmem)
    rcases List.mem_append.mp he with he | he
    · obtain ⟨_, -, rfl⟩ := List.mem_map.mp he
      trivial
    · obtain ⟨_, -, rfl⟩ := List.mem_map.mp he
      trivial
  cases r with
  | close => exact ⟨htales, rfl, hdeclined⟩
  | deliver m =>
    cases m with
    | channelClosed =>
      refine ⟨?_, rfl, fun t shown hmem => ?_⟩
      · rw [closing, Mark.tales_append, htales]
        rfl
      · rcases List.mem_append.mp hmem with hmem | hmem
        · obtain ⟨rfl, rfl⟩ := Mark.moved.inj (List.mem_singleton.mp hmem)
          simp [Client.perform, Event.Declines]
        · exact hdeclined t shown hmem
    | _ => contradiction
  | _ => contradiction

namespace ClientThreads

/-- Nobody gets in between, so this is the sweep. -/
theorem foldl_sweeping {s : ClientThreads} {n : Nat} {r : Request} (hr : r.closes = true)
    (hn : s.threads[n]? = some []) : (r.sweeping n).foldl act s =
      ⟨(s.client.perform .sweep).client, s.threads.set n (s.client.perform .sweep).frames,
        s.past ++ s.client.closing r⟩ := by
  have hset (stack : List Frame) : (s.threads.set n stack)[n]? = some stack := by
    rw [List.getElem?_set_self (List.getElem?_eq_some_iff.mp hn).1]
  have hask (r : Request) : s.act (.ask n r) =
      ⟨s.client, s.threads.set n [.todo r.task], s.past⟩ := by simp [act, hn, isAway]
  have hsweep (past : List Mark) : act ⟨s.client, s.threads.set n [.todo .sweep], past⟩ (.move n) =
      ⟨(s.client.perform .sweep).client, s.threads.set n (s.client.perform .sweep).frames,
        past ++ s.client.marks .sweep⟩ := by
    rw [act_move (hset _), List.set_set, List.append_nil]
  cases r with
  | close => simp [Request.sweeping, hask, Request.task, hsweep, Client.closing]
  | deliver m =>
    cases m with
    | channelClosed =>
      have hdispatch : act ⟨s.client, s.threads.set n [.todo (.dispatch .channelClosed)], s.past⟩
          (.move n) = ⟨s.client, s.threads.set n [.todo .sweep],
            s.past ++ s.client.marks (.dispatch .channelClosed)⟩ := by
        rw [act_move (hset _), List.set_set]
        rfl
      simp [Request.sweeping, hask, Request.task, hdispatch, hsweep, Client.closing]
    | _ => contradiction
  | _ => contradiction

section

variable {config : Config} {schedule : List Choice}

/-- Where nobody is inside the client, every mailbox is idle. -/
theorem idle_of_quiet (hgiven : (run config schedule).given.length < 2 ^ 64 - 1)
    (hidle : (run config schedule).frames = []) {id : OperationId}
    (hid : id ∈ (run config schedule).client.pending.ids) :
    ((run config schedule).client.view id).owed = true ∧ (run config schedule).client.mail id = [] := by
  rcases alive_run config schedule id hgiven with hblank | ⟨delivery, alive⟩
  · have hnone : (run config schedule).client.pending.get? id = none :=
      congrArg (fun d : OperationShare => d.view.entry) hblank
    rw [Table.mem_ids, hnone] at hid
    contradiction
  · have hquiet : ((run config schedule).share id).frames = [] := by
      rw [share, hidle]
      rfl
    have hqueue := alive.queue_of_quiet hquiet
    have htoken := alive.delivering.token
    rw [hquiet] at htoken
    have hfound : (run config schedule).client.deliveries.get? id = some delivery := alive.found
    refine ⟨?_, by simp [Client.mail, hfound, hqueue]⟩
    rw [View.owed, Client.view, hfound]
    cases hdelivering : delivery.mailbox.delivering with
    | false => simp [hdelivering]
    | true => simp [hdelivering] at htoken

/-- **A close settles what will be told.** -/
theorem sweeping_of_closes (hgiven : (run config schedule).given.length < 2 ^ 64 - 1)
    (hidle : (run config schedule).frames = []) (hopen : (run config schedule).client.closed = false)
    {n : Nat} (hn : (run config schedule).threads[n]? = some []) {r : Request} (hr : r.closes = true) :
    Sweeping (some n) (run config schedule).client.farewell (run config (schedule ++ r.sweeping n)) [] := by
  have hmail := fun id => @idle_of_quiet config schedule hgiven hidle id
  rw [run_append, foldl_sweeping hr hn]
  generalize run config schedule = s at *
  have hframes := Client.frames_of_sweep hmail hopen
  have hset : (s.threads.set n (s.client.perform .sweep).frames)[n]? =
      some (s.client.perform .sweep).frames := by
    rw [List.getElem?_set_self (List.getElem?_eq_some_iff.mp hn).1]
  have hothers {i : Nat} {stack : List Frame} (hi : s.threads[i]? = some stack) : stack = [] :=
    List.flatten_eq_nil_iff.mp hidle stack (List.mem_of_getElem? hi)
  refine ⟨Client.swept_of_sweep _, fun i stack hi f hf => ?_, fun i stack hi hne f hf => ?_,
    fun id => ?_, ?_, by simp⟩
  · rcases getElem?_set_cases hi with ⟨rfl, rfl⟩ | ⟨-, hi⟩
    · rw [hframes, List.mem_cons, List.mem_flatMap] at hf
      rcases hf with rfl | ⟨id, -, hf⟩
      · trivial
      · rcases List.mem_pair.mp hf with rfl | rfl <;> trivial
    · rw [hothers hi] at hf
      contradiction
  · rcases getElem?_set_cases hi with ⟨rfl, -⟩ | ⟨-, hi⟩
    · exact absurd rfl hne
    · rw [hothers hi] at hf
      contradiction
  · rw [stackOf_of_thread hset rfl, hframes, List.countP_cons_of_neg (by simp [Frame.drains]),
      Client.countP_drains_flatMap]
    exact List.nodup_iff_count_le_one.mp s.client.pending.nodup_ids id
  · rw [stackOf_of_thread hset rfl]
    exact Client.dues_of_sweep hmail hopen

/-- A closed client gives no identifier any more. -/
theorem given_of_closed {s : ClientThreads} (hclosed : s.client.closed = true) (more : List Choice) :
    (more.foldl act s).given = s.given := by
  have hkept := foldl_induction (P := fun s' => s'.client.closed = true ∧ s'.given = s.given)
    act_step (fun s₁ s₂ h step => ?_) ⟨hclosed, rfl⟩ more
  · exact hkept.2
  · obtain ⟨hstill, hsame⟩ := step.barred h.1
    exact ⟨hstill, hsame.trans h.2⟩

/-- Where nobody brings news any more, whoever's failure was told has it published. -/
theorem published_of_told (hgiven : (run config schedule).given.length < 2 ^ 64 - 1)
    {agenda : List Upcall} {news old : List Mark} (h : Sweeping none agenda (run config schedule) news)
    (hpast : (run config schedule).past = old ++ news) {id : OperationId}
    (htold : .notify id (.failed .channelClosed) ∈ agenda) :
    (Handle.live id).outcome? (run config schedule).client = some (.failed .channelClosed) := by
  have hentered : .notify id (.failed .channelClosed) ∈ news.flatMap Mark.entered := by
    have htales := h.told
    rw [stackOf, Option.bind_none, Option.getD_none, Client.dues_nil, List.append_nil] at htales
    rw [← htales] at htold
    exact (List.mem_filter.mp htold).1
  have hcalls : .failed .channelClosed ∈ (run config schedule).calls id := by
    refine mem_calls_of_entered ?_
    rw [hpast, List.flatMap_append]
    exact List.mem_append_right _ hentered
  have hblank : (run config schedule).share id ≠ .blank := fun hblank => by
    rw [calls_of_blank hblank] at hcalls
    contradiction
  have accounted := (accounted_run config schedule id hgiven).resolve_left hblank
  have hfinal : .failed .channelClosed ∈ finals ((run config schedule).calls id) :=
    List.mem_filterMap.mpr ⟨_, hcalls, rfl⟩
  rw [Handle.outcome?, Handle.cell, Client.outcome_cell]
  refine ((accounted.published _).mp hfinal).resolve_right fun hcarried => ?_
  -- whatever carries an outcome brings news
  obtain ⟨f, hf, hcarries⟩ := List.mem_filterMap.mp hcarried
  obtain ⟨stack, hstack, hmem⟩ := List.mem_flatten.mp (List.mem_filter.mp hf).1
  obtain ⟨i, hi⟩ := List.mem_iff_getElem?.mp hstack
  have hquiet := h.others i stack hi (Option.some_ne_none i).symm f hmem
  rcases f with t | u
  · cases t <;> contradiction
  · cases u <;> contradiction

/-- What is pending is listed in the order in which it was submitted. -/
theorem pending_sublist_given (hgiven : (run config schedule).given.length < 2 ^ 64 - 1) :
    (run config schedule).client.pending.ids.Sublist (run config schedule).given := by
  have hascending : (run config schedule).given.Pairwise (· < ·) := by
    rw [(given_run config schedule).1]
    refine List.pairwise_map.mpr (List.pairwise_lt_range.imp_of_mem fun {a b} ha hb hlt => ?_)
    have ha := List.mem_range.mp ha
    have hb := List.mem_range.mp hb
    have hval : UInt64.ofNat (a + 1) < UInt64.ofNat (b + 1) := by
      rw [UInt64.lt_iff_toNat_lt, UInt64.toNat_ofNat', UInt64.toNat_ofNat', Nat.mod_eq_of_lt (by omega),
        Nat.mod_eq_of_lt (by omega)]
      omega
    exact hval
  have hids : (run config schedule).client.pending.ids =
      (run config schedule).given.filter (· ∈ (run config schedule).client.pending.ids) := by
    refine Table.ids_ext (Table.ascending_ids _) (hascending.filter _) fun id => ?_
    rw [List.mem_filter, decide_eq_true_iff]
    refine ⟨fun hid => ⟨?_, hid⟩, And.right⟩
    by_contra hnot
    rw [Table.mem_ids, pending_given config schedule id hnot] at hid
    contradiction
  rw [hids]
  exact List.filter_sublist

/-- What a close has come to at a later point. -/
structure ClosedSince (s s' : ClientThreads) (done : Prop) : Prop where
  /-- The table was in the order of submission. -/
  ordered : s.client.pending.ids.Sublist s.given
  /-- The table is empty, and stays so. -/
  swept : s'.client.Swept
  /-- What was told since is a part of the farewell, and all of it once the thread that closes is done;
  and every caller that was answered since was refused. -/
  told : ∃ marks, s'.past = s.past ++ marks ∧ Mark.tales marks <+: s.client.farewell ∧
    (done → Mark.tales marks = s.client.farewell) ∧
    ∀ t shown, .moved t shown ∈ marks → ∀ e ∈ shown, e.Declines
  /-- Then the handles of all that was pending have that outcome. -/
  resolved : done → ∀ id ∈ s.client.pending.ids,
    (Handle.live id).outcome? s'.client = some (.failed .channelClosed)

/-- **A close is complete and in order**, whatever is done meanwhile and afterwards. -/
theorem closed_since (hgiven : (run config schedule).given.length < 2 ^ 64 - 1)
    (hidle : (run config schedule).frames = []) (hopen : (run config schedule).client.closed = false)
    {n : Nat} (hn : (run config schedule).threads[n]? = some []) {r : Request} (hr : r.closes = true)
    (more : List Choice) :
    (run config schedule).ClosedSince (run config (schedule ++ r.sweeping n ++ more))
      (∃ first later, more = first ++ later ∧
        (run config (schedule ++ r.sweeping n ++ first)).threads[n]? = some []) := by
  have hsweeping := sweeping_of_closes hgiven hidle hopen hn hr
  obtain ⟨htales, hgave, hdeclined⟩ := (run config schedule).client.closing_quiet hr
  have hpast : (run config (schedule ++ r.sweeping n)).past =
      (run config schedule).past ++ (run config schedule).client.closing r := by
    rw [run_append, foldl_sweeping hr hn]
  generalize (run config schedule).client.closing r = opening at htales hgave hdeclined hpast
  have hsince {marks : List Mark} (hmarks : ∀ t shown, .moved t shown ∈ marks → ∀ e ∈ shown, e.Declines) :
      ∀ t shown, .moved t shown ∈ opening ++ marks → ∀ e ∈ shown, e.Declines :=
    fun t shown hmem => (List.mem_append.mp hmem).elim (hdeclined t shown) (hmarks t shown)
  obtain ⟨marks, hmarks, hmore⟩ := hsweeping.foldl more
  rw [← run_append, hpast] at hmarks
  rw [← run_append, List.nil_append] at hmore
  -- once the thread is done, the same marks are those of a finished sweep
  have hfinished : (∃ first later, more = first ++ later ∧
      (run config (schedule ++ r.sweeping n ++ first)).threads[n]? = some []) →
      Sweeping none (run config schedule).client.farewell
        (run config (schedule ++ r.sweeping n ++ more)) marks := by
    rintro ⟨first, later, rfl, hdone⟩
    rw [run_append] at hdone
    obtain ⟨marks', hmarks', hlater⟩ := hsweeping.finished (stackOf_of_thread hdone rfl) later
    rw [← run_append, hpast] at hmarks'
    rw [← run_append, List.nil_append] at hlater
    obtain rfl : marks = marks' := List.append_cancel_left (hmarks.symm.trans hmarks')
    exact hlater
  have hgrown := hmarks.trans (List.append_assoc ..)
  refine ⟨pending_sublist_given hgiven, hmore.swept,
    ⟨opening ++ marks, hgrown, ?_, fun hdone => ?_, hsince hmore.declined⟩, fun hdone id hid => ?_⟩
  · rw [Mark.tales_append, htales, ← hmore.told]
    exact List.prefix_append _ _
  · have htold := (hfinished hdone).told
    rw [stackOf, Option.bind_none, Option.getD_none, Client.dues_nil, List.append_nil] at htold
    rw [Mark.tales_append, htales, htold]
    rfl
  · have hgave' : (run config (schedule ++ r.sweeping n ++ more)).given.length < 2 ^ 64 - 1 := by
      rw [run_append, given_of_closed hsweeping.swept.closed, given, hpast, List.flatMap_append, hgave,
        List.append_nil]
      exact hgiven
    refine published_of_told hgave' (hfinished hdone) hmarks (List.mem_cons_of_mem _ ?_)
    exact List.mem_flatMap.mpr ⟨id, hid, by simp⟩

end

end ClientThreads

end TwoPhase
