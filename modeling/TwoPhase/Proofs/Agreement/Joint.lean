import Mathlib.Data.List.Perm.Basic
import TwoPhase.Proofs.Agreement.ClientAndEndpoint
/-
Two-phase agreement between a client and a participant.

For every operation the participant is on one of five courses (`Course`), which says at once what it
holds, what it has handled, what its handler was made to do and what it has replied. Together with the
counts of what the client sends, and with the fact that the client acts only on what it was told, a
course admits at every moment at most one message of the client: first the submission, then, if it was
prepared, one decision.
-/

set_option autoImplicit false

namespace TwoPhase

open Client (Task Frame Upcall Answer Event)

/-! ## What the client hands over -/

namespace ClientThreads

/-- A choice sends what it hands over, and nothing else. -/
theorem sends_act (s : ClientThreads) (choice : Choice) (id : OperationId) :
    (s.act choice).sends id = s.sends id ++ (s.departing choice).filter (·.id = id) := by
  obtain ⟨c, threads, past⟩ := s
  cases choice with
  | join => simp [act, departing, sends, begun]
  | ask n r =>
    -- asking puts a frame on a thread, and leaves the past alone
    have hsame : (act ⟨c, threads, past⟩ (.ask n r)).past = past := by
      simp only [act]
      split
      · split <;> rfl
      · rfl
    simp [departing, sends, begun, hsame]
  | move n =>
    rcases hn : threads[n]? with _ | _ | ⟨t | u, rest⟩
    · simp [act, departing, hn]
    · simp [act, departing, hn]
    · simp only [sends, begun, act, departing, hn, List.flatMap_append, List.filterMap_append,
        sends_marks]
    · simp [act, departing, hn]
  | answer n a =>
    rcases hn : threads[n]? with _ | _ | ⟨t | u, rest⟩ <;>
      simp [act, departing, hn, sends, begun, Mark.begun]

end ClientThreads

/-! ## Courses -/

/-- The operation that a call of the handler is about. -/
def HandlerCall.id : HandlerCall → OperationId
  | prepared id _ _ | finalized id _ _ => id

/-- Whether a message settles how far an operation has come. Reports do not. -/
def Inbound.settles (id : OperationId) : Inbound → Bool
  | .prepared i _ | .completed i _ | .failed i _ => i = id
  | _ => false

/-- Where a participant stands with an operation: what it holds of it, which messages about it it has
handled, what its handler was made to do for it, and what it has replied. -/
inductive Course (id : OperationId) :
    Option Transaction → List Outbound → List HandlerCall → List Inbound → Prop
  | untouched : Course id none [] [] []
  | malformed {payload : List UInt8} {fault : Json.ReadError}
      (hdecode : Payload.decode payload = .error fault) :
      Course id none [.execute id payload] []
        [.failed id (.rejected ("malformed operation: " ++ fault.message))]
  | refused {payload : List UInt8} {p : Payload} {f : Failure}
      (hdecode : Payload.decode payload = .ok p) :
      Course id none [.execute id payload] [.prepared id p (.error f)] [.failed id f]
  | held {t : PreparedTransaction} {payload : List UInt8} {p : Payload} {result : Value}
      (ht : t.id = id) (hdecode : Payload.decode payload = .ok p) :
      Course id (some (.prepared t)) [.execute id payload] [.prepared id p (.ok result)]
        [.prepared id result]
  | decided {payload : List UInt8} {p : Payload} {result : Value} (decision : Decision)
      (final : Except Failure Value) (hdecode : Payload.decode payload = .ok p) :
      Course id none [.execute id payload, .decide id decision]
        [.prepared id p (.ok result), .finalized id decision final]
        [.prepared id result, HandlerCall.reply id final]

namespace Course

variable {id : OperationId} {entry : Option Transaction} {handled : List Outbound}
  {handlerCalls : List HandlerCall} {replied : List Inbound}

/-- Before its submission was handled, an operation is untouched. -/
theorem eq_untouched (h : Course id entry handled handlerCalls replied)
    (hhandled : handled.countP (fun m => !m.isDecision) = 0) :
    entry = none ∧ handled = [] ∧ handlerCalls = [] ∧ replied = [] := by
  cases h with
  | untouched => exact ⟨rfl, rfl, rfl, rfl⟩
  | _ => simp [Outbound.isDecision] at hhandled

/-- After the news that it is prepared and before its decision, an operation is held. -/
theorem exists_held (h : Course id entry handled handlerCalls replied)
    (hhandled : handled.countP Outbound.isDecision = 0) {result : Value}
    (hprepared : .prepared id result ∈ replied) :
    ∃ t payload p, t.id = id ∧ Payload.decode payload = .ok p ∧ entry = some (.prepared t) ∧
      handled = [.execute id payload] ∧ handlerCalls = [.prepared id p (.ok result)] ∧
      replied = [.prepared id result] := by
  cases h with
  | @held t payload p result' ht hdecode =>
    obtain rfl : result = result' := by simpa using hprepared
    exact ⟨t, payload, p, ht, hdecode, rfl, rfl, rfl, rfl⟩
  | @decided payload p result' decision final hdecode =>
    cases decision <;> simp [Outbound.isDecision, Outbound.decide] at hhandled
  | _ => simp at hprepared

end Course

/-! ## What handling a message does to the courses -/

section

variable {σ : Type} {h : Handler σ} {e e' : Endpoint} {store store' : σ} {m : Outbound}
  {replies : List Inbound} {handlerCalls : List HandlerCall} {notes : List Note}

theorem filter_settles_reports (id i : OperationId) (reports : List Report) :
    (reports.map fun r => Inbound.report i r.severity r.text).filter (Inbound.settles id) = [] := by
  simp [List.filter_eq_nil_iff, Inbound.settles]

theorem settles_reply (id i : OperationId) (result : Except Failure Value) :
    (HandlerCall.reply i result).settles id = decide (i = id) := by
  cases result <;> rfl

/-- Handling a message about one operation does nothing to another. -/
theorem Serving.elsewhere (serving : Serving h e store m e' store' replies handlerCalls notes)
    (hkeyed : ∀ t, e.transactions.get? m.id = some (.prepared t) → t.id = m.id)
    {id : OperationId} (hid : id ≠ m.id) :
    e'.transactions.get? id = e.transactions.get? id ∧ handlerCalls.filter (·.id = id) = [] ∧
      replies.filter (Inbound.settles id) = [] := by
  cases serving with
  | ignored hknown hnotes => exact ⟨rfl, rfl, rfl⟩
  | malformed hunknown hdecode hnotes =>
    refine ⟨rfl, rfl, ?_⟩
    simp only [Outbound.id_execute] at hid
    simp [Inbound.settles, Ne.symm hid]
  | refused hunknown hdecode hprepare hnotes =>
    simp only [Outbound.id_execute] at hid
    refine ⟨rfl, by simp [HandlerCall.id, Ne.symm hid], ?_⟩
    rw [List.filter_append, filter_settles_reports]
    simp [Inbound.settles, Ne.symm hid]
  | held hunknown hdecode hprepare ht hnotes =>
    simp only [Outbound.id_execute] at hid
    refine ⟨by rw [Table.get?_insert, if_neg hid], by simp [HandlerCall.id, Ne.symm hid], ?_⟩
    rw [List.filter_append, filter_settles_reports]
    simp [Inbound.settles, Ne.symm hid]
  | misplaced hunheld =>
    simp only [Outbound.id_decide] at hid
    refine ⟨rfl, rfl, ?_⟩
    simp [Inbound.settles, Ne.symm hid]
  | @finalized _ i decision _ t result hheld hfinalize hnotes =>
    simp only [Outbound.id_decide] at hid hkeyed
    have ht := hkeyed t hheld
    refine ⟨by rw [Table.get?_erase, if_neg hid], by simp [HandlerCall.id, ht, Ne.symm hid], ?_⟩
    simp [settles_reply, ht, Ne.symm hid]

theorem Serving.submit {id : OperationId} {payload : List UInt8}
    (serving : Serving h e store (.execute id payload) e' store' replies handlerCalls notes)
    (hunknown : e.transactions.get? id = none) :
    Course id (e'.transactions.get? id) [.execute id payload] (handlerCalls.filter (·.id = id))
        (replies.filter (Inbound.settles id)) ∧
      notes.filterMap Note.misplaced? = [] := by
  generalize hm : Outbound.execute id payload = m at serving
  cases serving with
  | ignored hknown hnotes =>
    obtain ⟨rfl, rfl⟩ := Outbound.execute.inj hm
    simp [Table.contains, hunknown] at hknown
  | malformed hunknown hdecode hnotes =>
    obtain ⟨rfl, rfl⟩ := Outbound.execute.inj hm
    refine ⟨?_, hnotes⟩
    rw [hunknown]
    simpa [Inbound.settles] using Course.malformed hdecode
  | refused hunknown hdecode hprepare hnotes =>
    obtain ⟨rfl, rfl⟩ := Outbound.execute.inj hm
    refine ⟨?_, hnotes⟩
    rw [hunknown, List.filter_append, filter_settles_reports]
    simpa [Inbound.settles, HandlerCall.id] using Course.refused hdecode
  | held hunknown hdecode hprepare ht hnotes =>
    obtain ⟨rfl, rfl⟩ := Outbound.execute.inj hm
    refine ⟨?_, hnotes⟩
    rw [Table.get?_insert, if_pos rfl, List.filter_append, filter_settles_reports]
    simpa [Inbound.settles, HandlerCall.id] using Course.held ht hdecode
  | @misplaced i decision _ hunheld => cases decision <;> contradiction
  | @finalized _ i decision _ t result hheld hfinalize hnotes =>
    cases decision <;> contradiction

theorem Outbound.decide_inj {i j : OperationId} {first second : Decision}
    (heq : Outbound.decide i first = Outbound.decide j second) : i = j ∧ first = second := by
  cases first <;> cases second <;> simp_all [Outbound.decide]

/-- A decision ends the course of an operation that is held. -/
theorem Serving.decide {id : OperationId} {decision : Decision} {t : PreparedTransaction}
    {payload : List UInt8} {p : Payload} {result : Value}
    (serving : Serving h e store (.decide id decision) e' store' replies handlerCalls notes)
    (hheld : e.transactions.get? id = some (.prepared t)) (ht : t.id = id)
    (hdecode : Payload.decode payload = .ok p) :
    Course id (e'.transactions.get? id) [.execute id payload, .decide id decision]
        ([.prepared id p (.ok result)] ++ handlerCalls.filter (·.id = id))
        ([.prepared id result] ++ replies.filter (Inbound.settles id)) ∧
      notes.filterMap Note.misplaced? = [] := by
  generalize hm : Outbound.decide id decision = m at serving
  cases serving with
  | @misplaced i decision' _ hunheld =>
    obtain ⟨rfl, rfl⟩ := Outbound.decide_inj hm
    exact absurd hheld (hunheld t)
  | @finalized _ i decision' _ t' final hheld' hfinalize hnotes =>
    obtain ⟨rfl, rfl⟩ := Outbound.decide_inj hm
    obtain rfl : t = t' := by
      rw [hheld] at hheld'
      exact Transaction.prepared.inj (Option.some.inj hheld')
    refine ⟨?_, hnotes⟩
    rw [Table.get?_erase, if_pos rfl, ht]
    simpa [HandlerCall.id, settles_reply] using Course.decided decision final hdecode
  | _ => cases decision <;> contradiction

end

/-! ## The joint invariant -/

theorem Course.keyed {id : OperationId} {t : PreparedTransaction} {handled : List Outbound}
    {handlerCalls : List HandlerCall} {replied : List Inbound}
    (h : Course id (some (.prepared t)) handled handlerCalls replied) : t.id = id := by
  cases h with
  | held ht hdecode => exact ht

theorem Client.Task.Queues.prepared {id : OperationId} {t : Task} {result : Value}
    (h : t.Queues id (.prepared result)) : t = .accept id result := by
  cases t with
  | accept i value =>
    obtain ⟨rfl, hvalue⟩ := h
    rw [Callback.prepared.inj hvalue]
  | finish i outcome kind => cases outcome <;> cases h.2
  | report i severity text => cases h.2
  | sweep => contradiction
  | _ => exact h.elim

theorem Client.Task.Queues.complete {id : OperationId} {t : Task} {result : Value}
    (h : t.Queues id (.complete result)) : ∃ kind, t = .finish id (.completed result) kind := by
  cases t with
  | accept i value => cases h.2
  | finish i outcome kind =>
    obtain ⟨rfl, houtcome⟩ := h
    cases outcome with
    | completed value => exact ⟨kind, by rw [Callback.complete.inj houtcome]⟩
    | failed f => contradiction
  | report i severity text => cases h.2
  | sweep => contradiction
  | _ => exact h.elim

/-- What ties a client and a participant together, at every moment and for every operation. -/
structure ClientAndEndpoint.Joint {σ : Type} (config : Config) (s : ClientAndEndpoint σ) : Prop where
  reached : ∃ schedule, s.clientThreads = ClientThreads.run config schedule
  /-- The client acts on what it was told, and it was told what was replied. -/
  backed : s.clientThreads.Backed s.replied
  inbound : ∀ m ∈ s.inbound, m ∈ s.replied
  /-- A message that was handed over can still be delivered or was handled, once. -/
  bags : ∀ id, ((s.outbound ++ s.handled).filter (·.id = id)).Perm (s.clientThreads.sends id)
  course : ∀ id, Course id (s.endpoint.transactions.get? id) (s.handled.filter (·.id = id))
    (s.handlerCalls.filter (·.id = id)) (s.replied.filter (Inbound.settles id))
  /-- No decision was misplaced. -/
  placed : s.notes.filterMap Note.misplaced? = []

namespace ClientAndEndpoint

variable {σ : Type} {h : Handler σ} {config : Config} {s : ClientAndEndpoint σ}

theorem joint_fresh (config : Config) (store : σ) : Joint config (fresh config store) where
  reached := ⟨[], rfl⟩
  backed := ⟨(fun _ hf => by contradiction), (fun _ _ ht => by contradiction)⟩
  inbound _ hm := by contradiction
  bags _ := .refl _
  course _ := .untouched
  placed := rfl

theorem Joint.sparing (hs : Joint config s) (hgiven : s.clientThreads.given.length < 2 ^ 64 - 1)
    (id : OperationId) : s.clientThreads.Sparing id := by
  obtain ⟨schedule, hclientThreads⟩ := hs.reached
  rw [hclientThreads] at hgiven ⊢
  exact ClientThreads.sparing_run config schedule id hgiven

/-- Of a kind of message that is sent at most once, none was handled while one can be delivered. -/
theorem Joint.unhandled (hs : Joint config s) {m : Outbound} (hm : m ∈ s.outbound)
    {p : Outbound → Bool} (hp : p m = true) (hle : (s.clientThreads.sends m.id).countP p ≤ 1) :
    (s.handled.filter (·.id = m.id)).countP p = 0 := by
  have hcount := (hs.bags m.id).countP_eq p
  rw [List.filter_append, List.countP_append] at hcount
  have hpos : 0 < (s.outbound.filter (·.id = m.id)).countP p :=
    List.countP_pos_iff.mpr ⟨m, List.mem_filter.mpr ⟨hm, decide_eq_true rfl⟩, hp⟩
  omega

/-- While a decision can be delivered its operation is held. -/
theorem Joint.held (hs : Joint config s) (hgiven : s.clientThreads.given.length < 2 ^ 64 - 1)
    {id : OperationId} {decision : Decision} (hm : .decide id decision ∈ s.outbound) :
    ∃ t payload p result, t.id = id ∧ Payload.decode payload = .ok p ∧
      s.endpoint.transactions.get? id = some (.prepared t) ∧
      s.handled.filter (·.id = id) = [.execute id payload] ∧
      s.handlerCalls.filter (·.id = id) = [.prepared id p (.ok result)] ∧
      s.replied.filter (Inbound.settles id) = [.prepared id result] := by
  have hid : (Outbound.decide id decision).id = id := Outbound.id_decide id decision
  have hdecision : (Outbound.decide id decision).isDecision = true := by cases decision <;> rfl
  have hsparing := hs.sparing hgiven id
  have hunhandled := hs.unhandled hm (p := Outbound.isDecision) hdecision
    (by rw [hid]; exact hsparing.decisions)
  rw [hid] at hunhandled
  -- a decision is sent after the news was queued, and the news came from the participant
  have hsent : 0 < (s.clientThreads.sends id).countP Outbound.isDecision := by
    refine List.countP_pos_iff.mpr ⟨_, (hs.bags id).mem_iff.mp ?_, hdecision⟩
    exact List.mem_filter.mpr ⟨List.mem_append_left _ hm, decide_eq_true hid⟩
  obtain ⟨result, hqueued⟩ := hsparing.prepared hsent
  have hreplied : .prepared id result ∈ s.replied := by
    obtain ⟨schedule, hclientThreads⟩ := hs.reached
    rw [hclientThreads] at hqueued
    obtain ⟨t, shown, ht, hqueues⟩ := ClientThreads.queued_source config schedule id _ hqueued
    rw [← hclientThreads] at ht
    have hbacked := hs.backed.past t shown ht
    rw [hqueues.prepared] at hbacked
    exact hbacked
  obtain ⟨t, payload, p, hheld⟩ := (hs.course id).exists_held hunhandled
    (List.mem_filter.mpr ⟨hreplied, decide_eq_true rfl⟩)
  exact ⟨t, payload, p, result, hheld⟩

/-- Something happens among the threads of the client. -/
theorem Joint.clientThreads (hs : Joint config s) (choice : TwoPhase.Choice)
    (hbacked : ∀ n r, choice = .ask n r → r.task.Backed s.replied) :
    Joint config { s with
      clientThreads := s.clientThreads.act choice
      outbound := s.outbound ++ s.clientThreads.departing choice } where
  reached := ClientThreads.reached_act hs.reached choice
  backed := hs.backed.act hbacked
  inbound := hs.inbound
  bags id := by
    -- what is handed over is in the bag and in the history at once
    rw [ClientThreads.sends_act]
    refine List.Perm.trans ?_ ((hs.bags id).append_right _)
    rw [← List.filter_append]
    refine List.Perm.filter _ ?_
    rw [List.append_assoc, List.append_assoc]
    exact List.perm_append_comm.append_left s.outbound
  course := hs.course
  placed := hs.placed

section

variable {e : Endpoint} {store : σ} {replies : List Inbound} {handlerCalls : List HandlerCall}
  {notes : List Note}

/-- A submission that can be delivered finds its operation untouched. -/
theorem Joint.course_submission (hs : Joint config s)
    (hgiven : s.clientThreads.given.length < 2 ^ 64 - 1) {id : OperationId} {payload : List UInt8}
    (hm : .execute id payload ∈ s.outbound)
    (serving : Serving h s.endpoint s.store (.execute id payload) e store replies handlerCalls notes) :
    Course id (e.transactions.get? id) (s.handled.filter (·.id = id) ++ [.execute id payload])
        (s.handlerCalls.filter (·.id = id) ++ handlerCalls.filter (·.id = id))
        (s.replied.filter (Inbound.settles id) ++ replies.filter (Inbound.settles id)) ∧
      notes.filterMap Note.misplaced? = [] := by
  have hunhandled := hs.unhandled hm (p := fun m => !m.isDecision) rfl
    (hs.sparing hgiven id).submissions
  obtain ⟨hentry, hhandled, hcalls, hreplied⟩ := (hs.course id).eq_untouched hunhandled
  rw [hhandled, hcalls, hreplied]
  exact serving.submit hentry

/-- A decision that can be delivered finds its operation held. -/
theorem Joint.course_decision (hs : Joint config s)
    (hgiven : s.clientThreads.given.length < 2 ^ 64 - 1) {id : OperationId} (decision : Decision)
    (hm : .decide id decision ∈ s.outbound)
    (serving : Serving h s.endpoint s.store (.decide id decision) e store replies handlerCalls notes) :
    Course id (e.transactions.get? id) (s.handled.filter (·.id = id) ++ [.decide id decision])
        (s.handlerCalls.filter (·.id = id) ++ handlerCalls.filter (·.id = id))
        (s.replied.filter (Inbound.settles id) ++ replies.filter (Inbound.settles id)) ∧
      notes.filterMap Note.misplaced? = [] := by
  obtain ⟨t, payload, p, result, ht, hdecode, hentry, hhandled, hcalls, hreplied⟩ :=
    hs.held hgiven hm
  rw [hhandled, hcalls, hreplied]
  exact serving.decide hentry ht hdecode

/-- The participant handles a message: a submission of an operation that is untouched, or the decision
of one that is held. -/
theorem Joint.handle (hs : Joint config s) (hgiven : s.clientThreads.given.length < 2 ^ 64 - 1) {k : Nat}
    {m : Outbound} (hk : s.outbound[k]? = some m)
    (serving : Serving h s.endpoint s.store m e store replies handlerCalls notes) :
    Joint config { s with
      endpoint := e
      store := store
      outbound := s.outbound.eraseIdx k
      inbound := s.inbound ++ replies
      handled := s.handled ++ [m]
      replied := s.replied ++ replies
      handlerCalls := s.handlerCalls ++ handlerCalls
      notes := s.notes ++ notes } := by
  have hm : m ∈ s.outbound := List.mem_of_getElem? hk
  have hkeyed : ∀ t, s.endpoint.transactions.get? m.id = some (.prepared t) → t.id = m.id := by
    intro t ht
    have hcourse := hs.course m.id
    rw [ht] at hcourse
    exact hcourse.keyed
  have hself : Course m.id (e.transactions.get? m.id)
        (s.handled.filter (·.id = m.id) ++ [m])
        (s.handlerCalls.filter (·.id = m.id) ++ handlerCalls.filter (·.id = m.id))
        (s.replied.filter (Inbound.settles m.id) ++ replies.filter (Inbound.settles m.id)) ∧
      notes.filterMap Note.misplaced? = [] := by
    cases m with
    | execute id payload => exact hs.course_submission hgiven hm serving
    | commit id => exact hs.course_decision hgiven .commit hm serving
    | rollback id => exact hs.course_decision hgiven .rollback hm serving
  refine ⟨hs.reached, hs.backed.mono replies, ?_, fun id => ?_, fun id => ?_, ?_⟩
  · intro reply hreply
    rcases List.mem_append.mp hreply with hold | hnew
    · exact List.mem_append_left _ (hs.inbound reply hold)
    · exact List.mem_append_right _ hnew
  · -- the message goes from what can be delivered to what was handled
    refine List.Perm.trans (List.Perm.filter _ ?_) (hs.bags id)
    obtain ⟨hlt, hget⟩ := List.getElem?_eq_some_iff.mp hk
    have htake : (m :: s.outbound.eraseIdx k).Perm s.outbound :=
      hget ▸ List.getElem_cons_eraseIdx_perm hlt
    rw [← List.append_assoc]
    exact List.perm_append_comm.trans (htake.append_right s.handled)
  · simp only [List.filter_append]
    by_cases hid : id = m.id
    · subst hid
      have hkept : [m].filter (·.id = m.id) = [m] :=
        List.filter_cons_of_pos (decide_eq_true rfl)
      rw [hkept]
      exact hself.1
    · -- a message concerns its own operation alone
      obtain ⟨hentry, hcalls, hreplies⟩ := serving.elsewhere hkeyed hid
      rw [hentry, hcalls, hreplies,
        List.filter_cons_of_neg (by simpa using Ne.symm hid), List.filter_nil]
      simpa only [List.append_nil] using hs.course id
  · rw [List.filterMap_append, hs.placed, hself.2, List.append_nil]

end

/-- **A choice keeps client and participant together.** -/
theorem Joint.act (hs : Joint config s) (choice : Choice)
    (hgiven : (s.act h choice).clientThreads.given.length < 2 ^ 64 - 1) :
    Joint config (s.act h choice) := by
  -- the client may be told of a closed channel at any time, but of an operation only what was replied
  cases choice with
  | client choice =>
    simp only [ClientAndEndpoint.act]
    split
    · exact hs
    · rename_i hinvents
      refine hs.clientThreads choice fun n r hask => ?_
      subst hask
      cases r with
      | deliver m =>
        cases m with
        | channelClosed => exact Or.inr rfl
        | _ => exact absurd rfl hinvents
      | _ => trivial
  | deliver n k =>
    simp only [ClientAndEndpoint.act]
    split
    · rename_i m hk
      have hm : m ∈ s.replied := hs.inbound m (List.mem_of_getElem? hk)
      have hjoint := hs.clientThreads (.ask n (.deliver m)) fun n' r hask => by
        obtain ⟨rfl, rfl⟩ := TwoPhase.Choice.ask.inj hask
        exact Or.inl hm
      rw [show s.clientThreads.departing (.ask n (.deliver m)) = [] from rfl, List.append_nil] at hjoint
      exact ⟨hjoint.reached, hjoint.backed,
        fun reply hreply => hs.inbound reply (List.mem_of_mem_eraseIdx hreply), hjoint.bags,
        hjoint.course, hjoint.placed⟩
    · exact hs
  | handle k now journal =>
    simp only [ClientAndEndpoint.act] at hgiven ⊢
    split
    · rename_i m hk
      rw [hk] at hgiven
      exact hs.handle hgiven hk (MessageHandling.serve_ends h now journal s.endpoint s.store m).2
    · exact hs

theorem given_le_act (s : ClientAndEndpoint σ) (choice : Choice) :
    s.clientThreads.given.length ≤ (s.act h choice).clientThreads.given.length := by
  cases choice with
  | client choice =>
    simp only [ClientAndEndpoint.act]
    split
    · exact Nat.le_refl _
    · exact ClientThreads.given_le_act s.clientThreads choice
  | deliver n k =>
    simp only [ClientAndEndpoint.act]
    split
    · exact ClientThreads.given_le_act s.clientThreads _
    · exact Nat.le_refl _
  | handle k now journal =>
    simp only [ClientAndEndpoint.act]
    split <;> exact Nat.le_refl _

theorem joint_run (h : Handler σ) (config : Config) (store : σ) (schedule : List Choice)
    (hgiven : (run h config store schedule).clientThreads.given.length < 2 ^ 64 - 1) :
    Joint config (run h config store schedule) := by
  induction schedule using List.reverseRecOn with
  | nil => exact joint_fresh config store
  | append_singleton schedule choice ih =>
    have hrun : run h config store (schedule ++ [choice]) =
        (run h config store schedule).act h choice := by
      rw [run, run, List.foldl_append]
      rfl
    -- identifiers that last to the end of the schedule last all along
    rw [hrun] at hgiven ⊢
    exact (ih (Nat.lt_of_le_of_lt (given_le_act _ choice) hgiven)).act choice hgiven

end ClientAndEndpoint

/-! ## Agreement -/

/-- Whether a call carries out a decision of an operation. -/
def HandlerCall.finalizes (id : OperationId) : HandlerCall → Bool
  | .finalized i _ _ => i = id
  | _ => false

namespace Course

variable {id : OperationId} {entry : Option Transaction} {handled : List Outbound}
  {handlerCalls : List HandlerCall} {replied : List Inbound}

theorem once (h : Course id entry handled handlerCalls replied) :
    handlerCalls.countP (HandlerCall.finalizes id) ≤ 1 := by
  cases h <;> simp [HandlerCall.finalizes]

/-- What is carried out was prepared before, and it was handled as a decision. -/
theorem grounded (h : Course id entry handled handlerCalls replied) {before after : List HandlerCall}
    {decision : Decision} {result : Except Failure Value}
    (hsplit : handlerCalls = before ++ .finalized id decision result :: after) :
    (∃ p value, .prepared id p (.ok value) ∈ before) ∧ .decide id decision ∈ handled := by
  have hmem : .finalized id decision result ∈ handlerCalls := by
    rw [hsplit]
    exact List.mem_append_right before List.mem_cons_self
  cases h with
  | @decided payload p value decision' final hdecode =>
    -- there are two calls, and the second is the one in question
    rcases before with _ | ⟨first, _ | ⟨second, rest⟩⟩
    · cases (List.cons.inj hsplit).1
    · obtain ⟨hfirst, htail⟩ := List.cons.inj hsplit
      obtain ⟨-, rfl, -⟩ := HandlerCall.finalized.inj (List.cons.inj htail).1
      rw [← hfirst]
      exact ⟨⟨p, value, List.mem_cons_self⟩, by simp⟩
    · simp at hsplit
  | _ => simp at hmem

theorem completed (h : Course id entry handled handlerCalls replied) {value : Value}
    (hvalue : .completed id value ∈ replied) :
    ∃ decision, .finalized id decision (.ok value) ∈ handlerCalls := by
  cases h with
  | @decided payload p result decision final hdecode =>
    cases final with
    | error f => simp [HandlerCall.reply] at hvalue
    | ok final =>
      obtain rfl : value = final := by simpa [HandlerCall.reply] using hvalue
      exact ⟨decision, by simp⟩
  | _ => simp at hvalue

/-- A failure is how preparing or deciding ended, or the submission could not be read; nothing was
committed. -/
theorem failed (h : Course id entry handled handlerCalls replied) {f : Failure}
    (hf : .failed id f ∈ replied) :
    ((∃ p, .prepared id p (.error f) ∈ handlerCalls) ∨
      (∃ payload fault, .execute id payload ∈ handled ∧ Payload.decode payload = .error fault ∧
        f = .rejected ("malformed operation: " ++ fault.message)) ∨
      ∃ decision, .finalized id decision (.error f) ∈ handlerCalls) ∧
      ∀ value, .finalized id .commit (.ok value) ∉ handlerCalls := by
  cases h with
  | untouched => contradiction
  | @malformed payload fault hdecode =>
    obtain rfl : f = .rejected ("malformed operation: " ++ fault.message) := by simpa using hf
    exact ⟨Or.inr (Or.inl ⟨payload, fault, List.mem_cons_self, hdecode, rfl⟩), fun value => by simp⟩
  | @refused payload p failure hdecode =>
    obtain rfl : f = failure := by simpa using hf
    exact ⟨Or.inl ⟨p, List.mem_cons_self⟩, fun value => by simp⟩
  | held ht hdecode => simp at hf
  | @decided payload p result decision final hdecode =>
    cases final with
    | ok final => simp [HandlerCall.reply] at hf
    | error failure =>
      obtain rfl : f = failure := by simpa [HandlerCall.reply] using hf
      exact ⟨Or.inr (Or.inr ⟨decision, by simp⟩), fun value => by simp⟩

end Course

/-- An inbound failure was accepted as the end of an operation, and the listener is told of it. -/
def ClientThreads.FailedBy (s : ClientThreads) (id : OperationId) (f : Failure) : Prop :=
  ∃ shown, .moved (.finish id (.failed f) "failed") shown ∈ s.past ∧
    .queued id (.failed f) ∈ shown

namespace ClientAndEndpoint

variable {σ : Type} {h : Handler σ} {config : Config} {s : ClientAndEndpoint σ}

/-- A participant refused to prepare an operation, could not read it, or failed to carry out its
decision, with a failure. -/
def FailedAs (s : ClientAndEndpoint σ) (id : OperationId) (f : Failure) : Prop :=
  (∃ p, .prepared id p (.error f) ∈ s.handlerCalls) ∨
    (∃ payload fault, .execute id payload ∈ s.clientThreads.sends id ∧
      Payload.decode payload = .error fault ∧
        f = .rejected ("malformed operation: " ++ fault.message)) ∨
    ∃ decision, .finalized id decision (.error f) ∈ s.handlerCalls

/-- What client and participant agree on about an operation. -/
structure Agreed (s : ClientAndEndpoint σ) (id : OperationId) : Prop where
  /-- Commit and rollback together are carried out at most once. -/
  once : s.handlerCalls.countP (HandlerCall.finalizes id) ≤ 1
  /-- What is carried out was prepared before, and is the decision that the client sent. -/
  grounded : ∀ before decision result after,
    s.handlerCalls = before ++ .finalized id decision result :: after →
      (∃ p value, .prepared id p (.ok value) ∈ before) ∧
        .decide id decision ∈ s.clientThreads.sends id ∧
          ∀ m ∈ s.clientThreads.sends id, m.isDecision = true → m = .decide id decision
  /-- A completion that the listener hears of is the result of the decision. -/
  completed : ∀ value, .complete value ∈ s.clientThreads.calls id →
    ∃ decision, .finalized id decision (.ok value) ∈ s.handlerCalls
  /-- A failure that comes from the participant is how preparing or deciding ended, and nothing was
  committed. -/
  failed : ∀ f, s.clientThreads.FailedBy id f →
    s.FailedAs id f ∧ ∀ value, .finalized id .commit (.ok value) ∉ s.handlerCalls
  /-- No decision finds its operation unprepared. -/
  placed : ∀ decision, .notPrepared id decision ∉ s.notes

theorem Joint.mem_sends (hs : Joint config s) {id : OperationId} {m : Outbound}
    (hm : m ∈ s.handled.filter (·.id = id)) : m ∈ s.clientThreads.sends id := by
  rw [List.mem_filter] at hm
  exact (hs.bags id).mem_iff.mp (List.mem_filter.mpr ⟨List.mem_append_right _ hm.1, hm.2⟩)

theorem mem_handlerCalls_iff {id : OperationId} {d : HandlerCall} (hid : d.id = id) :
    d ∈ s.handlerCalls ↔ d ∈ s.handlerCalls.filter (·.id = id) := by
  simp [List.mem_filter, hid]

theorem Joint.once (hs : Joint config s) (id : OperationId) :
    s.handlerCalls.countP (HandlerCall.finalizes id) ≤ 1 := by
  have hcount : s.handlerCalls.countP (HandlerCall.finalizes id) =
      (s.handlerCalls.filter (·.id = id)).countP (HandlerCall.finalizes id) := by
    rw [List.countP_filter]
    refine List.countP_congr fun d _ => ?_
    cases d with
    | prepared i p result => simp [HandlerCall.finalizes]
    | finalized i decision result =>
      by_cases hid : i = id <;> simp [HandlerCall.finalizes, HandlerCall.id, hid]
  rw [hcount]
  exact (hs.course id).once

theorem Joint.grounded (hs : Joint config s) {id : OperationId} {before after : List HandlerCall}
    {decision : Decision} {result : Except Failure Value}
    (hsplit : s.handlerCalls = before ++ .finalized id decision result :: after) :
    (∃ p value, .prepared id p (.ok value) ∈ before) ∧
      .decide id decision ∈ s.handled.filter (·.id = id) := by
  have hkept : s.handlerCalls.filter (·.id = id) = before.filter (·.id = id) ++
      .finalized id decision result :: after.filter (·.id = id) := by
    have hone : (HandlerCall.finalized id decision result :: after).filter (·.id = id) =
        .finalized id decision result :: after.filter (·.id = id) :=
      List.filter_cons_of_pos (decide_eq_true rfl)
    rw [hsplit, List.filter_append, hone]
  obtain ⟨⟨p, value, hprepared⟩, hhandled⟩ := (hs.course id).grounded hkept
  exact ⟨⟨p, value, (List.mem_filter.mp hprepared).1⟩, hhandled⟩

theorem Joint.completed (hs : Joint config s) {id : OperationId} {value : Value}
    (hvalue : .completed id value ∈ s.replied) :
    ∃ decision, .finalized id decision (.ok value) ∈ s.handlerCalls := by
  obtain ⟨decision, hdecision⟩ := (hs.course id).completed
    (List.mem_filter.mpr ⟨hvalue, decide_eq_true rfl⟩)
  exact ⟨decision, (mem_handlerCalls_iff rfl).mpr hdecision⟩

/-- What the participant reports as failed was refused, unreadable, or failed to be decided; in no case
was it committed. -/
theorem Joint.failed (hs : Joint config s) {id : OperationId} {f : Failure}
    (hf : .failed id f ∈ s.replied) :
    s.FailedAs id f ∧ ∀ value, .finalized id .commit (.ok value) ∉ s.handlerCalls := by
  obtain ⟨hcause, hnone⟩ := (hs.course id).failed (List.mem_filter.mpr ⟨hf, decide_eq_true rfl⟩)
  refine ⟨?_, fun value hmem => hnone value ((mem_handlerCalls_iff rfl).mp hmem)⟩
  rcases hcause with ⟨p, hp⟩ | ⟨payload, fault, hhandled, hdecode, hfault⟩ | ⟨decision, hdecision⟩
  · exact Or.inl ⟨p, (mem_handlerCalls_iff rfl).mpr hp⟩
  · exact Or.inr (Or.inl ⟨payload, fault, hs.mem_sends hhandled, hdecode, hfault⟩)
  · exact Or.inr (Or.inr ⟨decision, (mem_handlerCalls_iff rfl).mpr hdecision⟩)

/-- **Two-phase agreement**, for every handler, every schedule and every operation, as long as
identifiers do not wrap. -/
theorem agreement (h : Handler σ) (config : Config) (store : σ) (schedule : List Choice)
    (id : OperationId)
    (hgiven : (run h config store schedule).clientThreads.given.length < 2 ^ 64 - 1) :
    (run h config store schedule).Agreed id := by
  have hs := joint_run h config store schedule hgiven
  obtain ⟨clients, hclientThreads⟩ := hs.reached
  have hsource : ∀ callback ∈ (run h config store schedule).clientThreads.calls id, ∃ t shown,
      .moved t shown ∈ (run h config store schedule).clientThreads.past ∧ t.Queues id callback := by
    intro callback hcallback
    rw [hclientThreads] at hgiven hcallback ⊢
    exact ClientThreads.queued_source config clients id callback
      ((ClientThreads.calls_prefix_queued config clients id hgiven).subset hcallback)
  refine ⟨hs.once id, fun before decision result after hsplit => ?_, fun value hvalue => ?_,
    fun f hf => ?_, fun decision hnote => ?_⟩
  · obtain ⟨hprepared, hhandled⟩ := hs.grounded hsplit
    have hdecision : (Outbound.decide id decision).isDecision = true := by cases decision <;> rfl
    exact ⟨hprepared, hs.mem_sends hhandled, fun m hm hisDecision =>
      eq_of_countP_le_one (hs.sparing hgiven id).decisions hm hisDecision
        (hs.mem_sends hhandled) hdecision⟩
  · obtain ⟨t, shown, ht, hqueues⟩ := hsource _ hvalue
    obtain ⟨kind, rfl⟩ := hqueues.complete
    exact hs.completed (hs.backed.past _ shown ht)
  · obtain ⟨shown, hmark, -⟩ := hf
    exact hs.failed (hs.backed.past _ shown hmark rfl)
  · have hmisplaced : (id, decision) ∈
        (run h config store schedule).notes.filterMap Note.misplaced? :=
      List.mem_filterMap.mpr ⟨_, hnote, rfl⟩
    rw [hs.placed] at hmisplaced
    contradiction

/-- A handler that agrees to everything. -/
def agreeable : Handler Unit where
  reports _ _ _ := []
  prepare _ _ _ := (.ok .undefined, ())
  commit _ _ := (.ok .undefined, ())
  rollback _ _ := (.ok .undefined, ())

/-- An operation that is committed from inside the callback that says that it is prepared, while the
participant answers before each send has returned. -/
def exchange : List Choice :=
  [.client .join, .client (.ask 0 (.submit true (.recorder "") ⟨.undefined, [], .discard⟩)),
    .client (.move 0), .client (.move 0), .client (.move 0), .client (.move 0),
    .client (.answer 0 .returned), .client (.move 0),
    .handle 0 0 (fun _ => .ok 0), .client (.answer 0 (.sent (.ok ()))), .client (.move 0),
    .deliver 0 0,
    .client (.move 0), .client (.move 0), .client (.move 0), .client (.move 0),
    .client (.answer 0 .returned), .client (.move 0), .client (.move 0),
    .client (.ask 0 (.decide ⟨1⟩ .commit)),
    .client (.move 0), .client (.move 0), .client (.move 0),
    .handle 0 0 (fun _ => .ok 0), .client (.answer 0 (.sent (.ok ()))), .client (.move 0),
    .client (.move 0), .client (.move 0), .client (.answer 0 .returned), .client (.move 0),
    .client .join, .deliver 1 0, .client (.move 1), .client (.move 1),
    .client (.answer 0 .returned), .client (.move 0), .client (.move 0), .client (.move 0)]

/-- In the exchange the handler prepares and commits, and the listener hears of both. -/
theorem agreement_of_exchange :
    (run agreeable {} () exchange).clientThreads.given.length < 2 ^ 64 - 1 ∧
      (run agreeable {} () exchange).handlerCalls.length = 2 ∧
      ((run agreeable {} () exchange).clientThreads.calls ⟨1⟩).length = 2 ∧
      (run agreeable {} () exchange).Agreed ⟨1⟩ := by
  have hgiven : (run agreeable {} () exchange).clientThreads.given.length < 2 ^ 64 - 1 := by
    decide +kernel
  exact ⟨hgiven, by decide +kernel, by decide +kernel, agreement agreeable {} () exchange ⟨1⟩ hgiven⟩

end ClientAndEndpoint

end TwoPhase
