import TwoPhase.Proofs.Journal.Log
import TwoPhase.Proofs.EndpointThreads.Discipline
/-
An endpoint with a journal in memory and a single thread. Messages are handled one after the other,
except that the handler while it prepares, and whoever gets the replies, may hand in further ones.

What happens to an operation is kept twice, in the table and in the journal, and the journal is the later
of the two. `History` says which histories go with which entry of the table, and `Due` what the topmost
frame has yet to bring about; the journal and what is due of it agree with the table at all times
(`Books`). Nothing is due while a reply is delivered or between messages, so there a recovery from the
journal finds what the table holds.
-/

set_option autoImplicit false

namespace TwoPhase

open Endpoint (Task Frame Upcall Answer)

/-! ## Histories and the table -/

/-- The histories that go with an entry of the table, or with none. -/
inductive History : Option Transaction → List JournalEvent → Prop
  | fresh : History none []
  | received {w : List JournalEvent} (t : ReceivedTransaction) (h : History none w) :
      History (some (.received t)) (w ++ [.received t.receivedAt])
  | prepared {w : List JournalEvent} {t : ReceivedTransaction} (now : UInt64)
      (h : History (some (.received t)) w) :
      History (some (.prepared (t.prepare now))) (w ++ [.prepared now])
  | rejected {w : List JournalEvent} {t : ReceivedTransaction} (f : Failure) (now : UInt64)
      (h : History (some (.received t)) w) : History none (w ++ [.rejected f now])
  | finished {w : List JournalEvent} {t : PreparedTransaction} (d : Decision) (now : UInt64)
      (h : History (some (.prepared t)) w) :
      History none (w ++ [Endpoint.finishedEvent (t.finish d now)])
  | finalizeFailed {w : List JournalEvent} {t : PreparedTransaction} (d : Decision) (f : Failure)
      (now : UInt64) (h : History (some (.prepared t)) w) :
      History none (w ++ [.finalizeFailed d f now])

/-- The whole life of a submission, from its arrival to its end. -/
inductive Lifecycle : List JournalEvent → Prop
  | rejected (a b : UInt64) (f : Failure) : Lifecycle [.received a, .rejected f b]
  | committed (a b c : UInt64) : Lifecycle [.received a, .prepared b, .committed c]
  | rolledBack (a b c : UInt64) : Lifecycle [.received a, .prepared b, .rolledBack c]
  | finalizeFailed (a b c : UInt64) (d : Decision) (f : Failure) :
      Lifecycle [.received a, .prepared b, .finalizeFailed d f c]

/-- One life after the other, of which the last may be cut short. -/
def Lives (w : List JournalEvent) : Prop :=
  ∃ (whole : List (List JournalEvent)) (last : List JournalEvent), w = whole.flatten ++ last ∧
    (∀ life ∈ whole, Lifecycle life) ∧ ∃ life, Lifecycle life ∧ last <+: life

namespace History

variable {held : Option Transaction} {w : List JournalEvent}

/-- The lives that ended, and how the present one went so far. -/
def Present : Option Transaction → List JournalEvent → Prop
  | none, last => last = []
  | some (.received t), last => last = [.received t.receivedAt]
  | some (.prepared t), last => last = [.received t.receivedAt, .prepared t.preparedAt]

theorem present (h : History held w) :
    ∃ (whole : List (List JournalEvent)) (last : List JournalEvent), w = whole.flatten ++ last ∧
      (∀ life ∈ whole, Lifecycle life) ∧ Present held last := by
  -- an event that ends a life makes it one of the whole ones
  have hend {whole : List (List JournalEvent)} {last : List JournalEvent} {x : JournalEvent}
      (hwhole : ∀ life ∈ whole, Lifecycle life) (hlife : Lifecycle (last ++ [x])) :
      ∃ (whole' : List (List JournalEvent)) (last' : List JournalEvent),
        whole.flatten ++ last ++ [x] = whole'.flatten ++ last' ∧
        (∀ life ∈ whole', Lifecycle life) ∧ Present none last' := by
    refine ⟨whole ++ [last ++ [x]], [], by simp, ?_, rfl⟩
    intro life hmem
    rcases List.mem_append.mp hmem with hmem | hmem
    · exact hwhole life hmem
    · rw [List.mem_singleton.mp hmem]
      exact hlife
  induction h with
  | fresh => exact ⟨[], [], rfl, by simp, rfl⟩
  | received t h ih =>
    obtain ⟨whole, last, rfl, hwhole, rfl⟩ := ih
    exact ⟨whole, [.received t.receivedAt], by simp, hwhole, rfl⟩
  | @prepared w t now h ih =>
    obtain ⟨whole, last, rfl, hwhole, rfl⟩ := ih
    exact ⟨whole, [.received t.receivedAt, .prepared now], by simp, hwhole, rfl⟩
  | rejected f now h ih =>
    obtain ⟨whole, last, rfl, hwhole, rfl⟩ := ih
    exact hend hwhole (.rejected _ now f)
  | finished d now h ih =>
    obtain ⟨whole, last, rfl, hwhole, rfl⟩ := ih
    cases d with
    | commit => exact hend hwhole (.committed _ _ now)
    | rollback => exact hend hwhole (.rolledBack _ _ now)
  | finalizeFailed d f now h ih =>
    obtain ⟨whole, last, rfl, hwhole, rfl⟩ := ih
    exact hend hwhole (.finalizeFailed _ _ now d f)

/-- Histories are made of lives. -/
theorem lives (h : History held w) : Lives w := by
  obtain ⟨whole, last, hw, hwhole, hpresent⟩ := h.present
  refine ⟨whole, last, hw, hwhole, ?_⟩
  rcases held with _ | t | t
  · obtain rfl := hpresent
    exact ⟨_, .rejected 0 0 .channelClosed, List.nil_prefix⟩
  · obtain rfl := hpresent
    exact ⟨_, .committed t.receivedAt 0 0, List.prefix_append [_] [_, _]⟩
  · obtain rfl := hpresent
    exact ⟨_, .committed t.receivedAt t.preparedAt 0, List.prefix_append [_, _] [_]⟩

/-- Without its last event a history is one. -/
theorem of_snoc {x : JournalEvent} (h : History held (w ++ [x])) : ∃ before, History before w := by
  generalize hall : w ++ [x] = all at h
  cases h with
  | fresh => exact absurd hall (by simp)
  | received t h =>
    obtain ⟨rfl, -⟩ := List.append_inj' hall rfl
    exact ⟨_, h⟩
  | prepared now h =>
    obtain ⟨rfl, -⟩ := List.append_inj' hall rfl
    exact ⟨_, h⟩
  | rejected f now h =>
    obtain ⟨rfl, -⟩ := List.append_inj' hall rfl
    exact ⟨_, h⟩
  | finished d now h =>
    obtain ⟨rfl, -⟩ := List.append_inj' hall rfl
    exact ⟨_, h⟩
  | finalizeFailed d f now h =>
    obtain ⟨rfl, -⟩ := List.append_inj' hall rfl
    exact ⟨_, h⟩

/-- A history leaves its operation prepared exactly where the table holds it prepared. -/
theorem prepared_iff (h : History held w) :
    w.foldl (fun _ x => x.state) Recovered.unknown = .prepared ↔
      held.any Transaction.isPrepared = true := by
  cases h with
  | finished d => cases d <;> simp [JournalEvent.state, Endpoint.finishedEvent,
      PreparedTransaction.finish]
  | _ => simp [JournalEvent.state, Transaction.isPrepared]

end History

/-! ## Recovery -/

/-- **What is recovered is what is held**, where the journal and the table agree on every operation. -/
theorem History.recovers {e : Endpoint} {j : Journal}
    (h : ∀ id, History (e.transactions.get? id) (j.history id)) :
    j.prepared = .ok e.preparedIds := by
  have hread : ∀ id ∈ j.operations, (j.entries.get? id).isSome = true :=
    fun id hid => (Table.mem_ids j.entries id).mp hid
  unfold Journal.prepared recoverPrepared
  simp only
  rw [Journal.recoverAmong_read j hread]
  congr 1
  -- both lists ascend, so it is enough that they have the same members
  refine Table.ids_ext (j.entries.ascending_ids.filter _) e.ascending_preparedIds fun id => ?_
  rw [List.mem_filter, decide_eq_true_eq, (h id).prepared_iff, Endpoint.mem_preparedIds]
  refine and_iff_right_of_imp fun hprepared => (Table.mem_ids j.entries id).mpr ?_
  -- an operation without a line in the journal has an empty history, and is not prepared
  rw [← (h id).prepared_iff] at hprepared
  unfold Journal.history at hprepared
  cases hget : j.entries.get? id with
  | some entries => rfl
  | none =>
    rw [hget] at hprepared
    contradiction

/-! ## What is due -/

/-- What the topmost frame has yet to bring about in the journal, for one operation. -/
inductive Due where
  | nothing
  /-- An event is on its way. -/
  | event (x : JournalEvent)
  /-- A transaction that was taken by a decision is on its way to its end. -/
  | ending (t : PreparedTransaction)

/-- The table and the journal agree on an operation, up to what is due. -/
inductive Accord : Option Transaction → List JournalEvent → Due → Prop
  | settled {held : Option Transaction} {w : List JournalEvent} (h : History held w) :
      Accord held w .nothing
  | event {held : Option Transaction} {w : List JournalEvent} {x : JournalEvent}
      (h : History held (w ++ [x])) : Accord held w (.event x)
  | ending {w : List JournalEvent} {t : PreparedTransaction}
      (h : History (some (.prepared t)) w) : Accord none w (.ending t)

/-- Where nothing is due, the table and the journal agree. -/
theorem Accord.settle {held : Option Transaction} {w : List JournalEvent}
    (h : Accord held w .nothing) : History held w := by
  cases h with
  | settled h => exact h

/-- Whatever is due, what the journal says so far is made of lives. -/
theorem Accord.lives {held : Option Transaction} {w : List JournalEvent} {due : Due}
    (h : Accord held w due) : Lives w := by
  cases h with
  | settled h => exact h.lives
  | event h =>
    obtain ⟨before, hbefore⟩ := h.of_snoc
    exact hbefore.lives
  | ending h => exact h.lives

namespace Endpoint

/-- Whether something is due from a frame, whatever the operation. -/
def Frame.urgent : Frame → Bool
  | .todo (.raise (.record ..)) | .inside (.record ..) | .todo (.raise (.finalize ..))
  | .inside (.finalize ..) | .todo (.finalized ..) => true
  | _ => false

/-- What is due from a frame. -/
def Frame.due (id : OperationId) : Frame → Due
  | .todo (.raise (.record i x)) | .inside (.record i x) => if i = id then .event x else .nothing
  | .todo (.raise (.finalize t _)) | .inside (.finalize t _) | .todo (.finalized t _ _) =>
    if t.id = id then .ending t else .nothing
  | _ => .nothing

/-- What is due from a stack: the frames below the topmost wait. -/
def due (id : OperationId) : List Frame → Due
  | [] => .nothing
  | f :: _ => f.due id

theorem Frame.due_of_calm {f : Frame} (hf : f.urgent = false) (id : OperationId) :
    f.due id = .nothing := by
  unfold Frame.urgent at hf
  split at hf
  all_goals first | contradiction | skip
  unfold Frame.due
  split <;> simp_all

/-- What comes upon a calm stack decides what is due. -/
theorem due_append {rest : List Frame} (hrest : ∀ f ∈ rest, f.urgent = false) (id : OperationId)
    (frames : List Frame) : due id (frames ++ rest) = due id frames := by
  cases frames with
  | cons f frames => rfl
  | nil =>
    cases rest with
    | nil => rfl
    | cons f rest => exact Frame.due_of_calm (hrest f List.mem_cons_self) id

end Endpoint

namespace Endpoint

variable (e : Endpoint) (now : UInt64)

/-- At most the first of the frames that a move leaves behind is urgent. -/
theorem calm_perform (t : Task) : ∀ f ∈ (e.perform now t).frames.tail, f.urgent = false := by
  have htake (id : OperationId) (decision : Decision) :
      ∀ f ∈ (e.take id decision).frames.tail, f.urgent = false := by
    unfold take
    split <;> simp
  cases t with
  | receive m =>
    cases m with
    | execute id payload =>
      simp only [perform, enter]
      split <;> simp [Frame.urgent]
    | commit id => exact htake id .commit
    | rollback id => exact htake id .rollback
  | decode id payload =>
    simp only [perform, decode]
    split <;> simp
  | prepared id result =>
    rcases result with f | result
    · simp [perform, prepared, Frame.urgent]
    · simp [perform, prepared, Frame.urgent]
  | finalized t decision result =>
    rcases result with f | result
    · simp [perform, finalized, Frame.urgent]
    · simp [perform, finalized, Frame.urgent]
  | recorded id result =>
    rcases result with err | number
    · simp [perform]
    · simp [perform]
  | note n => simp [perform]
  | raise u => simp [perform]

section
variable {id : OperationId} {held : Option Transaction} {w : List JournalEvent}

variable {e}

theorem accord_execute (i : OperationId) (payload : List UInt8)
    (h : History (e.transactions.get? id) w) :
    Accord ((e.enter now i payload).endpoint.transactions.get? id) w
      (due id (e.enter now i payload).frames) := by
  unfold enter
  by_cases hknown : e.transactions.contains i = true
  · rw [if_pos hknown]
    exact .settled h
  · rw [if_neg hknown]
    by_cases hi : i = id
    · subst hi
      have hnone : e.transactions.get? i = none := by simpa [Table.contains] using hknown
      rw [hnone] at h
      simp only [Table.get?_insert, due, Frame.due, if_true]
      exact .event (.received ⟨i, now⟩ h)
    · simp only [Table.get?_insert, due, Frame.due, if_neg hi, if_neg (Ne.symm hi)]
      exact .settled h

theorem accord_take (hkeyed : e.Keyed) (i : OperationId) (decision : Decision)
    (h : History (e.transactions.get? id) w) :
    Accord ((e.take i decision).endpoint.transactions.get? id) w
      (due id (e.take i decision).frames) := by
  unfold take
  rcases hheld : e.transactions.get? i with _ | t | t
  · exact .settled h
  · exact .settled h
  · have ht : t.id = i := hkeyed i _ hheld
    by_cases hi : i = id
    · subst hi
      rw [hheld] at h
      simp only [Table.get?_erase, due, Frame.due, ht, if_true]
      exact .ending h
    · simp only [Table.get?_erase, due, Frame.due, ht, if_neg hi, if_neg (Ne.symm hi)]
      exact .settled h

theorem accord_prepared {i : OperationId} {at_ : UInt64} (result : Except Failure Value)
    (howned : e.transactions.get? i = some (.received ⟨i, at_⟩))
    (h : History (e.transactions.get? id) w) :
    Accord ((e.prepared now i result).endpoint.transactions.get? id) w
      (due id (e.prepared now i result).frames) := by
  by_cases hi : i = id
  · subst hi
    rw [howned] at h
    rcases result with f | result
    · simp only [prepared, Table.get?_erase, due, Frame.due, if_true]
      exact .event (.rejected f now h)
    · simp only [prepared, howned, Table.get?_insert, due, Frame.due, if_true]
      exact .event (.prepared now h)
  · rcases result with f | result
    · simp only [prepared, Table.get?_erase, due, Frame.due, if_neg hi, if_neg (Ne.symm hi)]
      exact .settled h
    · simp only [prepared, howned, Table.get?_insert, due, Frame.due, if_neg hi,
        if_neg (Ne.symm hi)]
      exact .settled h

theorem accord_finalized (t : PreparedTransaction) (decision : Decision)
    (result : Except Failure Value)
    (h : Accord (e.transactions.get? id) w ((Frame.todo (.finalized t decision result)).due id)) :
    Accord ((e.finalized now t decision result).endpoint.transactions.get? id) w
      (due id (e.finalized now t decision result).frames) := by
  by_cases ht : t.id = id
  · simp only [Frame.due, if_pos ht] at h
    generalize hheld : e.transactions.get? id = held at h
    cases h with
    | ending h =>
      rcases result with f | result
      · simp only [finalized, due, Frame.due, if_pos ht, hheld]
        exact .event (.finalizeFailed decision f now h)
      · simp only [finalized, due, Frame.due, if_pos ht, hheld]
        exact .event (.finished decision now h)
  · simp only [Frame.due, if_neg ht] at h
    rcases result with f | result
    · simpa only [finalized, due, Frame.due, if_neg ht] using h
    · simpa only [finalized, due, Frame.due, if_neg ht] using h

/-- **A move keeps the books in order**, if a thread that learns what came of a preparation finds the
submission in the table. -/
theorem accord_perform (hkeyed : e.Keyed) (t : Task)
    (howned : ∀ i result, t = .prepared i result →
      ∃ at_, e.transactions.get? i = some (.received ⟨i, at_⟩))
    (h : Accord (e.transactions.get? id) w ((Frame.todo t).due id)) :
    Accord ((e.perform now t).endpoint.transactions.get? id) w (due id (e.perform now t).frames) := by
  cases t with
  | receive m =>
    cases m with
    | execute i payload => exact accord_execute now i payload h.settle
    | commit i => exact accord_take hkeyed i .commit h.settle
    | rollback i => exact accord_take hkeyed i .rollback h.settle
  | decode i payload =>
    simp only [perform, decode]
    split <;> exact h
  | prepared i result =>
    obtain ⟨at_, hheld⟩ := howned i result rfl
    exact accord_prepared now result hheld h.settle
  | finalized t decision result => exact accord_finalized now t decision result h
  | recorded i result =>
    rcases result with err | number
    · exact h
    · exact h
  | note n => exact h
  | raise u => cases u <;> exact h

end

end Endpoint

/-! ## An endpoint with its journal -/

/-- One endpoint, its journal, and the thread in it. -/
structure JournaledEndpoint where
  endpoint : Endpoint
  journal : Journal
  stack : List Frame

namespace JournaledEndpoint

/-- A message is taken between two others, and while the handler prepares or a reply is
delivered. -/
def isFree : List Frame → Bool
  | [] | .inside (.prepare ..) :: _ | .inside (.reply _) :: _ => true
  | _ => false

/-- What a schedule may pick. -/
inductive Choice where
  /-- A message is to be handled. -/
  | hand (m : Outbound)
  /-- The handler, while it prepares, sends a report. -/
  | report (severity : Severity) (text : String)
  /-- The thread makes its next move, at a time. -/
  | move (now : UInt64)
  /-- The foreign code that the thread is inside of answers, at a time. The result is the handler's. -/
  | answer (now : UInt64) (result : Except Failure Value)

/-- Nothing was handled yet, and the journal is empty. -/
def fresh : JournaledEndpoint := ⟨.fresh, .empty, []⟩

/-- What foreign code answers, and the journal after that. -/
def respond (j : Journal) (now : UInt64) (result : Except Failure Value) : Upcall → Answer × Journal
  | .record id x => (.journaled (.ok (j.append id x now).1), (j.append id x now).2)
  | .reply _ => (.returned, j)
  | .prepare .. | .finalize .. => (.handled result, j)

/-- What a choice leads to. A choice that the thread cannot follow changes nothing. -/
def act (c : JournaledEndpoint) : Choice → JournaledEndpoint
  | .hand m => if isFree c.stack then { c with stack := .todo (.receive m) :: c.stack } else c
  | .report severity text =>
    match c.stack with
    | .inside (.prepare id payload) :: rest =>
      { c with
        stack := .todo (.raise (.reply (.report id severity text))) ::
          .inside (.prepare id payload) :: rest }
    | _ => c
  | .move now =>
    match c.stack with
    | .todo t :: rest =>
      ⟨(c.endpoint.perform now t).endpoint, c.journal, (c.endpoint.perform now t).frames ++ rest⟩
    | _ => c
  | .answer now result =>
    match c.stack with
    | .inside u :: rest =>
      ⟨c.endpoint, (respond c.journal now result u).2,
        u.resume (respond c.journal now result u).1 ++ rest⟩
    | _ => c

/-- The endpoint and its journal after a schedule. -/
def run (schedule : List Choice) : JournaledEndpoint := schedule.foldl act fresh

theorem run_append (schedule : List Choice) (choice : Choice) :
    run (schedule ++ [choice]) = (run schedule).act choice := by
  rw [run, List.foldl_append]
  rfl

/-! ## A single thread -/

/-- The endpoint with its only thread. -/
def endpointThreads (c : JournaledEndpoint) (past : List (Nat × Incident)) : EndpointThreads :=
  ⟨c.endpoint, [c.stack], past⟩

/-- Whatever is done here, the threads of an endpoint could have done. -/
theorem exists_endpointThreads (schedule : List Choice) :
    ∃ plan past, EndpointThreads.run plan = (run schedule).endpointThreads past := by
  induction schedule using List.reverseRecOn with
  | nil => exact ⟨[.join], [], rfl⟩
  | append_singleton schedule choice ih =>
    obtain ⟨plan, past, hplan⟩ := ih
    rw [run_append]
    generalize run schedule = c at hplan ⊢
    obtain ⟨e, j, stack⟩ := c
    -- each choice here is one choice of the only thread, or none where it changes nothing
    have hmore (next : EndpointThreads.Choice) :
        EndpointThreads.run (plan ++ [next]) = (EndpointThreads.mk e [stack] past).act next := by
      rw [EndpointThreads.run, List.foldl_append, ← EndpointThreads.run, hplan]
      rfl
    cases choice with
    | hand m =>
      by_cases hfree : isFree stack = true
      · have hfree' : EndpointThreads.isFree stack = true := by
          unfold isFree at hfree
          split at hfree <;> first | rfl | contradiction
        exact ⟨plan ++ [.hand 0 m], past,
          by simp [hmore, EndpointThreads.act, act, hfree, hfree', endpointThreads]⟩
      · exact ⟨plan, past, by simp [hplan, act, hfree, endpointThreads]⟩
    | report severity text =>
      rcases stack with _ | ⟨t | u, rest⟩
      · exact ⟨plan, past, hplan⟩
      · exact ⟨plan, past, hplan⟩
      · cases u with
        | prepare id payload =>
          exact ⟨plan ++ [.report 0 severity text], past,
            by simp [hmore, EndpointThreads.act, act, endpointThreads]⟩
        | _ => exact ⟨plan, past, hplan⟩
    | move now =>
      rcases stack with _ | ⟨t | u, rest⟩
      · exact ⟨plan, past, hplan⟩
      · exact ⟨plan ++ [.move 0 now], _, by simp [hmore, EndpointThreads.act, act, endpointThreads]; rfl⟩
      · exact ⟨plan, past, hplan⟩
    | answer now result =>
      rcases stack with _ | ⟨t | u, rest⟩
      · exact ⟨plan, past, hplan⟩
      · exact ⟨plan, past, hplan⟩
      · exact ⟨plan ++ [.answer 0 (respond j now result u).1], _, by
          simp [hmore, EndpointThreads.act, act, endpointThreads]; rfl⟩

/-! ## The books -/

/-- The table and the journal agree on every operation, up to what the topmost frame has yet to bring
about; nothing is due of the frames below. -/
structure Books (c : JournaledEndpoint) : Prop where
  accord : ∀ id, Accord (c.endpoint.transactions.get? id) (c.journal.history id)
    (Endpoint.due id c.stack)
  calm : ∀ f ∈ c.stack.tail, f.urgent = false

variable {e : Endpoint} {j : Journal} {f : Frame} {rest : List Frame}

theorem Books.push (h : Books ⟨e, j, rest⟩) (hrest : ∀ g ∈ rest, g.urgent = false)
    (hf : f.urgent = false) : Books ⟨e, j, f :: rest⟩ where
  accord := fun id => by
    have haccord := h.accord id
    rw [show rest = [] ++ rest from rfl, Endpoint.due_append hrest] at haccord
    have hnothing : Endpoint.due id (f :: rest) = .nothing := Frame.due_of_calm hf id
    rw [hnothing]
    exact haccord
  calm := hrest

/-- The topmost frame gives way to others of which only the first is urgent, if any. -/
theorem Books.replace {e' : Endpoint} {j' : Journal} {frames : List Frame}
    (h : Books ⟨e, j, f :: rest⟩) (hcalm : ∀ g ∈ frames.tail, g.urgent = false)
    (haccord : ∀ id, Accord (e.transactions.get? id) (j.history id) (f.due id) →
      Accord (e'.transactions.get? id) (j'.history id) (Endpoint.due id frames)) :
    Books ⟨e', j', frames ++ rest⟩ where
  accord := fun id => by
    have hrest : ∀ g ∈ rest, g.urgent = false := h.calm
    rw [Endpoint.due_append hrest]
    exact haccord id (h.accord id)
  calm := by
    have hrest : ∀ g ∈ rest, g.urgent = false := h.calm
    intro g hg
    cases frames with
    | nil => exact hrest g (List.mem_of_mem_tail hg)
    | cons f' frames =>
      rcases List.mem_append.mp hg with hg | hg
      · exact hcalm g hg
      · exact hrest g hg

/-- An answer keeps the books in order: what the journal is told is what was due. -/
theorem accord_respond (now : UInt64) (result : Except Failure Value) (u : Upcall)
    {id : OperationId} {held : Option Transaction}
    (h : Accord held (j.history id) ((Frame.inside u).due id)) :
    Accord held ((respond j now result u).2.history id)
      (Endpoint.due id (u.resume (respond j now result u).1)) := by
  cases u with
  | record i x =>
    simp only [respond, Journal.history_append, Upcall.resume, Endpoint.due, Frame.due]
    simp only [Frame.due] at h
    by_cases hi : i = id
    · rw [if_pos hi] at h
      rw [if_pos hi.symm]
      cases h with
      | event h => exact .settled h
    · rw [if_neg hi] at h
      rw [if_neg (Ne.symm hi)]
      exact h
  | prepare i payload => exact h
  | finalize t decision => exact h
  | reply m => exact h

/-- **Every choice keeps the books in order.** -/
theorem Books.act {c : JournaledEndpoint} (h : Books c) (hkeyed : c.endpoint.Keyed)
    (howned : ∀ i result rest, c.stack = .todo (.prepared i result) :: rest →
      ∃ at_, c.endpoint.transactions.get? i = some (.received ⟨i, at_⟩)) (choice : Choice) :
    Books (c.act choice) := by
  obtain ⟨e, j, stack⟩ := c
  cases choice with
  | hand m =>
    by_cases hfree : isFree stack = true
    · simp only [JournaledEndpoint.act, if_pos hfree]
      -- a message is handed in only where nothing is due to the journal, so a frame may be put on top
      have hcalm : ∀ g ∈ stack, g.urgent = false := by
        unfold isFree at hfree
        split at hfree
        · simp
        · exact List.forall_mem_cons.mpr ⟨rfl, h.calm⟩
        · exact List.forall_mem_cons.mpr ⟨rfl, h.calm⟩
        · contradiction
      exact h.push hcalm rfl
    · simp only [JournaledEndpoint.act, if_neg hfree]
      exact h
  | report severity text =>
    rcases stack with _ | ⟨t | u, rest⟩
    · exact h
    · exact h
    · cases u with
      | prepare id payload => exact h.push (List.forall_mem_cons.mpr ⟨rfl, h.calm⟩) rfl
      | _ => exact h
  | move now =>
    rcases stack with _ | ⟨t | u, rest⟩
    · exact h
    · exact h.replace (e.calm_perform now t) fun id => Endpoint.accord_perform now hkeyed t
        fun i result ht => howned i result rest (by rw [ht])
    · exact h
  | answer now result =>
    rcases stack with _ | ⟨t | u, rest⟩
    · exact h
    · exact h
    · have hcalm : ∀ g ∈ (u.resume (respond j now result u).1).tail, g.urgent = false := by
        cases u <;> simp [respond, Upcall.resume]
      exact h.replace hcalm fun id => accord_respond now result u

/-- The books are in order after every schedule. -/
theorem books (schedule : List Choice) : Books (run schedule) := by
  induction schedule using List.reverseRecOn with
  | nil => exact ⟨fun id => .settled .fresh, fun f hf => by contradiction⟩
  | append_singleton schedule choice ih =>
    rw [run_append]
    obtain ⟨plan, past, hplan⟩ := exists_endpointThreads schedule
    have horder (id : OperationId) := hplan ▸ EndpointThreads.inOrder plan id
    refine ih.act (horder ⟨0⟩).keyed (fun i result rest hstack => ?_) choice
    have howns : Frame.owns i (.todo (.prepared i result)) = true := decide_eq_true rfl
    have hthread : [(run schedule).stack][0]? = some (run schedule).stack := rfl
    obtain ⟨at_, hheld, -⟩ := (horder i).owned hthread (hstack ▸ List.mem_cons_self) howns
    exact ⟨at_, hheld⟩

/-- What can be relied on after a restart. -/
structure Recoverable (c : JournaledEndpoint) : Prop where
  /-- While a reply is delivered, the operations that the journal finds prepared are those that the table
  holds prepared. -/
  replying : ∀ m rest, c.stack = .inside (.reply m) :: rest →
    c.journal.prepared = .ok c.endpoint.preparedIds
  /-- So they are between messages. -/
  between : c.stack = [] → c.journal.prepared = .ok c.endpoint.preparedIds
  /-- At all times the journal of an operation is one life of a submission after the other. -/
  lives : ∀ id, Lives (c.journal.history id)

/-- **The journal recovers what the table holds**, whatever the messages, the handler's answers and what
is handed in while it prepares or a reply is delivered. -/
theorem recoverable (schedule : List Choice) : Recoverable (run schedule) := by
  have h := books schedule
  refine ⟨fun m rest hstack => ?_, fun hstack => ?_, fun id => ?_⟩
  · refine History.recovers fun id => Accord.settle ?_
    have haccord := h.accord id
    rw [hstack] at haccord
    exact haccord
  · refine History.recovers fun id => Accord.settle ?_
    have haccord := h.accord id
    rw [hstack] at haccord
    exact haccord
  · exact (h.accord id).lives

/-- One submission, up to the reply that says that it is prepared. -/
def submission : List Choice :=
  [.hand (.execute ⟨1⟩ (Payload.mk .undefined []).toJson), .move 0, .move 0,
    .answer 0 (.ok .undefined), .move 0, .move 0, .move 0, .answer 0 (.ok .undefined), .move 0, .move 0,
    .answer 0 (.ok .undefined), .move 0, .move 0, .move 0, .answer 0 (.ok .undefined)]

/-- After a restart at that point the journal finds this submission. -/
theorem recoverable_of_submission :
    (run submission).stack = [] ∧ (run submission).journal.prepared = .ok [⟨1⟩] := by
  have hempty : (run submission).stack.isEmpty = true := by decide +kernel
  have hstack : (run submission).stack = [] := List.isEmpty_iff.mp hempty
  have hheld : (run submission).endpoint.preparedIds = [⟨1⟩] := by decide +kernel
  refine ⟨hstack, ?_⟩
  rw [(recoverable submission).between hstack, hheld]

end JournaledEndpoint

end TwoPhase
