import TwoPhase.Participant.Endpoint
import TwoPhase.Participant.Handler
import Mathlib.Logic.Function.Iterate
/-
A participant that handles one message at a time.

Here it is an endpoint with a handler behind it, and a thread that handles one message. The handler
is any handler, with any state of its own, and the journal answers whatever it likes. What handling a
message comes to is said once (`serve_ends`), so that later proofs never look at the moves.
-/

set_option autoImplicit false

namespace TwoPhase

open Endpoint (Task Frame Upcall Answer)

/-- What the handler was made to do. -/
inductive HandlerCall where
  | prepared (id : OperationId) (payload : Payload) (result : Except Failure Value)
  | finalized (id : OperationId) (decision : Decision) (result : Except Failure Value)

/-- An endpoint, the state of its handler, what is left to do about a message, and what was done about
it: the replies, the calls of the handler and the notes. -/
structure MessageHandling (σ : Type) where
  endpoint : Endpoint
  store : σ
  frames : List Frame
  replies : List Inbound
  handlerCalls : List HandlerCall
  notes : List Note

namespace MessageHandling

variable {σ : Type} (h : Handler σ) (now : UInt64)
  (journal : JournalEvent → Except JournalError UInt64)

/-- One move: of the endpoint, or of the foreign code that it is inside of. -/
def move (x : MessageHandling σ) : MessageHandling σ :=
  match x.frames with
  | [] => x
  | .todo t :: rest =>
    let stride := x.endpoint.perform now t
    { x with
      endpoint := stride.endpoint
      frames := stride.frames ++ rest
      notes := x.notes ++ stride.notes }
  | .inside (.prepare id p) :: rest =>
    let (result, store) := h.prepare x.store id p
    { x with
      store := store
      frames := (Upcall.prepare id p).resume (.handled result) ++ rest
      replies := x.replies ++ (h.reports x.store id p).map fun r => .report id r.severity r.text
      handlerCalls := x.handlerCalls ++ [.prepared id p result] }
  | .inside (.finalize t decision) :: rest =>
    let (result, store) := h.finalize x.store t.id decision
    { x with
      store := store
      frames := (Upcall.finalize t decision).resume (.handled result) ++ rest
      handlerCalls := x.handlerCalls ++ [.finalized t.id decision result] }
  | .inside (.record id event) :: rest =>
    { x with frames := (Upcall.record id event).resume (.journaled (journal event)) ++ rest }
  | .inside (.reply m) :: rest =>
    { x with frames := (Upcall.reply m).resume .returned ++ rest, replies := x.replies ++ [m] }

/-- A participant that is about to handle a message. -/
def opening (e : Endpoint) (store : σ) (m : Outbound) : MessageHandling σ :=
  ⟨e, store, [.todo (.receive m)], [], [], []⟩

/-- A participant that has handled a message. Fourteen moves are enough for any (`serve_ends`). -/
def serve (e : Endpoint) (store : σ) (m : Outbound) : MessageHandling σ :=
  (move h now journal)^[14] (opening e store m)

end MessageHandling

/-! ## What handling a message comes to -/

/-- The decisions that found no prepared operation. Such a note stands for the reply that says so. -/
def Note.misplaced? : Note → Option (OperationId × Decision)
  | .notPrepared id decision => some (id, decision)
  | _ => none

/-- The reply that announces the end of a transaction. -/
def HandlerCall.reply (id : OperationId) : Except Failure Value → Inbound
  | .ok result => .completed id result
  | .error f => .failed id f

/-- Everything that handling a message can come to. -/
inductive Serving {σ : Type} (h : Handler σ) :
    Endpoint → σ → Outbound → Endpoint → σ → List Inbound → List HandlerCall → List Note → Prop
  /-- The operation is under way already. -/
  | ignored {e : Endpoint} {store : σ} {id : OperationId} {payload : List UInt8} {notes : List Note}
      (hknown : e.transactions.contains id = true)
      (hnotes : notes.filterMap Note.misplaced? = []) :
      Serving h e store (.execute id payload) e store [] [] notes
  /-- The payload cannot be read. -/
  | malformed {e : Endpoint} {store : σ} {id : OperationId} {payload : List UInt8}
      {notes : List Note} {fault : Json.ReadError}
      (hunknown : e.transactions.get? id = none) (hdecode : Payload.decode payload = .error fault)
      (hnotes : notes.filterMap Note.misplaced? = []) :
      Serving h e store (.execute id payload) e store
        [.failed id (.rejected ("malformed operation: " ++ fault.message))] [] notes
  /-- The handler refuses the operation. -/
  | refused {e : Endpoint} {store store' : σ} {id : OperationId} {payload : List UInt8}
      {notes : List Note} {p : Payload} {f : Failure} {reports : List Report}
      (hunknown : e.transactions.get? id = none) (hdecode : Payload.decode payload = .ok p)
      (hprepare : h.prepare store id p = (.error f, store'))
      (hnotes : notes.filterMap Note.misplaced? = []) :
      Serving h e store (.execute id payload) e store'
        ((reports.map fun r => .report id r.severity r.text) ++ [.failed id f])
        [.prepared id p (.error f)] notes
  /-- The handler prepares the operation, and the change is held. -/
  | held {e : Endpoint} {store store' : σ} {id : OperationId} {payload : List UInt8}
      {notes : List Note} {p : Payload} {result : Value} {t : PreparedTransaction}
      {reports : List Report}
      (hunknown : e.transactions.get? id = none) (hdecode : Payload.decode payload = .ok p)
      (hprepare : h.prepare store id p = (.ok result, store')) (ht : t.id = id)
      (hnotes : notes.filterMap Note.misplaced? = []) :
      Serving h e store (.execute id payload) ⟨e.transactions.insert id (.prepared t)⟩ store'
        ((reports.map fun r => .report id r.severity r.text) ++ [.prepared id result])
        [.prepared id p (.ok result)] notes
  /-- A decision finds nothing to decide. -/
  | misplaced {e : Endpoint} {store : σ} {id : OperationId} {decision : Decision}
      {notes : List Note} (hunheld : ∀ t, e.transactions.get? id ≠ some (.prepared t)) :
      Serving h e store (.decide id decision) e store
        [.failed id (.rejected ("no prepared operation " ++ id.text))] [] notes
  /-- A decision is carried out. -/
  | finalized {e : Endpoint} {store store' : σ} {id : OperationId} {decision : Decision}
      {notes : List Note} {t : PreparedTransaction} {result : Except Failure Value}
      (hheld : e.transactions.get? id = some (.prepared t))
      (hfinalize : h.finalize store t.id decision = (result, store'))
      (hnotes : notes.filterMap Note.misplaced? = []) :
      Serving h e store (.decide id decision) ⟨e.transactions.erase id⟩ store'
        [HandlerCall.reply t.id result] [.finalized t.id decision result] notes

namespace MessageHandling

variable {σ : Type} (h : Handler σ) (now : UInt64)
  (journal : JournalEvent → Except JournalError UInt64)

/-- What is noted about an append to the journal. -/
def journalNotes (id : OperationId) : Except JournalError UInt64 → List Note
  | .ok _ => []
  | .error err => [.notJournaled id err]

theorem misplaced_journalNotes (id : OperationId) (result : Except JournalError UInt64) :
    (journalNotes id result).filterMap Note.misplaced? = [] := by
  cases result <;> rfl

/-- Three moves append to the journal, whatever the journal says. -/
theorem move_record (e : Endpoint) (store : σ) (id : OperationId) (event : JournalEvent)
    (rest : List Frame) (replies : List Inbound) (handlerCalls : List HandlerCall) (notes : List Note) :
    (move h now journal)^[3]
        ⟨e, store, .todo (.raise (.record id event)) :: rest, replies, handlerCalls, notes⟩ =
      ⟨e, store, rest, replies, handlerCalls, notes ++ journalNotes id (journal event)⟩ := by
  rcases hresult : journal event with err | number <;>
    simp [Function.iterate_succ_apply, move, Endpoint.perform, Upcall.resume, hresult, journalNotes]

theorem move_reply (e : Endpoint) (store : σ) (m : Inbound) (rest : List Frame)
    (replies : List Inbound) (handlerCalls : List HandlerCall) (notes : List Note) :
    (move h now journal)^[2] ⟨e, store, .todo (.raise (.reply m)) :: rest, replies, handlerCalls, notes⟩ =
      ⟨e, store, rest, replies ++ [m], handlerCalls, notes⟩ := by
  simp [Function.iterate_succ_apply, move, Endpoint.perform, Upcall.resume]

theorem move_idle (n : Nat) (e : Endpoint) (store : σ) (replies : List Inbound)
    (handlerCalls : List HandlerCall) (notes : List Note) :
    (move h now journal)^[n] ⟨e, store, [], replies, handlerCalls, notes⟩ =
      ⟨e, store, [], replies, handlerCalls, notes⟩ :=
  Function.iterate_fixed rfl n

/-- Seven moves bring the refusal of an operation to an end. -/
theorem move_refused (e : Endpoint) (store : σ) (id : OperationId) (f : Failure)
    (replies : List Inbound) (handlerCalls : List HandlerCall) (notes : List Note) :
    (move h now journal)^[7]
        ⟨e, store, [.todo (.prepared id (.error f))], replies, handlerCalls, notes⟩ =
      ⟨⟨e.transactions.erase id⟩, store, [], replies ++ [.failed id f], handlerCalls,
        notes ++ journalNotes id (journal (.rejected f now)) ++ [.operationRejected id f]⟩ := by
  -- one move to decide, three for the journal, one for the note and two for the reply
  rw [Function.iterate_add_apply _ 2 5, Function.iterate_add_apply _ 1 4,
    Function.iterate_add_apply _ 3 1]
  have hfirst : move h now journal
      ⟨e, store, [.todo (.prepared id (.error f))], replies, handlerCalls, notes⟩ =
      ⟨⟨e.transactions.erase id⟩, store, .todo (.raise (.record id (.rejected f now))) ::
        [.todo (.note (.operationRejected id f)), .todo (.raise (.reply (.failed id f)))],
        replies, handlerCalls, notes⟩ := by
    simp [move, Endpoint.perform, Endpoint.prepared]
  rw [Function.iterate_one, hfirst, move_record]
  have hnote : move h now journal ⟨⟨e.transactions.erase id⟩, store,
      [.todo (.note (.operationRejected id f)), .todo (.raise (.reply (.failed id f)))], replies,
      handlerCalls, notes ++ journalNotes id (journal (.rejected f now))⟩ =
      ⟨⟨e.transactions.erase id⟩, store, [.todo (.raise (.reply (.failed id f)))], replies,
        handlerCalls,
        notes ++ journalNotes id (journal (.rejected f now)) ++ [.operationRejected id f]⟩ := by
    simp [move, Endpoint.perform]
  rw [hnote, move_reply]

/-- Seven moves bring the announcement of a prepared operation to an end. -/
theorem move_held (e : Endpoint) (store : σ) (id : OperationId) (t : ReceivedTransaction)
    (result : Value) (replies : List Inbound) (handlerCalls : List HandlerCall) (notes : List Note)
    (ht : e.transactions.get? id = some (.received t)) :
    (move h now journal)^[7]
        ⟨e, store, [.todo (.prepared id (.ok result))], replies, handlerCalls, notes⟩ =
      ⟨⟨e.transactions.insert id (.prepared (t.prepare now))⟩, store, [],
        replies ++ [.prepared id result], handlerCalls,
        notes ++ journalNotes id (journal (.prepared now)) ++ [.operationPrepared id]⟩ := by
  rw [Function.iterate_add_apply _ 2 5, Function.iterate_add_apply _ 1 4,
    Function.iterate_add_apply _ 3 1]
  have hfirst : move h now journal
      ⟨e, store, [.todo (.prepared id (.ok result))], replies, handlerCalls, notes⟩ =
      ⟨⟨e.transactions.insert id (.prepared (t.prepare now))⟩, store,
        .todo (.raise (.record id (.prepared now))) ::
        [.todo (.note (.operationPrepared id)), .todo (.raise (.reply (.prepared id result)))],
        replies, handlerCalls, notes⟩ := by
    simp [move, Endpoint.perform, Endpoint.prepared, ht]
  rw [Function.iterate_one, hfirst, move_record]
  have hnote : move h now journal ⟨⟨e.transactions.insert id (.prepared (t.prepare now))⟩, store,
      [.todo (.note (.operationPrepared id)), .todo (.raise (.reply (.prepared id result)))],
      replies, handlerCalls, notes ++ journalNotes id (journal (.prepared now))⟩ =
      ⟨⟨e.transactions.insert id (.prepared (t.prepare now))⟩, store,
        [.todo (.raise (.reply (.prepared id result)))], replies, handlerCalls,
        notes ++ journalNotes id (journal (.prepared now)) ++ [.operationPrepared id]⟩ := by
    simp [move, Endpoint.perform]
  rw [hnote, move_reply]

/-- Ten moves carry a decision out and announce how it went. -/
theorem move_finalize (e : Endpoint) (store : σ) (t : PreparedTransaction) (decision : Decision) :
    ∃ notes, notes.filterMap Note.misplaced? = [] ∧
      (move h now journal)^[9]
          ⟨e, store, [.todo (.raise (.finalize t decision))], [], [], []⟩ =
        ⟨e, (h.finalize store t.id decision).2, [],
          [HandlerCall.reply t.id (h.finalize store t.id decision).1],
          [.finalized t.id decision (h.finalize store t.id decision).1], notes⟩ := by
  rw [Function.iterate_add_apply _ 2 7, Function.iterate_add_apply _ 1 6,
    Function.iterate_add_apply _ 3 3]
  rcases hfinalize : h.finalize store t.id decision with ⟨f | result, store'⟩
  · have hfirst : (move h now journal)^[3]
        ⟨e, store, [.todo (.raise (.finalize t decision))], [], [], []⟩ =
        ⟨e, store', .todo (.raise (.record t.id (.finalizeFailed decision f now))) ::
          [.todo (.note (.finalizeFailed t.id decision f)),
            .todo (.raise (.reply (.failed t.id f)))],
          [], [.finalized t.id decision (.error f)], []⟩ := by
      simp [Function.iterate_succ_apply, move, Endpoint.perform, Endpoint.finalized, Upcall.resume,
        hfinalize]
    refine ⟨journalNotes t.id (journal (.finalizeFailed decision f now)) ++
      [.finalizeFailed t.id decision f], ?_, ?_⟩
    · rw [List.filterMap_append, misplaced_journalNotes]
      rfl
    · rw [hfirst, move_record]
      simp [Function.iterate_succ_apply, move, Endpoint.perform, Upcall.resume, HandlerCall.reply]
  · have hfirst : (move h now journal)^[3]
        ⟨e, store, [.todo (.raise (.finalize t decision))], [], [], []⟩ =
        ⟨e, store', .todo (.raise (.record t.id (Endpoint.finishedEvent (t.finish decision now)))) ::
          [.todo (.note (.finalized t.id decision)),
            .todo (.raise (.reply (.completed t.id result)))],
          [], [.finalized t.id decision (.ok result)], []⟩ := by
      simp [Function.iterate_succ_apply, move, Endpoint.perform, Endpoint.finalized, Upcall.resume,
        hfinalize]
    refine ⟨journalNotes t.id (journal (Endpoint.finishedEvent (t.finish decision now))) ++
      [.finalized t.id decision], ?_, ?_⟩
    · rw [List.filterMap_append, misplaced_journalNotes]
      rfl
    · rw [hfirst, move_record]
      simp [Function.iterate_succ_apply, move, Endpoint.perform, Upcall.resume, HandlerCall.reply]

/-- Handling a decision, from the frame that carries it out. -/
theorem serve_decision (e : Endpoint) (store : σ) (id : OperationId) (decision : Decision) :
    serve h now journal e store (.decide id decision) =
      (move h now journal)^[13]
        ⟨(e.take id decision).endpoint, store, (e.take id decision).frames, [], [],
          (e.take id decision).notes⟩ := by
  cases decision <;>
    simp [serve, opening, Outbound.decide, Function.iterate_succ_apply _ 13, move,
      Endpoint.perform]

/-- Handling a submission of an operation that is not under way, up to the result of preparing it. -/
theorem serve_submission (e : Endpoint) (store : σ) (id : OperationId) (payload : List UInt8)
    (hunknown : e.transactions.get? id = none) :
    serve h now journal e store (.execute id payload) =
      (move h now journal)^[10]
        ⟨⟨e.transactions.insert id (.received ⟨id, now⟩)⟩, store, [.todo (.decode id payload)], [],
          [], journalNotes id (journal (.received now))⟩ := by
  rw [serve, Function.iterate_add_apply _ 10 4, Function.iterate_add_apply _ 3 1]
  have hfirst : move h now journal (opening e store (.execute id payload)) =
      ⟨⟨e.transactions.insert id (.received ⟨id, now⟩)⟩, store,
        .todo (.raise (.record id (.received now))) :: [.todo (.decode id payload)], [], [], []⟩ := by
    simp [move, opening, Endpoint.perform, Endpoint.enter, Table.contains, hunknown]
  rw [Function.iterate_one, hfirst, move_record, List.nil_append]

/-- A participant has handled a message to the end, in one of the listed ways. -/
def Ends (e : Endpoint) (store : σ) (m : Outbound) (x : MessageHandling σ) : Prop :=
  x.frames = [] ∧ Serving h e store m x.endpoint x.store x.replies x.handlerCalls x.notes

theorem serve_misplaced (e : Endpoint) (store : σ) (id : OperationId) (decision : Decision)
    (hunheld : ∀ t, e.transactions.get? id ≠ some (.prepared t)) :
    Ends h e store (.decide id decision) (serve h now journal e store (.decide id decision)) := by
  have htake : e.take id decision =
      ⟨e, [.todo (.raise (.reply (.failed id (.rejected ("no prepared operation " ++ id.text)))))],
        [.notPrepared id decision]⟩ := by
    rw [Endpoint.take]
    split
    · rename_i t ht
      exact absurd ht (hunheld t)
    · rfl
  rw [serve_decision, htake, Function.iterate_add_apply _ 11 2, move_reply, move_idle]
  exact ⟨rfl, .misplaced hunheld⟩

theorem serve_finalized (e : Endpoint) (store : σ) (id : OperationId) (decision : Decision)
    (t : PreparedTransaction) (hheld : e.transactions.get? id = some (.prepared t)) :
    Ends h e store (.decide id decision) (serve h now journal e store (.decide id decision)) := by
  have htake : e.take id decision =
      ⟨⟨e.transactions.erase id⟩, [.todo (.raise (.finalize t decision))], []⟩ := by
    simp [Endpoint.take, hheld]
  obtain ⟨notes, hnotes, hmove⟩ :=
    move_finalize h now journal ⟨e.transactions.erase id⟩ store t decision
  rw [serve_decision, htake, Function.iterate_add_apply _ 4 9, hmove, move_idle]
  exact ⟨rfl, .finalized hheld rfl hnotes⟩

theorem serve_malformed (e : Endpoint) (store : σ) (id : OperationId) (payload : List UInt8)
    (fault : Json.ReadError) (hunknown : e.transactions.get? id = none)
    (hdecode : Payload.decode payload = .error fault) :
    Ends h e store (.execute id payload) (serve h now journal e store (.execute id payload)) := by
  have hread : move h now journal
      ⟨⟨e.transactions.insert id (.received ⟨id, now⟩)⟩, store, [.todo (.decode id payload)], [],
        [], journalNotes id (journal (.received now))⟩ =
      ⟨⟨e.transactions.insert id (.received ⟨id, now⟩)⟩, store,
        [.todo (.prepared id (.error (.rejected ("malformed operation: " ++ fault.message))))], [],
        [], journalNotes id (journal (.received now))⟩ := by
    simp [move, Endpoint.perform, Endpoint.decode, hdecode]
  rw [serve_submission h now journal e store id payload hunknown,
    Function.iterate_add_apply _ 2 8, Function.iterate_add_apply _ 7 1, Function.iterate_one, hread,
    move_refused, move_idle, Table.erase_insert hunknown]
  refine ⟨rfl, .malformed hunknown hdecode ?_⟩
  simp [List.filterMap_append, misplaced_journalNotes, Note.misplaced?, List.filterMap_cons]

theorem serve_prepared (e : Endpoint) (store : σ) (id : OperationId) (payload : List UInt8)
    (p : Payload) (hunknown : e.transactions.get? id = none)
    (hdecode : Payload.decode payload = .ok p) :
    Ends h e store (.execute id payload) (serve h now journal e store (.execute id payload)) := by
  have hread : (move h now journal)^[3]
      ⟨⟨e.transactions.insert id (.received ⟨id, now⟩)⟩, store, [.todo (.decode id payload)], [],
        [], journalNotes id (journal (.received now))⟩ =
      ⟨⟨e.transactions.insert id (.received ⟨id, now⟩)⟩, (h.prepare store id p).2,
        [.todo (.prepared id (h.prepare store id p).1)],
        (h.reports store id p).map fun r => .report id r.severity r.text,
        [.prepared id p (h.prepare store id p).1], journalNotes id (journal (.received now))⟩ := by
    simp [Function.iterate_succ_apply, move, Endpoint.perform, Endpoint.decode, hdecode,
      Upcall.resume]
  rw [serve_submission h now journal e store id payload hunknown, Function.iterate_add_apply _ 7 3,
    hread]
  rcases hprepare : h.prepare store id p with ⟨f | result, store'⟩
  · rw [move_refused, Table.erase_insert hunknown]
    refine ⟨rfl, .refused hunknown hdecode hprepare ?_⟩
    simp [List.filterMap_append, misplaced_journalNotes, Note.misplaced?, List.filterMap_cons]
  · rw [move_held h now journal _ _ id ⟨id, now⟩ result _ _ _ (by simp [Table.get?_insert]),
      Table.insert_insert]
    refine ⟨rfl, .held hunknown hdecode hprepare rfl ?_⟩
    simp [List.filterMap_append, misplaced_journalNotes, Note.misplaced?, List.filterMap_cons]

/-- **Every message is handled to the end**, and in one of the listed ways. -/
theorem serve_ends (e : Endpoint) (store : σ) (m : Outbound) :
    Ends h e store m (serve h now journal e store m) := by
  -- commit and rollback are handled alike
  have hdecision : ∀ id decision,
      Ends h e store (.decide id decision) (serve h now journal e store (.decide id decision)) := by
    intro id decision
    by_cases hheld : ∃ t, e.transactions.get? id = some (.prepared t)
    · obtain ⟨t, ht⟩ := hheld
      exact serve_finalized h now journal e store id decision t ht
    · exact serve_misplaced h now journal e store id decision fun t ht => hheld ⟨t, ht⟩
  cases m with
  | commit id => exact hdecision id .commit
  | rollback id => exact hdecision id .rollback
  | execute id payload =>
    cases hknown : e.transactions.get? id with
    | some transaction =>
      have hfirst : move h now journal (opening e store (.execute id payload)) =
          ⟨e, store, [], [], [], [.executeRepeated id]⟩ := by
        simp [move, opening, Endpoint.perform, Endpoint.enter, Table.contains, hknown]
      rw [serve, Function.iterate_add_apply _ 13 1, Function.iterate_one, hfirst, move_idle]
      exact ⟨rfl, .ignored (by simp [Table.contains, hknown]) rfl⟩
    | none =>
      cases hdecode : Payload.decode payload with
      | error fault => exact serve_malformed h now journal e store id payload fault hknown hdecode
      | ok p => exact serve_prepared h now journal e store id payload p hknown hdecode

end MessageHandling

end TwoPhase
