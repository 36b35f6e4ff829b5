import TwoPhase.Log.Note
import TwoPhase.Operation.Payload
import TwoPhase.Operation.Table
import TwoPhase.Participant.Journal
import TwoPhase.Participant.Transaction
/-
The participant's end: it takes submissions and decisions, has a handler prepare, commit and roll
back changes, keeps a journal and answers every message.

Like the client it is given as moves. The handler, the journal and the path of the replies are
foreign code, and each may come back with further messages while it is called; so a thread in here
is a stack of frames as well, and every section under the lock of the transactions is one move.
-/

set_option autoImplicit false

namespace TwoPhase

/-- The state that the threads inside an endpoint share. -/
structure Endpoint where
  transactions : Table Transaction

namespace Endpoint

/-- An endpoint that has not been used. -/
def fresh : Endpoint := ⟨.empty⟩

/-! ## Foreign code -/

/-- A call out of the endpoint. -/
inductive Upcall where
  /-- Has the handler prepare a change. While it does, it may send reports. -/
  | prepare (id : OperationId) (payload : Payload)
  /-- Has the handler apply or discard a prepared change. -/
  | finalize (t : PreparedTransaction) (decision : Decision)
  /-- Appends to the journal. -/
  | record (id : OperationId) (event : JournalEvent)
  /-- Sends a reply. -/
  | reply (m : Inbound)

/-- What foreign code answers. -/
inductive Answer where
  /-- It returned. -/
  | returned
  /-- The handler's result. -/
  | handled (result : Except Failure Value)
  /-- The journal's result. -/
  | journaled (result : Except JournalError UInt64)

/-- What a thread inside the endpoint is about to do. -/
inductive Task where
  /-- Takes a message. -/
  | receive (m : Outbound)
  /-- Reads the payload of an operation that was entered. -/
  | decode (id : OperationId) (payload : List UInt8)
  /-- Learns whether a change was prepared. -/
  | prepared (id : OperationId) (result : Except Failure Value)
  /-- Learns whether a decision was carried out. -/
  | finalized (t : PreparedTransaction) (decision : Decision) (result : Except Failure Value)
  /-- Learns whether an event was journaled. -/
  | recorded (id : OperationId) (result : Except JournalError UInt64)
  /-- Writes to the log. -/
  | note (n : Note)
  /-- Enters foreign code. -/
  | raise (u : Upcall)

/-- One frame of a thread: something to do, or the foreign code it is inside of. -/
inductive Frame where
  | todo (t : Task)
  | inside (u : Upcall)

/-- How a thread goes on when foreign code has answered. -/
def Upcall.resume : Upcall → Answer → List Frame
  | .prepare id _, .handled result => [.todo (.prepared id result)]
  | .finalize t decision, .handled result => [.todo (.finalized t decision result)]
  | .record id _, .journaled result => [.todo (.recorded id result)]
  | _, _ => []

/-! ## Moves -/

/-- The effect of one move: the new state, the frames that take the place of the one that moved, and
the notes it made. -/
structure Stride where
  endpoint : Endpoint
  frames : List Frame
  notes : List Note

/-- A submission is entered once; while it is under way, every further one of its identifier is
ignored. -/
def enter (e : Endpoint) (now : UInt64) (id : OperationId) (payload : List UInt8) : Stride :=
  if e.transactions.contains id then ⟨e, [], [.executeRepeated id]⟩
  else
    ⟨⟨e.transactions.insert id (.received ⟨id, now⟩)⟩,
      [.todo (.raise (.record id (.received now))), .todo (.decode id payload)], []⟩

/-- A decision takes its prepared transaction out of the table, so that it is carried out once. -/
def take (e : Endpoint) (id : OperationId) (decision : Decision) : Stride :=
  match e.transactions.get? id with
  | some (.prepared t) =>
    ⟨⟨e.transactions.erase id⟩, [.todo (.raise (.finalize t decision))], []⟩
  | _ =>
    ⟨e, [.todo (.raise (.reply (.failed id (.rejected ("no prepared operation " ++ id.text)))))],
      [.notPrepared id decision]⟩

/-- A payload that cannot be read is refused like one that the handler refuses. -/
def decode (e : Endpoint) (id : OperationId) (payload : List UInt8) : Stride :=
  match Payload.decode payload with
  | .ok p => ⟨e, [.todo (.raise (.prepare id p))], []⟩
  | .error f =>
    ⟨e, [.todo (.prepared id (.error (.rejected ("malformed operation: " ++ f.message))))], []⟩

/-- A prepared change is held and announced; a refused one is forgotten, and the refusal announced. -/
def prepared (e : Endpoint) (now : UInt64) (id : OperationId) : Except Failure Value → Stride
  | .ok result =>
    let transactions := match e.transactions.get? id with
      | some (.received t) => e.transactions.insert id (.prepared (t.prepare now))
      | some (.prepared _) => e.transactions.erase id
      | none => e.transactions
    ⟨⟨transactions⟩,
      [.todo (.raise (.record id (.prepared now))), .todo (.note (.operationPrepared id)),
        .todo (.raise (.reply (.prepared id result)))], []⟩
  | .error f =>
    ⟨⟨e.transactions.erase id⟩,
      [.todo (.raise (.record id (.rejected f now))), .todo (.note (.operationRejected id f)),
        .todo (.raise (.reply (.failed id f)))], []⟩

/-- The event of a decision that was carried out. -/
def finishedEvent (t : FinishedTransaction) : JournalEvent :=
  match t.decision with
  | .commit => .committed t.completedAt
  | .rollback => .rolledBack t.completedAt

/-- The end of a transaction is journaled and announced, whichever way it went. -/
def finalized (e : Endpoint) (now : UInt64) (t : PreparedTransaction) (decision : Decision) :
    Except Failure Value → Stride
  | .ok result =>
    ⟨e, [.todo (.raise (.record t.id (finishedEvent (t.finish decision now)))),
        .todo (.note (.finalized t.id decision)),
        .todo (.raise (.reply (.completed t.id result)))], []⟩
  | .error f =>
    ⟨e, [.todo (.raise (.record t.id (.finalizeFailed decision f now))),
        .todo (.note (.finalizeFailed t.id decision f)),
        .todo (.raise (.reply (.failed t.id f)))], []⟩

/-- One move of a thread whose topmost frame is a task, at the time `now`. -/
def perform (e : Endpoint) (now : UInt64) : Task → Stride
  | .receive (.execute id payload) => e.enter now id payload
  | .receive (.commit id) => e.take id .commit
  | .receive (.rollback id) => e.take id .rollback
  | .decode id payload => e.decode id payload
  | .prepared id result => e.prepared now id result
  | .finalized t decision result => e.finalized now t decision result
  | .recorded _ (.ok _) => ⟨e, [], []⟩
  | .recorded id (.error err) => ⟨e, [], [.notJournaled id err]⟩
  | .note n => ⟨e, [], [n]⟩
  | .raise u => ⟨e, [.inside u], []⟩

/-- The operations whose change is held until they are decided, in ascending order. -/
def preparedIds (e : Endpoint) : List OperationId :=
  (e.transactions.entries.filter (·.2.isPrepared)).map (·.1)

/-- The operations that are held are listed in ascending order. -/
theorem ascending_preparedIds (e : Endpoint) : e.preparedIds.Pairwise (· < ·) :=
  List.Pairwise.map _ (fun _ _ h => h) (e.transactions.ascending.filter _)

/-- The operations that an endpoint holds prepared are those it finds prepared in its table. -/
theorem mem_preparedIds (e : Endpoint) (id : OperationId) :
    id ∈ e.preparedIds ↔ (e.transactions.get? id).any Transaction.isPrepared = true := by
  unfold preparedIds
  rw [List.mem_map, Option.any_eq_true]
  constructor
  · rintro ⟨⟨i, t⟩, hmem, rfl⟩
    obtain ⟨hentry, hprepared⟩ := List.mem_filter.mp hmem
    exact ⟨t, (Table.mem_entries _ i t).mp hentry, hprepared⟩
  · rintro ⟨t, hget, hprepared⟩
    exact ⟨(id, t), List.mem_filter.mpr ⟨(Table.mem_entries _ id t).mpr hget, hprepared⟩, rfl⟩

section

variable {e : Endpoint} {id : OperationId}

theorem mem_preparedIds_of_get? {held : Option Transaction} (h : e.transactions.get? id = held) :
    id ∈ e.preparedIds ↔ held.any Transaction.isPrepared = true := by
  rw [mem_preparedIds, h]

/-- An operation is listed if and only if a prepared transaction is filed under it. -/
theorem mem_preparedIds_iff_exists :
    id ∈ e.preparedIds ↔ ∃ t, e.transactions.get? id = some (.prepared t) := by
  rw [mem_preparedIds]
  rcases e.transactions.get? id with _ | t | t
  · simp
  · simp [Transaction.isPrepared]
  · simp [Transaction.isPrepared]

/-- A transaction that is put in is listed if it is prepared. The others stay as they are. -/
theorem mem_preparedIds_insert (i : OperationId) (t : Transaction) :
    id ∈ preparedIds ⟨e.transactions.insert i t⟩ ↔
      if id = i then t.isPrepared = true else id ∈ e.preparedIds := by
  rw [mem_preparedIds, Table.get?_insert]
  split
  · rw [Option.any_some]
  · rw [mem_preparedIds]

/-- What is taken out is not listed any more. -/
theorem mem_preparedIds_erase (i : OperationId) :
    id ∈ preparedIds ⟨e.transactions.erase i⟩ ↔ id ≠ i ∧ id ∈ e.preparedIds := by
  rw [mem_preparedIds, Table.get?_erase, mem_preparedIds]
  by_cases hid : id = i
  · simp [hid]
  · simp [hid]

end

end Endpoint

end TwoPhase
