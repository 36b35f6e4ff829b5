import TwoPhase.Operation.Failure
import TwoPhase.Operation.Table
/-
The journal of a participant: what happened to each operation, in order, so that after a restart it
is known which operations still hold a change and await a decision. Entries are numbered across all
operations. An append is two moves, drawing the next number and putting the entry down, and other
appends may get in between.
-/

set_option autoImplicit false

namespace TwoPhase

/-- What can happen to an operation at its participant. Times are in milliseconds. -/
inductive JournalEvent where
  | received (at_ : UInt64)
  | prepared (at_ : UInt64)
  | rejected (failure : Failure) (at_ : UInt64)
  | committed (at_ : UInt64)
  | rolledBack (at_ : UInt64)
  | finalizeFailed (decision : Decision) (failure : Failure) (at_ : UInt64)
  deriving DecidableEq, Repr

/-- One line of a journal. -/
structure JournalEntry where
  sequence : UInt64
  recordedAt : UInt64
  event : JournalEvent
  deriving DecidableEq, Repr

/-- A journal that is kept in memory: the next number, and the entries by operation. -/
structure Journal where
  next : UInt64
  entries : Table (List JournalEntry)

namespace Journal

/-- Nothing written yet. Numbers start at one. -/
def empty : Journal := ⟨1, .empty⟩

/-- Draws the next number. -/
def draw (j : Journal) : UInt64 × Journal := (j.next, { j with next := j.next + 1 })

/-- Puts an entry behind all others of its operation. -/
def push (j : Journal) (id : OperationId) (entry : JournalEntry) : Journal :=
  { j with entries := j.entries.insert id ((j.entries.get? id).getD [] ++ [entry]) }

/-- Appends an event and returns its number. -/
def append (j : Journal) (id : OperationId) (event : JournalEvent) (now : UInt64) :
    UInt64 × Journal :=
  let (sequence, j) := j.draw
  (sequence, j.push id ⟨sequence, now, event⟩)

/-- The entries of an operation. -/
def read (j : Journal) (id : OperationId) : Except JournalError (List JournalEntry) :=
  match j.entries.get? id with
  | some entries => .ok entries
  | none => .error (.notFound id)

/-- Every operation that something happened to, in ascending order. -/
def operations (j : Journal) : List OperationId := j.entries.ids

end Journal

/-! ## Recovery -/

/-- Where an operation stood when its journal ended. -/
inductive Recovered where
  | unknown
  | received
  | prepared
  | finished
  deriving DecidableEq, Repr

/-- The state that an event leads to, whatever came before it. -/
def JournalEvent.state : JournalEvent → Recovered
  | .received _ => .received
  | .prepared _ => .prepared
  | .rejected .. | .committed _ | .rolledBack _ | .finalizeFailed .. => .finished

/-- The state in which a history leaves an operation. -/
def recoverState (entries : List JournalEntry) : Recovered :=
  entries.foldl (fun _ entry => entry.event.state) .unknown

/-- The operations among the given ones whose history ends in the prepared state. The first history
that cannot be read is the answer instead. -/
def recoverAmong (read : OperationId → Except JournalError (List JournalEntry)) :
    List OperationId → Except JournalError (List OperationId)
  | [] => .ok []
  | id :: rest =>
    match read id with
    | .error e => .error e
    | .ok entries =>
      match recoverAmong read rest with
      | .error e => .error e
      | .ok more => .ok (if recoverState entries = .prepared then id :: more else more)

/-- The operations that still await a decision, after any journal that can be listed and read. -/
def recoverPrepared (operations : Except JournalError (List OperationId))
    (read : OperationId → Except JournalError (List JournalEntry)) :
    Except JournalError (List OperationId) :=
  match operations with
  | .error e => .error e
  | .ok ids => recoverAmong read ids

/-- The operations that await a decision by a journal in memory. -/
def Journal.prepared (j : Journal) : Except JournalError (List OperationId) :=
  recoverPrepared (.ok j.operations) j.read

end TwoPhase
