import TwoPhase.Participant.Journal
/-
A journal in memory that fails where it is told to. Whatever does not fail behaves as ever; an append
that fails draws no number.
-/

set_option autoImplicit false

namespace TwoPhase

/-- A journal and its faults: after how many appends the store is full, whether operations can be
listed, and whose history cannot be read. -/
structure FaultyJournal where
  journal : Journal
  appendsLeft : Option Nat
  unlistable : Bool
  unreadable : Option OperationId

namespace FaultyJournal

/-- An empty journal without faults. -/
def sound : FaultyJournal := ⟨.empty, none, false, none⟩

/-- Appends an event while the store is not full. -/
def append (j : FaultyJournal) (id : OperationId) (event : JournalEvent) (now : UInt64) :
    Except JournalError UInt64 × FaultyJournal :=
  match j.appendsLeft with
  | some 0 => (.error (.storage "disk full"), j)
  | left =>
    let (sequence, journal) := j.journal.append id event now
    (.ok sequence, { j with journal := journal, appendsLeft := left.map (· - 1) })

/-- The entries of an operation. -/
def read (j : FaultyJournal) (id : OperationId) : Except JournalError (List JournalEntry) :=
  if j.unreadable = some id then .error (.storage "bad sector") else j.journal.read id

/-- Every operation that something happened to. -/
def operations (j : FaultyJournal) : Except JournalError (List OperationId) :=
  if j.unlistable then .error (.storage "no index") else .ok j.journal.operations

/-- The operations that still await a decision. -/
def prepared (j : FaultyJournal) : Except JournalError (List OperationId) :=
  recoverPrepared j.operations j.read

end FaultyJournal

end TwoPhase
