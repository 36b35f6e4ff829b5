import TwoPhase.Operation.Basic
/-
A transaction at the participant, from the arrival of the operation to its end. Each state is a type
of its own that holds what is known in it, so only a prepared transaction can be finished. Finished
ones are not kept.
-/

set_option autoImplicit false

namespace TwoPhase

/-- An operation arrived and is being prepared. Times are in milliseconds. -/
structure ReceivedTransaction where
  id : OperationId
  receivedAt : UInt64
  deriving DecidableEq, Repr

/-- The change of an operation is held until it is decided. -/
structure PreparedTransaction where
  id : OperationId
  receivedAt : UInt64
  preparedAt : UInt64
  deriving DecidableEq, Repr

/-- The change of an operation was applied, or discarded. -/
structure FinishedTransaction where
  id : OperationId
  receivedAt : UInt64
  decision : Decision
  completedAt : UInt64
  deriving DecidableEq, Repr

/-- The change was prepared. -/
def ReceivedTransaction.prepare (t : ReceivedTransaction) (now : UInt64) : PreparedTransaction :=
  ⟨t.id, t.receivedAt, now⟩

/-- The change was applied or discarded. -/
def PreparedTransaction.finish (t : PreparedTransaction) (decision : Decision) (now : UInt64) :
    FinishedTransaction :=
  ⟨t.id, t.receivedAt, decision, now⟩

/-- The time from arrival to end; a clock that ran backwards gives zero. -/
def FinishedTransaction.duration (t : FinishedTransaction) : UInt64 :=
  if t.receivedAt ≤ t.completedAt then t.completedAt - t.receivedAt else 0

/-- A transaction that is under way. -/
inductive Transaction where
  | received (t : ReceivedTransaction)
  | prepared (t : PreparedTransaction)
  deriving DecidableEq, Repr

namespace Transaction

/-- The operation of a transaction. -/
def id : Transaction → OperationId
  | received t => t.id
  | prepared t => t.id

/-- Whether a transaction awaits its decision. -/
def isPrepared : Transaction → Bool
  | received _ => false
  | prepared _ => true

end Transaction

end TwoPhase
