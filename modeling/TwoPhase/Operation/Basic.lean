import TwoPhase.Value.Described
/-
Operations and the words about them: their identifiers, the two decisions that can end a prepared
one, the attachments that travel with a request, and where the reports made meanwhile go.
-/

set_option autoImplicit false

namespace TwoPhase

/-! ## Identity and decision -/

/-- The identifier of an operation. One client hands them out in increasing order; they mean nothing
beyond that client's lifetime. -/
structure OperationId where
  val : UInt64
  deriving DecidableEq, Repr, Inhabited

namespace OperationId

instance : LT OperationId := ⟨fun a b => a.val < b.val⟩
instance : LE OperationId := ⟨fun a b => a.val ≤ b.val⟩
instance (a b : OperationId) : Decidable (a < b) := inferInstanceAs (Decidable (a.val < b.val))
instance (a b : OperationId) : Decidable (a ≤ b) := inferInstanceAs (Decidable (a.val ≤ b.val))

theorem lt_trans {a b c : OperationId} (hab : a < b) (hbc : b < c) : a < c :=
  UInt64.lt_trans hab hbc

theorem lt_irrefl (a : OperationId) : ¬ a < a := UInt64.lt_irrefl a.val

theorem ne_of_lt {a b : OperationId} (h : a < b) : a ≠ b := fun e => lt_irrefl b (e ▸ h)

/-- Identifiers are in line: of two different ones, one comes before the other. -/
theorem lt_of_not_lt_of_ne {a b : OperationId} (h : ¬ a < b) (hne : a ≠ b) : b < a := by
  have hval : a.val ≠ b.val := fun e => hne (congrArg OperationId.mk e)
  exact UInt64.lt_of_le_of_ne (UInt64.not_lt.mp h) hval.symm

/-- The identifier after this one. -/
def next (id : OperationId) : OperationId := ⟨id.val + 1⟩

/-- The number of an identifier as text. -/
def text (id : OperationId) : String := String.ofList (Number.digits id.val.toNat)

/-- The description of an identifier. -/
def describe (id : OperationId) : List Char := Text.construct "OperationId" id.text.toList

end OperationId

/-- What a prepared operation is told to do with its change. -/
inductive Decision where
  | commit
  | rollback
  deriving DecidableEq, Repr

/-- The decision as a verb. -/
def Decision.text : Decision → String
  | .commit => "commit"
  | .rollback => "rollback"

/-- The name of the decision's tag. -/
def Decision.tag : Decision → String
  | .commit => "Commit"
  | .rollback => "Rollback"

/-! ## Reports and attachments -/

/-- How serious a report is that arrives while an operation runs. -/
inductive Severity where
  | error
  | warn
  | info
  deriving DecidableEq, Repr

/-- The name of the severity's tag. -/
def Severity.tag : Severity → String
  | .error => "Error"
  | .warn => "Warn"
  | .info => "Info"

/-- A named run of octets beside a request. -/
structure Attachment where
  name : String
  data : List UInt8
  deriving DecidableEq, Repr

/-- The first attachment of a name. -/
def Attachment.named? (attachments : List Attachment) (name : String) : Option Attachment :=
  attachments.find? (·.name == name)

/-- Where the reports on an operation go. -/
inductive Sink where
  /-- Nowhere. -/
  | discard
  /-- Into the log. -/
  | log
  /-- To the collector of this name. -/
  | collector (name : String)
  deriving DecidableEq, Repr

/-- Who hears of an operation's progress. -/
inductive Listener where
  /-- The recorder of this name. -/
  | recorder (name : String)
  /-- The caller that waits for the operation to be prepared, by the number of its wait. -/
  | waiter (number : Nat)
  deriving DecidableEq, Repr

/-- What a caller submits. -/
structure Operation where
  request : Value
  attachments : List Attachment
  sink : Sink

/-- The description of an operation shows its request and counts its attachments. -/
def Operation.describe (op : Operation) : List Char :=
  Text.recorded "Operation"
    [("request", op.request.describe), ("attachments", Number.digits op.attachments.length)]

end TwoPhase
