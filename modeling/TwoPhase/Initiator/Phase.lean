/-
The phases of an operation at the client. An operation is submitted, then prepared, then completed;
from either of the first two it may fail. Completed and failed are final.
-/

set_option autoImplicit false

namespace TwoPhase

/-- How far an operation has come. -/
inductive Phase where
  | submitted
  | prepared
  | completed
  | failed
  deriving DecidableEq, Repr

namespace Phase

/-- Whether an operation can leave the phase. -/
def isTerminal : Phase → Bool
  | completed | failed => true
  | _ => false

/-- Whether an operation can go from one phase to another in one move. -/
def allows : Phase → Phase → Bool
  | submitted, prepared | prepared, completed | submitted, failed | prepared, failed => true
  | _, _ => false

/-- The name of a phase. -/
def text : Phase → String
  | submitted => "Submitted"
  | prepared => "Prepared"
  | completed => "Completed"
  | failed => "Failed"

end Phase

end TwoPhase
