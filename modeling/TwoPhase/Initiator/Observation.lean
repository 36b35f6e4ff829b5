import TwoPhase.Operation.Message
/-
What an observer of a client is told, and the counters that keep the tally. Every kind of
observation has its counter, so the two always agree; three further counters stand for things an
observer is not told about.
-/

set_option autoImplicit false

namespace TwoPhase

/-- A message that does not fit what the client knows. It is dropped, counted and observed. -/
inductive Violation where
  /-- About an operation that the client never submitted. -/
  | unknownOperation (id : OperationId) (kind : String)
  /-- A completion of an operation that is not prepared yet. -/
  | completedBeforePrepared (id : OperationId)
  deriving DecidableEq, Repr

/-- The text of a violation. -/
def Violation.message : Violation → String
  | .unknownOperation id kind => kind ++ " notification for unknown operation " ++ id.text
  | .completedBeforePrepared id =>
    "completed notification for operation " ++ id.text ++ " before it was prepared"

/-- One call of the observer. -/
inductive Observation where
  | submitted (id : OperationId)
  | prepared (id : OperationId)
  | decisionSent (id : OperationId) (decision : Decision)
  | completed (id : OperationId)
  | failed (id : OperationId) (failure : Failure)
  | violation (v : Violation)
  | channelClosed (pending : Nat)
  deriving DecidableEq, Repr

/-- The counters of a client. They wrap at sixty-four bits. -/
structure Stats where
  submitted : UInt64 := 0
  prepared : UInt64 := 0
  completed : UInt64 := 0
  failed : UInt64 := 0
  commits : UInt64 := 0
  rollbacks : UInt64 := 0
  sendFailures : UInt64 := 0
  violations : UInt64 := 0
  duplicates : UInt64 := 0
  sweeps : UInt64 := 0
  deriving DecidableEq, Repr

/-- The name of one counter. -/
inductive Counter where
  | submitted
  | prepared
  | completed
  | failed
  | commits
  | rollbacks
  | sendFailures
  | violations
  | duplicates
  | sweeps
  deriving DecidableEq, Repr

namespace Stats

/-- Adds to one counter. -/
def add (s : Stats) (n : UInt64) : Counter → Stats
  | .submitted => { s with submitted := s.submitted + n }
  | .prepared => { s with prepared := s.prepared + n }
  | .completed => { s with completed := s.completed + n }
  | .failed => { s with failed := s.failed + n }
  | .commits => { s with commits := s.commits + n }
  | .rollbacks => { s with rollbacks := s.rollbacks + n }
  | .sendFailures => { s with sendFailures := s.sendFailures + n }
  | .violations => { s with violations := s.violations + n }
  | .duplicates => { s with duplicates := s.duplicates + n }
  | .sweeps => { s with sweeps := s.sweeps + n }

/-- Adds one to a counter. -/
def count (s : Stats) (c : Counter) : Stats := s.add 1 c

end Stats

/-- The counter that keeps the tally of an observation. -/
def Observation.counter : Observation → Counter
  | .submitted _ => .submitted
  | .prepared _ => .prepared
  | .decisionSent _ .commit => .commits
  | .decisionSent _ .rollback => .rollbacks
  | .completed _ => .completed
  | .failed .. => .failed
  | .violation _ => .violations
  | .channelClosed _ => .sweeps

end TwoPhase
