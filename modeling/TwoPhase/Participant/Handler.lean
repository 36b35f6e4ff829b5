import TwoPhase.Operation.Message
import TwoPhase.Operation.Payload
/-
What a participant does with operations. A handler keeps a state of its own. Preparing a request
first makes reports and then succeeds or fails; a success is followed by exactly one commit or
rollback. The key/value store at the end is such a handler.
-/

set_option autoImplicit false

namespace TwoPhase

/-- A report made while a change is prepared. -/
structure Report where
  severity : Severity
  text : String

/-- How requests are prepared, applied and discarded over a state `σ`. -/
structure Handler (σ : Type) where
  /-- The reports made before a request is prepared or refused. -/
  reports : σ → OperationId → Payload → List Report
  /-- Stages a change, or refuses it. -/
  prepare : σ → OperationId → Payload → Except Failure Value × σ
  /-- Applies a staged change. -/
  commit : σ → OperationId → Except Failure Value × σ
  /-- Discards a staged change. -/
  rollback : σ → OperationId → Except Failure Value × σ

/-- Carries out a decision. -/
def Handler.finalize {σ : Type} (h : Handler σ) (s : σ) (id : OperationId) :
    Decision → Except Failure Value × σ
  | .commit => h.commit s id
  | .rollback => h.rollback s id

end TwoPhase
