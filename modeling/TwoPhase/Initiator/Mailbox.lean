import TwoPhase.Operation.Message
/-
The mailbox of an operation: the callbacks that its caller is still owed, in the order in which they
were decided. Whoever puts a callback into an idle mailbox becomes its deliverer and hands out
callbacks until none is left; everyone else just leaves theirs for the deliverer. So callbacks of
one operation run one at a time and in order, however many threads decide them.
-/

set_option autoImplicit false

namespace TwoPhase

/-- A callback that the caller of an operation is owed. -/
inductive Callback where
  | prepared (result : Value)
  | complete (result : Value)
  | failed (failure : Failure)
  | report (severity : Severity) (text : String)

namespace Callback

/-- The name of a callback. -/
def kind : Callback → String
  | prepared _ => "prepared"
  | complete _ => "complete"
  | failed _ => "failed"
  | report .. => "report"

/-- The outcome that a callback announces, if it is the last one of its operation. -/
def outcome? : Callback → Option Outcome
  | complete result => some (.completed result)
  | failed failure => some (.failed failure)
  | _ => none

end Callback

/-- The callback that announces an outcome. -/
def Outcome.callback : Outcome → Callback
  | .completed result => .complete result
  | .failed failure => .failed failure

/-- What is queued, and whether someone is handing it out. -/
structure Mailbox (α : Type) where
  queue : List α
  delivering : Bool

namespace Mailbox

variable {α : Type}

/-- An idle mailbox. -/
def idle : Mailbox α := ⟨[], false⟩

/-- Queues an item. The answer says whether the mailbox was idle, which makes whoever queued the item
its deliverer. -/
def enqueue (m : Mailbox α) (a : α) : Mailbox α × Bool := (⟨m.queue ++ [a], true⟩, !m.delivering)

/-- Takes out the next item. Where there is none, the deliverer is released. -/
def pop (m : Mailbox α) : Option α × Mailbox α :=
  match m.queue with
  | [] => (none, ⟨[], false⟩)
  | a :: rest => (some a, { m with queue := rest })

/-- What is queued goes behind what is there. -/
@[simp] theorem queue_enqueue (m : Mailbox α) (a : α) : (m.enqueue a).1.queue = m.queue ++ [a] := rfl

/-- Taking out loses nothing: what was taken out stood in front of what is left. -/
theorem toList_pop (m : Mailbox α) : m.pop.1.toList ++ m.pop.2.queue = m.queue := by
  rw [pop]
  split
  · rename_i h
    exact h.symm
  · rename_i a rest h
    exact h.symm

/-- A deliverer is released exactly when nothing is queued. -/
theorem pop_eq_none_iff (m : Mailbox α) : m.pop.1 = none ↔ m.queue = [] := by
  rw [pop]
  split
  · rename_i h
    exact ⟨fun _ => h, fun _ => rfl⟩
  · rename_i a rest h
    refine ⟨fun hsome => absurd hsome ?_, fun hnil => absurd (h.symm.trans hnil) ?_⟩
    · intro e
      cases e
    · intro e
      cases e

end Mailbox

end TwoPhase
