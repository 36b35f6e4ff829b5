import TwoPhase.Operation.Failure
/-
Where the outcome of an operation is published. A cell takes one outcome and keeps it. Subscribers
that come before it are called when it arrives, in the order in which they came; later ones are
called at once. Threads may wait for the outcome, and an interrupt releases those that wait.
-/

set_option autoImplicit false

namespace TwoPhase

/-- The outcome, once there is one; who is to be called with it; and how often waiters were
interrupted. -/
structure OutcomeCell where
  outcome : Option Outcome
  subscribers : List String
  interrupts : UInt64

namespace OutcomeCell

/-- Nothing published yet. -/
def vacant : OutcomeCell := ⟨none, [], 0⟩

/-- Published from the start. -/
def resolved (o : Outcome) : OutcomeCell := ⟨some o, [], 0⟩

/-- Publishes an outcome and says whom to call. A cell that has one keeps it and calls no one. -/
def resolve (c : OutcomeCell) (o : Outcome) : OutcomeCell × List String :=
  match c.outcome with
  | some _ => (c, [])
  | none => ({ c with outcome := some o, subscribers := [] }, c.subscribers)

/-- Adds a subscriber. If the outcome is known it is returned instead, and the subscriber is to be
called with it at once. -/
def subscribe (c : OutcomeCell) (tag : String) : OutcomeCell × Option Outcome :=
  match c.outcome with
  | some o => (c, some o)
  | none => ({ c with subscribers := c.subscribers ++ [tag] }, none)

/-- Releases all that wait now. -/
def interrupt (c : OutcomeCell) : OutcomeCell := { c with interrupts := c.interrupts + 1 }

/-- What a waiter sees that began to wait when `since` interrupts had happened: the outcome before
anything else, then an interrupt since, and otherwise nothing yet. -/
def poll (c : OutcomeCell) (since : UInt64) : Option (Except WaitError Outcome) :=
  match c.outcome with
  | some o => some (.ok o)
  | none => if c.interrupts = since then none else some (.error .interrupted)

end OutcomeCell

end TwoPhase
