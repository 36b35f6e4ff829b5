import TwoPhase.Initiator.Handle
/-
A wait for a prepared operation, seen from the slot that the waiter watches: what arrives at the slot
one after the other, and what the waiter makes of it. The waiter looks before anything arrives and
after each arrival, and the first thing it sees ends its wait, while the slot goes on.
-/

set_option autoImplicit false

namespace TwoPhase

/-- What can arrive at a slot. -/
inductive Arrival where
  | handle (h : Handle)
  | failure (id : OperationId) (f : Failure)
  | completion (id : OperationId)
  | interrupt

namespace PreparedSlot

/-- The slot after an arrival. -/
def after (s : PreparedSlot) : Arrival → PreparedSlot
  | .handle h => s.fill h
  | .failure id f => s.fail id f
  | .completion _ => s
  | .interrupt => s.interrupt

/-- Goes on with a wait of which something may have been seen already. -/
def watch (seen : Option (Except WaitError Handle)) (s : PreparedSlot) :
    List Arrival → Option (Except WaitError Handle) × PreparedSlot
  | [] =>
    match seen with
    | some r => (some r, s)
    | none => s.poll
  | a :: rest =>
    match seen with
    | some r => watch (some r) (s.after a) rest
    | none =>
      let (r, s) := s.poll
      watch r (s.after a) rest

/-- A wait during which the given arrivals come. A wait that has a deadline ends by it when nothing is
seen; any other wait then goes on. -/
def wait (s : PreparedSlot) (bound : Option Span) (arrivals : List Arrival) :
    Option (Except WaitError Handle) × PreparedSlot :=
  let (seen, s) := watch none s arrivals
  (seen.or ((bound.filter Span.hasDeadline).map fun span => .error (.timeout span)), s)

/-- What a wait has seen stays seen, and the slot goes on. -/
theorem watch_seen (seen : Except WaitError Handle) (arrivals : List Arrival) (s : PreparedSlot) :
    watch (some seen) s arrivals = (some seen, arrivals.foldl after s) := by
  induction arrivals generalizing s with
  | nil => rfl
  | cons a rest ih => exact ih (s.after a)

/-- A wait that finds a handle ends with it, whatever is to arrive and whatever the bound. -/
theorem wait_of_filled {s : PreparedSlot} {h : Handle} (hs : s.handle = some h) (bound : Option Span)
    (arrivals : List Arrival) : s.wait bound arrivals = (some (.ok h), arrivals.foldl after s) := by
  have hpoll : s.poll = (some (.ok h), s) := by
    unfold poll
    rw [hs]
  have hseen : watch none s arrivals = (some (.ok h), arrivals.foldl after s) := by
    cases arrivals with
    | nil => exact hpoll
    | cons a rest =>
      show watch s.poll.1 (s.poll.2.after a) rest = _
      rw [hpoll]
      exact watch_seen (.ok h) rest (s.after a)
  unfold wait
  rw [hseen]
  rfl

end PreparedSlot

end TwoPhase
