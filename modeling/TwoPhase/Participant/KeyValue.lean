import TwoPhase.Operation.Table
import TwoPhase.Participant.Handler
/-
A store of named values behind a participant. A request to write stages a name with its value; the
commit of that operation makes it visible, and the rollback forgets it.
-/

set_option autoImplicit false

namespace TwoPhase

/-- The writes that await a decision, and the values that names have. -/
structure KeyValue where
  staged : Table (String × Value)
  committed : List (String × Value)

namespace KeyValue

/-- A store without names. -/
def empty : KeyValue := ⟨.empty, []⟩

/-- The request that writes a value under a name. -/
def write (name : String) (value : Value) : Value :=
  ((Value.empty.set "operation" (.string "write")).set "name" (.string name)).set "value" value

/-- The value that a name has. -/
def lookup (s : KeyValue) (name : String) : Option Value := s.committed.lookup name

/-- What a request writes: its name and its value. Anything but a write is refused, and so is a write
without a name; a write without a value writes the undefined one. -/
def target (request : Value) : Except Failure (String × Value) :=
  if (request.get? "operation").bind Value.text? = some "write" then
    match (request.get? "name").bind Value.text? with
    | some name => .ok (name, (request.get? "value").getD .undefined)
    | none => .error (.rejected "missing name")
  else .error (.rejected "unsupported operation")

/-- The result of an operation that went well. -/
def success : Value := Value.empty.set "outcome" (.string "success")

/-- A write that is staged is reported first. -/
def reports (_ : KeyValue) (_ : OperationId) (p : Payload) : List Report :=
  match target p.request with
  | .ok (name, _) => [⟨.info, "staging " ++ name⟩]
  | .error _ => []

/-- Stages a write under its operation. -/
def prepare (s : KeyValue) (id : OperationId) (p : Payload) : Except Failure Value × KeyValue :=
  match target p.request with
  | .ok (name, value) =>
    (.ok (success.set "result" value), { s with staged := s.staged.insert id (name, value) })
  | .error f => (.error f, s)

/-- Makes the staged write of an operation visible. -/
def commit (s : KeyValue) (id : OperationId) : Except Failure Value × KeyValue :=
  match s.staged.get? id with
  | some (name, value) =>
    (.ok success, ⟨s.staged.erase id, Named.put name value s.committed⟩)
  | none => (.error (.rejected "nothing staged"), s)

/-- Forgets the staged write of an operation, if it has one. -/
def rollback (s : KeyValue) (id : OperationId) : Except Failure Value × KeyValue :=
  (.ok (success.set "rolled-back" (.boolean true)), { s with staged := s.staged.erase id })

/-- The store as a handler. -/
def handler : Handler KeyValue := ⟨reports, prepare, commit, rollback⟩

section

variable {s : KeyValue} {id : OperationId} {p : Payload} {w : String × Value}

theorem prepare_of_target (h : target p.request = .ok w) : handler.prepare s id p =
    (.ok (success.set "result" w.2), { s with staged := s.staged.insert id w }) := by
  show prepare s id p = _
  rw [prepare, h]

theorem prepare_of_refused {f : Failure} (h : target p.request = .error f) :
    handler.prepare s id p = (.error f, s) := by
  show prepare s id p = _
  rw [prepare, h]

/-- A decision of an operation that has something staged is carried out. -/
theorem finalize_ok (h : s.staged.get? id = some w) (d : Decision) :
    ∃ result, (handler.finalize s id d).1 = .ok result := by
  cases d with
  | rollback => exact ⟨_, rfl⟩
  | commit =>
    refine ⟨success, ?_⟩
    show (commit s id).1 = _
    rw [commit, h]

/-- A decision takes what is staged away. -/
theorem staged_finalize (h : s.staged.get? id = some w) (d : Decision) :
    (handler.finalize s id d).2.staged = s.staged.erase id := by
  cases d with
  | rollback => rfl
  | commit =>
    show (commit s id).2.staged = _
    rw [commit, h]

/-- Only a commit changes the value of a name, and only of the name that was staged. -/
theorem lookup_finalize (h : s.staged.get? id = some w) (d : Decision) (name : String) :
    (handler.finalize s id d).2.lookup name =
      if d = .commit ∧ name = w.1 then some w.2 else s.lookup name := by
  cases d with
  | rollback => rfl
  | commit =>
    show (commit s id).2.lookup name = _
    rw [commit, h]
    simp [lookup, Named.lookup_put]

end

end KeyValue

end TwoPhase
