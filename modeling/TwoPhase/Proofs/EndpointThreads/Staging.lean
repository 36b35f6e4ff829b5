import TwoPhase.Participant.Endpoint
import TwoPhase.Proofs.Lists
/-
What an endpoint knows of the changes that its handler has staged.

A change is staged from the moment the handler accepts it until a decision has been carried out. Most of
that time the table holds the operation prepared; but it comes there after the handler returned, and is
taken out before the handler is called again. In between a frame knows of it (`Frame.staged?`). Table and
frames together lose no change and make none up, whatever the endpoint does (`passes_perform`).
-/

set_option autoImplicit false

namespace TwoPhase

namespace Endpoint

/-- The operation whose change a frame knows to be staged though the table does not hold it. -/
def Frame.staged? : Frame → Option OperationId
  | .todo (.prepared id (.ok _)) => some id
  | .todo (.raise (.finalize t _)) | .inside (.finalize t _) => some t.id
  | _ => none

/-- The operations whose changes some frames know to be staged. -/
def staging (frames : List Frame) : List OperationId := frames.filterMap Frame.staged?

/-- Whether a frame may wait below others: no message is left in it, and no change is staged for it
alone. -/
def Frame.isCalm : Frame → Bool
  | .todo (.receive _) => false
  | f => f.staged?.isNone

theorem staged_of_calm {f : Frame} (h : f.isCalm = true) : f.staged? = none := by
  unfold Frame.isCalm at h
  split at h
  · contradiction
  · exact Option.isNone_iff_eq_none.mp h

/-- What a stride makes of a task: the changes that are staged stay known, each in one place, and only the
frame on top may know of one. -/
structure Passes (e : Endpoint) (t : Task) (s : Stride) : Prop where
  calm : ∀ f ∈ s.frames.tail, f.isCalm = true
  known : ∀ id, id ∈ s.endpoint.preparedIds ∨ id ∈ staging s.frames ↔
    id ∈ e.preparedIds ∨ id ∈ staging [.todo t]
  apart : (∀ id ∈ staging [.todo t], id ∉ e.preparedIds) →
    ∀ id ∈ staging s.frames, id ∉ s.endpoint.preparedIds

attribute [local simp] staging Frame.staged? Frame.isCalm Transaction.isPrepared

variable {e : Endpoint} {now : UInt64} {id : OperationId}

theorem passes_enter (payload : List UInt8) :
    Passes e (.receive (.execute id payload)) (e.enter now id payload) := by
  unfold enter
  split
  · constructor <;> simp
  · rename_i hknown
    have hnone : e.transactions.get? id = none := by
      simpa [Table.contains] using hknown
    have habsent : id ∉ e.preparedIds := by
      rw [mem_preparedIds_of_get? hnone]
      simp
    constructor
    · simp
    · intro i
      rw [mem_preparedIds_insert]
      by_cases hi : i = id
      · simp [hi, habsent]
      · simp [hi]
    · simp

/-- A decision leaves with what the table held. -/
theorem passes_take {m : Outbound} (decision : Decision)
    (hkeyed : ∀ t, e.transactions.get? id = some (.prepared t) → t.id = id) :
    Passes e (.receive m) (e.take id decision) := by
  unfold take
  split
  · -- the operation goes over from the table to the frame
    rename_i t hheld
    have hid : t.id = id := hkeyed t hheld
    have hpresent : id ∈ e.preparedIds := by
      rw [mem_preparedIds_of_get? hheld]
      rfl
    constructor
    · simp
    · intro i
      rw [mem_preparedIds_erase]
      by_cases hi : i = id
      · simp [hi, hid, hpresent]
      · simp [hi, hid]
    · intro _ i hi
      rw [mem_preparedIds_erase]
      simp_all
  · constructor <;> simp

theorem passes_decode (payload : List UInt8) :
    Passes e (.decode id payload) (e.decode id payload) := by
  unfold decode
  split <;> constructor <;> simp

/-- The table comes to hold what was staged for the task alone. -/
theorem passes_prepared {received : ReceivedTransaction}
    (hheld : e.transactions.get? id = some (.received received)) (result : Except Failure Value) :
    Passes e (.prepared id result) (e.prepared now id result) := by
  have habsent : id ∉ e.preparedIds := by
    rw [mem_preparedIds_of_get? hheld]
    simp
  unfold prepared
  rcases result with f | result
  · -- what is forgotten was not held yet
    constructor
    · simp
    · intro i
      rw [mem_preparedIds_erase]
      by_cases hi : i = id
      · simp [hi, habsent]
      · simp [hi]
    · simp
  · simp only [hheld]
    constructor
    · simp
    · intro i
      rw [mem_preparedIds_insert]
      by_cases hi : i = id
      · simp [hi]
      · simp [hi]
    · simp

theorem passes_finalized (t : PreparedTransaction) (decision : Decision)
    (result : Except Failure Value) :
    Passes e (.finalized t decision result) (e.finalized now t decision result) := by
  unfold finalized
  rcases result with f | result <;> constructor <;> simp

/-- What is staged for a call is staged for it when it is entered. -/
theorem passes_raise (u : Upcall) : Passes e (.raise u) ⟨e, [.inside u], []⟩ := by
  have hsame : staging [.inside u] = staging [.todo (.raise u)] := by
    rcases u with _ | _ | _ | _ <;> rfl
  constructor
  · simp
  · intro id
    rw [← hsame]
  · rw [← hsame]
    exact fun hapart => hapart

/-- **Every task keeps account of what is staged**, if decisions find their own transactions and results
their operations received. -/
theorem passes_perform (t : Task)
    (hdecided : ∀ id decision, t = .receive (.decide id decision) →
      ∀ held, e.transactions.get? id = some (.prepared held) → held.id = id)
    (howned : ∀ id result, t = .prepared id result →
      ∃ received, e.transactions.get? id = some (.received received)) :
    Passes e t (e.perform now t) := by
  unfold perform
  split
  · exact passes_enter _
  · exact passes_take .commit (hdecided _ .commit rfl)
  · exact passes_take .rollback (hdecided _ .rollback rfl)
  · exact passes_decode _
  · obtain ⟨received, hheld⟩ := howned _ _ rfl
    exact passes_prepared hheld _
  · exact passes_finalized _ _ _
  · constructor <;> simp
  · constructor <;> simp
  · constructor <;> simp
  · exact passes_raise _

end Endpoint

end TwoPhase
