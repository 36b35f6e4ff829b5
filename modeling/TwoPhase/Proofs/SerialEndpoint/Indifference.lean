import TwoPhase.Proofs.SerialEndpoint.Basic
/-
What shows of a participant does not depend on its journal.

Leave out of a serial endpoint what the journal answered, the journal itself and all times (`bare`): what
is left moves on by itself, like a serial endpoint whose journal keeps nothing and whose clock stands
still (`move_bare`). So two serial endpoints with one handler show the same after every plan, whichever
appends fail at either (`alike`). Nothing depends on when an append fails, since no move looks at the
answer.
-/

set_option autoImplicit false

namespace TwoPhase

open Endpoint (Task Upcall Stride)

/-! ## Tables entry by entry -/

namespace Table

variable {α β : Type}

/-- Every entry is replaced by what becomes of it. -/
def map (f : α → β) (t : Table α) : Table β :=
  ⟨t.entries.map fun e => (e.1, f e.2), List.Pairwise.map _ (fun _ _ h => h) t.ascending⟩

/-- What is found under an identifier is what was found there before, replaced. -/
theorem lookup_map (f : α → β) (id : OperationId) (entries : List (OperationId × α)) :
    (entries.map fun e => (e.1, f e.2)).lookup id = (entries.lookup id).map f := by
  induction entries with
  | nil => rfl
  | cons e rest ih =>
    rw [List.map_cons, lookup_entry, lookup_entry, ih]
    split
    · rw [Option.map_some]
    · rfl

theorem get?_map (f : α → β) (t : Table α) (id : OperationId) :
    (t.map f).get? id = (t.get? id).map f := lookup_map f id t.entries

/-- It makes no difference whether an entry is replaced before it is put in or afterwards. -/
theorem map_insert (f : α → β) (t : Table α) (id : OperationId) (a : α) :
    (t.insert id a).map f = (t.map f).insert id (f a) := by
  apply ext_get?
  intro q
  rw [get?_map, get?_insert, get?_insert, get?_map]
  split <;> rfl

theorem map_erase (f : α → β) (t : Table α) (id : OperationId) :
    (t.erase id).map f = (t.map f).erase id := by
  apply ext_get?
  intro q
  rw [get?_map, get?_erase, get?_erase, get?_map]
  split <;> rfl

end Table

/-! ## Without times and without what a journal says -/

/-- An event without its time. -/
def JournalEvent.bare : JournalEvent → JournalEvent
  | .received _ => .received 0
  | .prepared _ => .prepared 0
  | .rejected f _ => .rejected f 0
  | .committed _ => .committed 0
  | .rolledBack _ => .rolledBack 0
  | .finalizeFailed decision f _ => .finalizeFailed decision f 0

/-- A prepared transaction without its times. -/
def PreparedTransaction.bare (t : PreparedTransaction) : PreparedTransaction := ⟨t.id, 0, 0⟩

/-- A transaction without its times. -/
def Transaction.bare : Transaction → Transaction
  | .received t => .received ⟨t.id, 0⟩
  | .prepared t => .prepared t.bare

namespace Endpoint

/-- A call without its times. -/
def Upcall.bare : Upcall → Upcall
  | .finalize t decision => .finalize t.bare decision
  | .record id event => .record id event.bare
  | u => u

/-- A task without its times, and as if no append had failed. -/
def Task.bare : Task → Task
  | .finalized t decision result => .finalized t.bare decision result
  | .recorded id _ => .recorded id (.ok 0)
  | .raise u => .raise u.bare
  | t => t

/-- A frame without its times, and as if no append had failed. -/
def Frame.bare : Frame → Frame
  | .todo t => .todo t.bare
  | .inside u => .inside u.bare

/-- An endpoint without its times. -/
def bare (e : Endpoint) : Endpoint := ⟨e.transactions.map Transaction.bare⟩

/-- A stride does what another one does, apart from the times, the journal's answers and the notes. -/
def Stride.Echoes (s' s : Stride) : Prop :=
  s'.endpoint = s.endpoint.bare ∧ s'.frames = s.frames.map Frame.bare

variable (e : Endpoint) (now : UInt64)

theorem get?_bare (id : OperationId) :
    e.bare.transactions.get? id = (e.transactions.get? id).map Transaction.bare :=
  Table.get?_map _ _ _

/-- It makes no difference whether the times are left out before a transaction is put in
or afterwards. -/
theorem bare_insert (id : OperationId) (t : Transaction) :
    bare ⟨e.transactions.insert id t⟩ = ⟨e.bare.transactions.insert id t.bare⟩ :=
  congrArg mk (Table.map_insert _ _ _ _)

theorem bare_erase (id : OperationId) :
    bare ⟨e.transactions.erase id⟩ = ⟨e.bare.transactions.erase id⟩ :=
  congrArg mk (Table.map_erase _ _ _)

/-- The same operations are held. -/
theorem preparedIds_bare : e.bare.preparedIds = e.preparedIds := by
  apply Table.ids_ext (ascending_preparedIds _) (ascending_preparedIds _)
  intro id
  rw [mem_preparedIds, mem_preparedIds, get?_bare]
  rcases e.transactions.get? id with _ | t | t <;> rfl

/-- Whether a submission is turned away depends on the identifiers that are in use, and not on
any time. -/
theorem enter_echoes (id : OperationId) (payload : List UInt8) :
    (e.bare.enter 0 id payload).Echoes (e.enter now id payload) := by
  have hcontains : e.bare.transactions.contains id = e.transactions.contains id := by
    unfold Table.contains
    rw [get?_bare, Option.isSome_map]
  unfold enter
  rw [hcontains]
  split
  · exact ⟨rfl, rfl⟩
  · exact ⟨(bare_insert e id (.received ⟨id, now⟩)).symm, rfl⟩

/-- A decision takes away what is prepared under its identifier, whenever that was prepared. -/
theorem take_echoes (id : OperationId) (decision : Decision) :
    (e.bare.take id decision).Echoes (e.take id decision) := by
  unfold take
  rw [get?_bare]
  rcases e.transactions.get? id with _ | t | t
  · exact ⟨rfl, rfl⟩
  · exact ⟨rfl, rfl⟩
  · exact ⟨(bare_erase e id).symm, rfl⟩

/-- Whether a payload can be read depends on its bytes alone. -/
theorem decode_echoes (id : OperationId) (payload : List UInt8) :
    (e.bare.decode id payload).Echoes (e.decode id payload) := by
  unfold decode
  split <;> exact ⟨rfl, rfl⟩

/-- An operation that was prepared is put down with the time, which is left out again, and one that was
refused is taken away. -/
theorem prepared_echoes (id : OperationId) (result : Except Failure Value) :
    (e.bare.prepared 0 id result).Echoes (e.prepared now id result) := by
  rcases result with f | result
  · exact ⟨(bare_erase e id).symm, rfl⟩
  · refine ⟨?_, rfl⟩
    unfold prepared
    simp only
    rw [get?_bare]
    rcases e.transactions.get? id with _ | t | t
    · rfl
    · exact (bare_insert e id (.prepared (t.prepare now))).symm
    · exact (bare_erase e id).symm

/-- What follows a decision that was carried out depends on the time in the entry for the
journal alone. -/
theorem finalized_echoes (t : PreparedTransaction) (decision : Decision)
    (result : Except Failure Value) :
    (e.bare.finalized 0 t.bare decision result).Echoes (e.finalized now t decision result) := by
  unfold finalized
  rcases result with f | result
  · exact ⟨rfl, rfl⟩
  · rcases decision with _ | _ <;> exact ⟨rfl, rfl⟩

/-- **No move depends on the time, nor on what the journal answered.** -/
theorem perform_echoes (t : Task) : (e.bare.perform 0 t.bare).Echoes (e.perform now t) := by
  unfold perform
  rcases t with m | ⟨id, payload⟩ | ⟨id, result⟩ | ⟨t, decision, result⟩ | ⟨id, result⟩ | n | u
  · rcases m with ⟨id, payload⟩ | id | id
    · exact enter_echoes e now id payload
    · exact take_echoes e id .commit
    · exact take_echoes e id .rollback
  · exact decode_echoes e id payload
  · exact prepared_echoes e now id result
  · exact finalized_echoes e now t decision result
  · -- an append that fails is noted in the log, and that is all
    rcases result with err | sequence <;> exact ⟨rfl, rfl⟩
  · exact ⟨rfl, rfl⟩
  · exact ⟨rfl, rfl⟩

end Endpoint

namespace SerialEndpoint

variable {σ κ κ' : Type}

/-- A frame without its times, and as if no append had failed. -/
def Frame.bare : Frame → Frame
  | .endpoint f => .endpoint f.bare
  | .preparing id p left => .preparing id p left

/-- A serial endpoint without its journal, its times, and what the journal answered. -/
def bare (d : SerialEndpoint σ κ) : SerialEndpoint σ Unit where
  endpoint := d.endpoint.bare
  store := d.store
  journal := ()
  stack := d.stack.map Frame.bare
  past := d.past
  events := d.events.map fun e => (e.1, e.2.bare)
  age := d.age

/-- The same handler with a journal that keeps nothing, where no time passes. -/
def Setting.mute (S : Setting σ κ) : Setting σ Unit where
  handler := S.handler
  store := S.store
  archive := ⟨fun _ _ _ _ => (.ok 0, ()), ()⟩
  clock _ := 0

variable (S : Setting σ κ) (d : SerialEndpoint σ κ)

/-- A reply carries no time. -/
theorem signs_bare (t : Task) : signs t.bare = signs t := by
  unfold Task.bare
  split
  · rfl
  · rfl
  · rename_i u
    rcases u with _ | _ | _ | m <;> rfl
  · rfl

theorem map_bare_endpoint (frames : List Endpoint.Frame) :
    (frames.map Frame.endpoint).map Frame.bare =
      (frames.map Endpoint.Frame.bare).map Frame.endpoint := by
  rw [List.map_map, List.map_map]
  rfl

/-- Whether a message can be handed over does not depend on times, nor on what the journal answered. -/
theorem isFree_bare (stack : List Frame) : isFree (stack.map Frame.bare) = isFree stack := by
  rcases stack with _ | ⟨(t | u) | ⟨id, p, left⟩, rest⟩
  · rfl
  · rfl
  · cases u <;> rfl
  · rfl

/-- What is left of a serial endpoint moves on by itself. -/
theorem move_bare : (d.move S).bare = d.bare.move S.mute := by
  obtain ⟨e, store, journal, stack, past, events, age⟩ := d
  rcases stack with _ | ⟨(t | u) | ⟨id, p, left⟩, rest⟩
  · rfl
  · obtain ⟨hendpoint, hframes⟩ := e.perform_echoes (S.clock (age + 1)) t
    simp only [bare, move, step, Frame.bare, Endpoint.Frame.bare, Setting.mute, List.map_cons,
      List.map_append, map_bare_endpoint, signs_bare, hendpoint, hframes]
  · rcases u with _ | _ | ⟨id, event⟩ | _
    · rfl
    · rfl
    · -- the answer goes into the frame, and is left out of it again
      simp only [bare, move, step, serve, Frame.bare, Endpoint.Frame.bare, Upcall.bare, Task.bare,
        Setting.mute, List.map_cons, List.map_append, List.map_nil]
    · rfl
  · rcases left with _ | ⟨r, left⟩ <;> rfl

/-- What is left of a serial endpoint follows every choice, also when a message is handed over. -/
theorem act_bare (choice : Choice) : (d.act S choice).bare = d.bare.act S.mute choice := by
  have hstack : d.bare.stack = d.stack.map Frame.bare := rfl
  rcases choice with m | _
  · unfold act
    simp only
    rw [hstack, isFree_bare]
    split <;> rfl
  · exact move_bare S d

/-- What is left of a run is the run of what is left, with a journal that keeps nothing. -/
theorem run_bare (plan : List Choice) : (run S plan).bare = run S.mute plan := by
  induction plan using List.reverseRecOn with
  | nil => rfl
  | append_singleton plan choice ih => rw [run_concat, run_concat, act_bare, ih]

/-! ## Two journals -/

/-- Two serial endpoints at which the same things were seen, and at which the same can be seen further
on. -/
structure Alike (d : SerialEndpoint σ κ) (d' : SerialEndpoint σ κ') : Prop where
  /-- The same replies were sent and the same calls made, in one order. -/
  past : d.past = d'.past
  /-- The same operations are held. -/
  held : d.endpoint.preparedIds = d'.endpoint.preparedIds
  /-- The handler has come to the same state. -/
  store : d.store = d'.store
  /-- Both have dealt with all messages, or neither has. -/
  idle : d.stack = [] ↔ d'.stack = []
  /-- Both can be handed a message, or neither can. -/
  free : isFree d.stack = isFree d'.stack
  /-- The same was to be recorded, apart from the times. -/
  events : d.events.map (fun e => (e.1, e.2.bare)) = d'.events.map fun e => (e.1, e.2.bare)

/-- Serial endpoints of which the same is left show the same. -/
theorem Alike.of_bare {d : SerialEndpoint σ κ} {d' : SerialEndpoint σ κ'} (h : d.bare = d'.bare) :
    Alike d d' where
  past := congrArg SerialEndpoint.past h
  held := by
    rw [← d.endpoint.preparedIds_bare, ← d'.endpoint.preparedIds_bare]
    exact congrArg (·.endpoint.preparedIds) h
  store := congrArg SerialEndpoint.store h
  idle := by
    have hstack : d.stack.map Frame.bare = d'.stack.map Frame.bare := congrArg SerialEndpoint.stack h
    rw [← List.map_eq_nil_iff (f := Frame.bare), hstack, List.map_eq_nil_iff]
  free := by
    rw [← isFree_bare, ← isFree_bare d'.stack]
    exact congrArg (isFree ·.stack) h
  events := congrArg SerialEndpoint.events h

/-- **A journal is never noticed.** Two participants with one handler that differ in their journals, in
what these answer to each append, and even in the time, show the same at every moment: the same replies
and the same calls of the handler in one order, and the same operations held. Both deal with every
message to its end, and in the same number of moves. -/
theorem alike (h : Handler σ) (s : σ) (A : Archive κ) (B : Archive κ') (clock clock' : Nat → UInt64)
    (plan : List Choice) :
    Alike (run ⟨h, s, A, clock⟩ plan) (run ⟨h, s, B, clock'⟩ plan) ∧
      ∃ n, (run ⟨h, s, A, clock⟩ (plan ++ List.replicate n .go)).stack = [] ∧
        (run ⟨h, s, B, clock'⟩ (plan ++ List.replicate n .go)).stack = [] := by
  have hbare (plan : List Choice) :
      Alike (run ⟨h, s, A, clock⟩ plan) (run ⟨h, s, B, clock'⟩ plan) := by
    apply Alike.of_bare
    rw [run_bare, run_bare]
    rfl
  refine ⟨hbare plan, ?_⟩
  obtain ⟨n, hn⟩ := exists_rest (S := ⟨h, s, A, clock⟩) (run ⟨h, s, A, clock⟩ plan)
  rw [← run_goes] at hn
  exact ⟨n, hn, (hbare _).idle.mp hn⟩

end SerialEndpoint

end TwoPhase
