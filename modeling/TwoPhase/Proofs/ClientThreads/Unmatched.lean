import TwoPhase.Proofs.ClientThreads.OperationShare
/-
News about operations that are not pending.

The client keeps no record of operations that ended. Whether it ever submitted one it reads off a
single comparison with the next identifier, in the two functions that take such news in. The
identifiers are given in line from one on, so the comparison is exact (`lt_nextId_iff`) for every
identifier but zero, which is never given and yet comes before all that are. From the comparison
follows all that the news do (`unmatched`): one counter moves, and only for an operation that was
never submitted is the observer told.
-/

set_option autoImplicit false

namespace TwoPhase

open Client (Task Frame Upcall Answer Event)

/-! ## Which identifiers were given -/

namespace ClientThreads

/-- **One comparison tells whether an operation was ever submitted**, as long as identifiers have not
wrapped and it is not about zero. -/
theorem lt_nextId_iff (config : Config) (schedule : List Choice) {id : OperationId}
    (hgiven : (run config schedule).given.length < 2 ^ 64 - 1) (hzero : id ≠ ⟨0⟩) :
    id < (run config schedule).client.nextId ↔ id ∈ (run config schedule).given := by
  obtain ⟨hfirsts, hnext⟩ := given_run config schedule
  rw [hfirsts, hnext, OperationId.mem_firsts hgiven]
  exact ⟨fun hlt => ⟨hlt, hzero⟩, And.left⟩

end ClientThreads

/-! ## News that find no entry -/

/-- Both functions that take news in drop what they find no entry for. -/
theorem Client.perform_news {c : Client} {m : Inbound} {id : OperationId}
    (hnews : m.news? = some id) (hnone : c.pending.get? id = none) :
    c.perform (taskOf m) = c.drop id m.kind := by
  cases m with
  | prepared i result =>
    obtain rfl : i = id := Option.some.inj hnews
    simp only [taskOf, perform, accept, hnone, Inbound.kind]
  | completed i result =>
    obtain rfl : i = id := Option.some.inj hnews
    simp only [taskOf, perform, finish, hnone, Inbound.kind]
  | failed i failure =>
    obtain rfl : i = id := Option.some.inj hnews
    simp only [taskOf, perform, finish, hnone, Inbound.kind]
  | report i severity text => contradiction
  | channelClosed => contradiction

theorem Client.allots_news {c : Client} {m : Inbound} : c.allots (taskOf m) = none := by
  cases m <;> rfl

namespace ClientThreads

variable {s : ClientThreads} {n : Nat} {rest : List Frame}

/-- A thread makes its move: only its own stack changes, and what the client holds. -/
theorem act_move {t : Task} (hthread : s.threads[n]? = some (.todo t :: rest)) :
    s.act (.move n) = ⟨(s.client.perform t).client,
      s.threads.set n ((s.client.perform t).frames ++ rest), s.past ++ s.client.marks t⟩ := by
  rw [act, hthread]

theorem act_answer {u : Upcall} (hthread : s.threads[n]? = some (.inside u :: rest)) (a : Answer) :
    s.act (.answer n a) =
      ⟨s.client, s.threads.set n (u.resume a ++ rest), s.past ++ [.answered u a]⟩ := by
  rw [act, hthread]

/-- A thread that did nothing but count: it is done with what was on top of its stack. -/
def counted (s : ClientThreads) (k : Counter) (n : Nat) (rest : List Frame) (marks : List Mark) :
    ClientThreads :=
  ⟨s.client.count k, s.threads.set n rest, s.past ++ marks⟩

/-- What is remembered when a thread tells the observer something. -/
def told (o : Observation) (a : Answer) : List Mark :=
  [.moved (.announce o) [], .moved (.raise (.observe o)) [.began (.observe o)],
    .answered (.observe o) a]

/-- What is remembered of late news. -/
def lateMarks (m : Inbound) (id : OperationId) : List Mark :=
  [.moved (Client.taskOf m) [.noted (.late id m.kind)]]

/-- What is remembered of news about an operation that was never submitted. -/
def unknownMarks (m : Inbound) (id : OperationId) (a : Answer) : List Mark :=
  .moved (Client.taskOf m) [.noted (.unknown id m.kind)] ::
    told (.violation (.unknownOperation id m.kind)) a

/-- Nothing that a caller, a listener or the holder of a handle can see has changed. -/
structure Undisturbed (s s' : ClientThreads) : Prop where
  pending : s'.client.pending = s.client.pending
  handles : s'.client.handles = s.client.handles
  queued : ∀ i, s'.queued i = s.queued i
  turns : ∀ i, s'.turns i = s.turns i
  cells : ∀ i, s'.client.cell i = s.client.cell i

/-- All that news do which find no entry, from the move that looks for the entry on. -/
structure Unmatched (s : ClientThreads) (n : Nat) (rest : List Frame) (m : Inbound) (id : OperationId) :
    Prop where
  /-- An operation that was submitted has ended: the news are late, and nobody is told. -/
  late : id ∈ s.given → s.act (.move n) = s.counted .duplicates n rest (lateMarks m id) ∧
    Undisturbed s (s.act (.move n))
  /-- An operation that was never submitted: the observer is told so, once. -/
  unknown : id ∉ s.given → ∀ a : Answer,
    let s' := [Choice.move n, .move n, .move n, .answer n a].foldl act s
    s' = s.counted .violations n rest (unknownMarks m id a) ∧ Undisturbed s s'

/-- To tell the observer something is to count it and to call, and nothing else. -/
theorem tell {o : Observation} (hthread : s.threads[n]? = some (.todo (.announce o) :: rest))
    (a : Answer) :
    [Choice.move n, .move n, .answer n a].foldl act s =
      s.counted o.counter n rest (told o a) := by
  have hn : n < s.threads.length := (List.getElem?_eq_some_iff.mp hthread).1
  have hset (stack : List Frame) : (s.threads.set n stack)[n]? = some stack := by
    rw [List.getElem?_set_self hn]
  -- the frame counts, turns into the call, and is gone when the observer has answered
  have hcount : s.act (.move n) =
      s.counted o.counter n (.todo (.raise (.observe o)) :: rest) [.moved (.announce o) []] :=
    act_move hthread
  have hcall : (s.act (.move n)).act (.move n) =
      s.counted o.counter n (.inside (.observe o) :: rest)
        [.moved (.announce o) [], .moved (.raise (.observe o)) [.began (.observe o)]] := by
    rw [hcount, act_move (hset _), counted, counted, List.set_set, List.append_assoc]
    rfl
  rw [List.foldl_cons, List.foldl_cons, List.foldl_cons, List.foldl_nil, hcall,
    act_answer (hset _), counted, counted, List.set_set, List.append_assoc]
  rfl

/-- Whoever only counts and tells the observer disturbs nobody. -/
theorem undisturbed_counted (s : ClientThreads) (k : Counter) (n : Nat) (rest : List Frame)
    (marks : List Mark) (hqueued : ∀ i, marks.flatMap (Mark.queued i) = [])
    (hturns : ∀ i, marks.flatMap (Mark.turns i) = []) :
    Undisturbed s (s.counted k n rest marks) where
  pending := rfl
  handles := rfl
  queued i := by rw [queued, queued, counted, List.flatMap_append, hqueued, List.append_nil]
  turns i := by rw [turns, turns, counted, List.flatMap_append, hturns, List.append_nil]
  cells _ := rfl

/-- **News about an operation that is not pending move one counter.** If the operation was ever
submitted they are late; if not, the observer is told of a violation, once. Either way the table, the
callbacks and the outcomes stay as they are. -/
theorem unmatched (config : Config) (schedule : List Choice) {n : Nat} {rest : List Frame}
    {m : Inbound} {id : OperationId}
    (hgiven : (run config schedule).given.length < 2 ^ 64 - 1) (hzero : id ≠ ⟨0⟩)
    (hnews : m.news? = some id) (hnone : (run config schedule).client.pending.get? id = none)
    (hthread : (run config schedule).threads[n]? = some (.todo (Client.taskOf m) :: rest)) :
    (run config schedule).Unmatched n rest m id := by
  -- whether an identifier counts as known is whether it was given, as long as it is not the zero
  have hknown := lt_nextId_iff config schedule hgiven hzero
  generalize run config schedule = s at hknown hnone hthread ⊢
  have hperform : s.client.perform (Client.taskOf m) = s.client.drop id m.kind :=
    Client.perform_news hnews hnone
  have hmove := act_move hthread
  rw [Client.marks, Client.allots_news, hperform] at hmove
  constructor
  · intro hmem
    rw [Client.drop, if_pos (hknown.mpr hmem)] at hmove
    rw [hmove]
    exact ⟨rfl, undisturbed_counted s .duplicates n rest (lateMarks m id)
      (fun _ => rfl) (fun _ => rfl)⟩
  · intro hmem a
    rw [Client.drop, if_neg (fun hlt => hmem (hknown.mp hlt))] at hmove
    have hn : n < s.threads.length := (List.getElem?_eq_some_iff.mp hthread).1
    have hnext : (s.act (.move n)).threads[n]? =
        some (.todo (.announce (.violation (.unknownOperation id m.kind))) :: rest) := by
      rw [hmove]
      exact List.getElem?_set_self hn
    -- an unknown one is announced, raised, told and answered in four moves of the thread
    have hall : [Choice.move n, .move n, .move n, .answer n a].foldl act s =
        s.counted .violations n rest (unknownMarks m id a) := by
      rw [List.foldl_cons, tell hnext a, hmove, counted, counted, List.set_set, List.append_assoc]
      rfl
    dsimp only
    rw [hall]
    exact ⟨rfl, undisturbed_counted s .violations n rest (unknownMarks m id a)
      (fun _ => by simp [unknownMarks, told, Mark.queued, Event.queuedFor])
      (fun _ => by simp [unknownMarks, told, Mark.turns, Event.begunAbout, Upcall.about])⟩

/-- A thread takes in news about an operation that was never submitted. -/
def surprise : List Choice := [.join, .ask 0 (.deliver (.prepared ⟨7⟩ .undefined)), .move 0]

theorem unmatched_of_surprise :
    (run {} surprise).given.length < 2 ^ 64 - 1 ∧ (⟨7⟩ : OperationId) ≠ ⟨0⟩ ∧
      (run {} surprise).Unmatched 0 [] (.prepared ⟨7⟩ .undefined) ⟨7⟩ := by
  have hgiven : (run {} surprise).given.length < 2 ^ 64 - 1 := by decide +kernel
  have hzero : (⟨7⟩ : OperationId) ≠ ⟨0⟩ := by decide
  exact ⟨hgiven, hzero, unmatched {} surprise hgiven hzero rfl rfl rfl⟩

/-! ## The identifier that is set apart -/

/-- **Zero counts as known though it is never given**: it comes before the first identifier. News about
it are taken for late ones, and the observer hears of no violation. -/
theorem zero_late :
    let s := run {} [.join, .ask 0 (.deliver (.prepared ⟨0⟩ .undefined)), .move 0, .move 0]
    (⟨0⟩ : OperationId) ∉ s.given ∧ s.client.pending.get? ⟨0⟩ = none ∧ s.threads = [[]] ∧
      s.client.stats = { duplicates := 1 } :=
  ⟨List.not_mem_nil, rfl, rfl, rfl⟩

end ClientThreads

end TwoPhase
