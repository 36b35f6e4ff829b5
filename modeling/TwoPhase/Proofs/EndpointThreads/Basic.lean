import Mathlib.Data.List.Induction
import TwoPhase.Participant.Endpoint
import TwoPhase.Proofs.Lists
/-
One endpoint, and any number of threads that handle messages in it.

A thread makes its moves as long as the endpoint has something to do on it, and stands still inside
foreign code (the handler, the journal, the path of the replies) until that code answers. Foreign code
may answer whatever it likes, or never, and before it does it may have the same thread handle further
messages. A schedule picks who goes next and what the clock shows, so what holds after every schedule
holds under every interleaving of the moves.

Like those of a client, the threads keep their past for statements to look at: what happened, and on
which thread. Everything that one move can do to one operation is listed in `Endpoint.Effect`, and an
invariant of an operation is a case analysis on that list.
-/

set_option autoImplicit false

namespace TwoPhase

open Endpoint (Task Frame Upcall Answer)

/-! ## What can happen to an operation -/

/-- What can happen to an operation at its participant. -/
inductive Incident where
  /-- A submission was entered in the table. -/
  | entered (id : OperationId) (now : UInt64)
  /-- The handler is called to prepare. -/
  | preparing (id : OperationId) (payload : Payload)
  /-- The handler has returned from that call. -/
  | answered (id : OperationId) (result : Except Failure Value)
  /-- The entry became that of a prepared operation. -/
  | published (id : OperationId)
  /-- The entry of a refused submission left the table. -/
  | dismissed (id : OperationId)
  /-- A decision took the entry of a prepared operation. -/
  | taken (id : OperationId)
  /-- The handler is called to carry a decision out. -/
  | deciding (id : OperationId) (decision : Decision)

/-- The operation that something happened to. -/
def Incident.id : Incident → OperationId
  | entered id _ | preparing id _ | answered id _ | published id | dismissed id | taken id
  | deciding id _ => id

namespace Endpoint

/-- What happens when a thread makes a move, if it is worth remembering. -/
def incident (e : Endpoint) (now : UInt64) : Task → Option Incident
  | .receive (.execute id _) =>
    if e.transactions.contains id then none else some (.entered id now)
  | .receive (.commit id) | .receive (.rollback id) =>
    match e.transactions.get? id with
    | some (.prepared _) => some (.taken id)
    | _ => none
  | .prepared id (.ok _) =>
    match e.transactions.get? id with
    | some (.received _) => some (.published id)
    | _ => none
  | .prepared id (.error _) => some (.dismissed id)
  | .raise (.prepare id payload) => some (.preparing id payload)
  | .raise (.finalize t decision) => some (.deciding t.id decision)
  | _ => none

/-- What happens when foreign code answers, if it is worth remembering. -/
def Upcall.incident : Upcall → Answer → Option Incident
  | .prepare id _, .handled result => some (.answered id result)
  | _, _ => none

end Endpoint

/-! ## Endpoint threads and what they do -/

/-- One endpoint, the threads in it, and what happened so far, by thread. -/
structure EndpointThreads where
  endpoint : Endpoint
  threads : List (List Frame)
  past : List (Nat × Incident)

namespace EndpointThreads

/-- A thread that can be given a message: one outside the endpoint, or inside foreign code. -/
def isFree : List Frame → Bool
  | .todo _ :: _ => false
  | _ => true

/-- What a schedule may pick. -/
inductive Choice where
  /-- A new thread appears. -/
  | join
  /-- A thread is given a message to handle. -/
  | hand (thread : Nat) (m : Outbound)
  /-- The handler, while it prepares, sends a report. -/
  | report (thread : Nat) (severity : Severity) (text : String)
  /-- A thread makes its next move, at a time. -/
  | move (thread : Nat) (now : UInt64)
  /-- Foreign code that a thread is inside of answers. -/
  | answer (thread : Nat) (a : Answer)

/-- An endpoint that nobody used yet. -/
def fresh : EndpointThreads := ⟨.fresh, [], []⟩

/-- What a choice leads to. A choice that the thread cannot follow changes nothing. -/
def act (s : EndpointThreads) : Choice → EndpointThreads
  | .join => { s with threads := s.threads ++ [[]] }
  | .hand n m =>
    match s.threads[n]? with
    | some stack =>
      if isFree stack then { s with threads := s.threads.set n (.todo (.receive m) :: stack) } else s
    | none => s
  | .report n severity text =>
    match s.threads[n]? with
    | some (.inside (.prepare id payload) :: rest) =>
      { s with
        threads := s.threads.set n
          (.todo (.raise (.reply (.report id severity text))) :: .inside (.prepare id payload) :: rest) }
    | _ => s
  | .move n now =>
    match s.threads[n]? with
    | some (.todo t :: rest) =>
      ⟨(s.endpoint.perform now t).endpoint,
        s.threads.set n ((s.endpoint.perform now t).frames ++ rest),
        s.past ++ (s.endpoint.incident now t).toList.map (n, ·)⟩
    | _ => s
  | .answer n a =>
    match s.threads[n]? with
    | some (.inside u :: rest) =>
      ⟨s.endpoint, s.threads.set n (u.resume a ++ rest), s.past ++ (u.incident a).toList.map (n, ·)⟩
    | _ => s

/-- The endpoint and its threads after a schedule. -/
def run (schedule : List Choice) : EndpointThreads := schedule.foldl act fresh

/-- All frames of all threads. -/
def frames (s : EndpointThreads) : List Frame := s.threads.flatten

/-! ## Steps -/

/-- One thing that can happen at an endpoint, with the threads before and after the one that changes. What
comes on a stack by a message or a report is a frame that nobody has to remember. -/
inductive Step : EndpointThreads → EndpointThreads → Prop
  | join {s : EndpointThreads} : Step s { s with threads := s.threads ++ [[]] }
  | hand {e : Endpoint} {past : List (Nat × Incident)} {before after : List (List Frame)}
      {stack : List Frame} (m : Outbound) :
      Step ⟨e, before ++ stack :: after, past⟩
        ⟨e, before ++ (.todo (.receive m) :: stack) :: after, past⟩
  | report {e : Endpoint} {past : List (Nat × Incident)} {before after : List (List Frame)}
      {stack : List Frame} (m : Inbound) :
      Step ⟨e, before ++ stack :: after, past⟩
        ⟨e, before ++ (.todo (.raise (.reply m)) :: stack) :: after, past⟩
  | move {e : Endpoint} {past : List (Nat × Incident)} {before after : List (List Frame)}
      {rest : List Frame} (now : UInt64) (t : Task) :
      Step ⟨e, before ++ (.todo t :: rest) :: after, past⟩
        ⟨(e.perform now t).endpoint, before ++ ((e.perform now t).frames ++ rest) :: after,
          past ++ (e.incident now t).toList.map (before.length, ·)⟩
  | answer {e : Endpoint} {past : List (Nat × Incident)} {before after : List (List Frame)}
      {rest : List Frame} (u : Upcall) (a : Answer) :
      Step ⟨e, before ++ (.inside u :: rest) :: after, past⟩
        ⟨e, before ++ (u.resume a ++ rest) :: after,
          past ++ (u.incident a).toList.map (before.length, ·)⟩

/-- **A choice is a step**, unless it changes nothing. -/
theorem act_step (s : EndpointThreads) (choice : Choice) : s.act choice = s ∨ Step s (s.act choice) := by
  obtain ⟨e, threads, past⟩ := s
  -- a choice does nothing where its thread does not exist or is not at the point that it is about
  cases choice with
  | join => exact Or.inr .join
  | hand n m =>
    cases hn : threads[n]? with
    | none => exact Or.inl (by simp only [act, hn])
    | some stack =>
      by_cases hfree : isFree stack = true
      · obtain ⟨before, after, rfl, rfl, hset⟩ := around hn
        refine Or.inr ?_
        simp only [act, hn, if_pos hfree, hset]
        exact .hand m
      · exact Or.inl (by simp only [act, hn, if_neg hfree])
  | report n severity text =>
    rcases hn : threads[n]? with _ | _ | ⟨t | u, rest⟩
    · exact Or.inl (by simp only [act, hn])
    · exact Or.inl (by simp only [act, hn])
    · exact Or.inl (by simp only [act, hn])
    · cases u with
      | prepare id payload =>
        obtain ⟨before, after, rfl, rfl, hset⟩ := around hn
        refine Or.inr ?_
        simp only [act, hn, hset]
        exact .report _
      | _ => exact Or.inl (by simp only [act, hn])
  | move n now =>
    rcases hn : threads[n]? with _ | _ | ⟨t | u, rest⟩
    · exact Or.inl (by simp only [act, hn])
    · exact Or.inl (by simp only [act, hn])
    · obtain ⟨before, after, rfl, rfl, hset⟩ := around hn
      refine Or.inr ?_
      simp only [act, hn, hset]
      exact .move now t
    · exact Or.inl (by simp only [act, hn])
  | answer n a =>
    rcases hn : threads[n]? with _ | _ | ⟨t | u, rest⟩
    · exact Or.inl (by simp only [act, hn])
    · exact Or.inl (by simp only [act, hn])
    · exact Or.inl (by simp only [act, hn])
    · obtain ⟨before, after, rfl, rfl, hset⟩ := around hn
      refine Or.inr ?_
      simp only [act, hn, hset]
      exact .answer u a

/-- What holds of a fresh endpoint and survives every step holds after every schedule. -/
theorem run_induction {P : EndpointThreads → Prop} (hfresh : P fresh)
    (hstep : ∀ s s' : EndpointThreads, P s → Step s s' → P s') (schedule : List Choice) :
    P (run schedule) :=
  foldl_induction act_step hstep hfresh schedule

end EndpointThreads

/-! ## What one move can do to one operation -/

namespace Endpoint

/-- Whether a frame belongs to the submission of an operation, from its entry in the table to the
moment when the entry is settled. -/
def Frame.owns (id : OperationId) : Frame → Bool
  | .todo (.decode i _) | .todo (.raise (.prepare i _)) | .inside (.prepare i _)
  | .todo (.prepared i _) => i = id
  | _ => false

/-- Whether a frame is about to have a decision on an operation carried out. -/
def Frame.orders (id : OperationId) : Frame → Bool
  | .todo (.raise (.finalize t _)) => t.id = id
  | _ => false

/-- Whether a frame carries something of an operation that is worth remembering. -/
def Frame.about (id : OperationId) (f : Frame) : Bool := f.owns id || f.orders id

/-- What a task can do to the operation `id`: to its entry, to the frames about it, and what happens. -/
inductive Effect (id : OperationId) (now : UInt64) :
    Option Transaction → Task → Option Transaction → List Frame → List Incident → Prop
  /-- The task is about something else, or comes to nothing. -/
  | aside {held : Option Transaction} {t : Task} (ht : (Frame.todo t).about id = false) :
      Effect id now held t held [] []
  | entered {payload : List UInt8} :
      Effect id now none (.receive (.execute id payload)) (some (.received ⟨id, now⟩))
        [.todo (.decode id payload)] [.entered id now]
  | decoded {held : Option Transaction} {payload : List UInt8} {p : Payload} :
      Effect id now held (.decode id payload) held [.todo (.raise (.prepare id p))] []
  | malformed {held : Option Transaction} {payload : List UInt8} {f : Failure} :
      Effect id now held (.decode id payload) held [.todo (.prepared id (.error f))] []
  | preparing {held : Option Transaction} {p : Payload} :
      Effect id now held (.raise (.prepare id p)) held [.inside (.prepare id p)]
        [.preparing id p]
  | published {t : ReceivedTransaction} {result : Value} :
      Effect id now (some (.received t)) (.prepared id (.ok result))
        (some (.prepared (t.prepare now))) [] [.published id]
  /-- A success that finds its entry gone; no endpoint gets there. -/
  | misplaced {held : Option Transaction} {result : Value}
      (hheld : ∀ t, held ≠ some (.received t)) :
      Effect id now held (.prepared id (.ok result)) none [] []
  | dismissed {held : Option Transaction} {f : Failure} :
      Effect id now held (.prepared id (.error f)) none [] [.dismissed id]
  | taken {t : PreparedTransaction} {decision : Decision} (ht : t.id = id) :
      Effect id now (some (.prepared t)) (.receive (.decide id decision)) none
        [.todo (.raise (.finalize t decision))] [.taken id]
  | deciding {held : Option Transaction} {t : PreparedTransaction} {decision : Decision}
      (ht : t.id = id) :
      Effect id now held (.raise (.finalize t decision)) held [] [.deciding id decision]

/-- Every transaction is filed under its own operation. -/
def Keyed (e : Endpoint) : Prop := ∀ id t, e.transactions.get? id = some t → t.id = id

theorem keyed_fresh : fresh.Keyed := fun _ _ h => by contradiction

section
variable (e : Endpoint) (now : UInt64)

/-- A transaction that is put in under its own operation leaves all filed under their own. -/
theorem keyed_insert {e : Endpoint} (h : e.Keyed) {t : Transaction} :
    Keyed ⟨e.transactions.insert t.id t⟩ := by
  intro id t' ht'
  rw [Table.get?_insert] at ht'
  by_cases hid : id = t.id
  · rw [if_pos hid] at ht'
    obtain rfl := Option.some.inj ht'
    exact hid.symm
  · rw [if_neg hid] at ht'
    exact h id t' ht'

theorem keyed_erase {e : Endpoint} (h : e.Keyed) (i : OperationId) :
    Keyed ⟨e.transactions.erase i⟩ := by
  intro id t ht
  rw [Table.get?_erase] at ht
  by_cases hid : id = i
  · rw [if_pos hid] at ht
    contradiction
  · rw [if_neg hid] at ht
    exact h id t ht

/-- No move files a transaction under another operation than its own. -/
theorem keyed_perform {e : Endpoint} (h : e.Keyed) (t : Task) : (e.perform now t).endpoint.Keyed := by
  have htake (id : OperationId) (decision : Decision) : (e.take id decision).endpoint.Keyed := by
    unfold take
    split
    · exact keyed_erase h id
    · exact h
  -- a transaction is filed by what enters it, and moved on only under the identifier it was found under
  cases t with
  | receive m =>
    cases m with
    | execute id payload =>
      simp only [perform, enter]
      split
      · exact h
      · exact keyed_insert h (t := .received ⟨id, now⟩)
    | commit id => exact htake id .commit
    | rollback id => exact htake id .rollback
  | decode id payload =>
    simp only [perform, decode]
    split <;> exact h
  | prepared id result =>
    rcases result with f | result
    · exact keyed_erase h id
    · simp only [perform, prepared]
      rcases hheld : e.transactions.get? id with _ | t | t
      · exact h
      · have hid : t.id = id := h id _ hheld
        have hinsert := keyed_insert h (t := .prepared (t.prepare now))
        rw [show Transaction.id (.prepared (t.prepare now)) = id from hid] at hinsert
        exact hinsert
      · exact keyed_erase h id
  | finalized t decision result =>
    rcases result with f | result
    · exact h
    · exact h
  | recorded id result =>
    rcases result with err | number
    · exact h
    · exact h
  | note n => exact h
  | raise u => exact h

/-- What a move comes to for one operation. -/
def Affects (id : OperationId) (t : Task) : Prop :=
  Effect id now (e.transactions.get? id) t ((e.perform now t).endpoint.transactions.get? id)
    ((e.perform now t).frames.filter (Frame.about id))
    ((e.incident now t).toList.filter (·.id = id))

attribute [local simp] Frame.about Frame.owns Frame.orders Incident.id

/-- A submission enters its own operation, unless that is in the table already. -/
theorem affects_execute (id i : OperationId) (payload : List UInt8) :
    e.Affects now id (.receive (.execute i payload)) := by
  unfold Affects
  by_cases hknown : e.transactions.contains i = true
  · simpa [perform, enter, incident, hknown] using Effect.aside rfl
  · by_cases hi : i = id
    · subst hi
      have hnone : e.transactions.get? i = none := by
        simpa [Table.contains] using hknown
      simpa [perform, enter, incident, hknown, hnone, Table.get?_insert] using Effect.entered
    · simpa [perform, enter, incident, hknown, Table.get?_insert, Ne.symm hi, hi] using
        Effect.aside rfl

/-- A decision takes its own operation, and only once that is prepared. -/
theorem affects_decide {e : Endpoint} (hkeyed : e.Keyed) (id i : OperationId) (decision : Decision) :
    e.Affects now id (.receive (.decide i decision)) := by
  have hperform : e.perform now (.receive (.decide i decision)) = e.take i decision := by
    cases decision <;> rfl
  have hincident : e.incident now (.receive (.decide i decision)) =
      match e.transactions.get? i with
      | some (.prepared _) => some (.taken i)
      | _ => none := by
    cases decision <;> rfl
  have haside : (Frame.todo (.receive (.decide i decision))).about id = false := by
    cases decision <;> rfl
  unfold Affects
  rw [hperform, hincident, take]
  rcases hheld : e.transactions.get? i with _ | t | t
  · simpa using Effect.aside haside
  · simpa using Effect.aside haside
  · have ht : t.id = i := hkeyed i _ hheld
    by_cases hi : i = id
    · subst hi
      simpa [hheld, ht, Table.get?_erase] using Effect.taken ht
    · simpa [ht, hi, Ne.symm hi, Table.get?_erase] using Effect.aside haside

/-- A payload concerns its own operation, whether it can be read or not. -/
theorem affects_decode (id i : OperationId) (payload : List UInt8) :
    e.Affects now id (.decode i payload) := by
  unfold Affects
  by_cases hi : i = id
  · subst hi
    cases hdecode : Payload.decode payload with
    | error fault => simpa [perform, decode, incident, hdecode] using Effect.malformed
    | ok p => simpa [perform, decode, incident, hdecode] using Effect.decoded
  · have haside : (Frame.todo (.decode i payload)).about id = false := by simp [hi]
    cases hdecode : Payload.decode payload with
    | error fault => simpa [perform, decode, incident, hdecode, hi] using Effect.aside haside
    | ok p => simpa [perform, decode, incident, hdecode, hi] using Effect.aside haside

/-- The answer of the handler publishes its own operation or dismisses it. -/
theorem affects_prepared (id i : OperationId) (result : Except Failure Value) :
    e.Affects now id (.prepared i result) := by
  unfold Affects
  by_cases hi : i = id
  · subst hi
    rcases result with f | result
    · simpa [perform, prepared, incident, Table.get?_erase] using Effect.dismissed
    · rcases hheld : e.transactions.get? i with _ | t | t
      · have hnone : ∀ t, none ≠ some (Transaction.received t) := fun t => by simp
        simpa [perform, prepared, incident, hheld] using Effect.misplaced hnone
      · simpa [perform, prepared, incident, hheld, Table.get?_insert] using Effect.published
      · have hprepared : ∀ t', some (Transaction.prepared t) ≠ some (.received t') :=
          fun t' => by simp
        simpa [perform, prepared, incident, hheld, Table.get?_erase] using Effect.misplaced hprepared
  · have haside : (Frame.todo (.prepared i result)).about id = false := by simp [hi]
    rcases result with f | result
    · simpa [perform, prepared, incident, Table.get?_erase, hi, Ne.symm hi] using Effect.aside haside
    · rcases hheld : e.transactions.get? i with _ | t | t
      · simpa [perform, prepared, incident, hheld] using Effect.aside haside
      · simpa [perform, prepared, incident, hheld, Table.get?_insert, hi, Ne.symm hi] using
          Effect.aside haside
      · simpa [perform, prepared, incident, hheld, Table.get?_erase, hi, Ne.symm hi] using
          Effect.aside haside

/-- Of the calls out, those of the handler concern an operation. What is recorded or replied comes after
the table has changed, and concerns none. -/
theorem affects_raise (id : OperationId) (u : Upcall) : e.Affects now id (.raise u) := by
  unfold Affects
  cases u with
  | prepare i p =>
    by_cases hi : i = id
    · subst hi
      simpa [perform, incident] using Effect.preparing
    · simpa [perform, incident, hi] using
        Effect.aside (t := .raise (.prepare i p)) (by simp [hi])
  | finalize t decision =>
    by_cases ht : t.id = id
    · simpa [perform, incident, ht] using Effect.deciding ht
    · simpa [perform, incident, ht] using
        Effect.aside (t := .raise (.finalize t decision)) (by simp [ht])
  | record i event => simpa [perform, incident] using Effect.aside (t := .raise (.record i event)) rfl
  | reply m => simpa [perform, incident] using Effect.aside (t := .raise (.reply m)) rfl

/-- **The list is complete.** -/
theorem affects {e : Endpoint} (hkeyed : e.Keyed) (id : OperationId) (t : Task) :
    e.Affects now id t := by
  cases t with
  | receive m =>
    cases m with
    | execute i payload => exact e.affects_execute now id i payload
    | commit i => exact affects_decide now hkeyed id i .commit
    | rollback i => exact affects_decide now hkeyed id i .rollback
  | decode i payload => exact e.affects_decode now id i payload
  | prepared i result => exact e.affects_prepared now id i result
  | raise u => exact e.affects_raise now id u
  | finalized t decision result =>
    unfold Affects
    rcases result with f | result
    · simpa [perform, finalized, incident] using Effect.aside rfl
    · simpa [perform, finalized, incident] using Effect.aside rfl
  | recorded i result =>
    unfold Affects
    rcases result with err | number
    · simpa [perform, incident] using Effect.aside rfl
    · simpa [perform, incident] using Effect.aside rfl
  | note n =>
    unfold Affects
    simpa [perform, incident] using Effect.aside rfl

end

end Endpoint

end TwoPhase
