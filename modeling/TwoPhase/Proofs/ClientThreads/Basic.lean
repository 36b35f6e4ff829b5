import Mathlib.Algebra.Ring.Nat
import Mathlib.Data.List.Induction
import Mathlib.Data.List.Nodup
import TwoPhase.Initiator.Client
import TwoPhase.Proofs.Lists
/-
One client, and any number of threads that are inside it or call it.

A thread moves on its own as long as the client has something to do on it, and stands still inside
foreign code until that code answers. Foreign code may answer whatever it likes, and before it does
it may ask the client for more on the same thread, while the other threads go on. A schedule says
who goes next; nothing is assumed about it, so what holds after every schedule holds under every
interleaving of the moves. The threads also keep their past, which only statements look at.
-/

set_option autoImplicit false

namespace TwoPhase

open Client (Task Frame Upcall Answer Event)

/-! ## What is asked of a client -/

/-- What a caller or the channel asks of a client from outside. -/
inductive Request where
  /-- Submits an operation; the caller has just learned whether the channel is open. -/
  | submit (channelOpen : Bool) (listener : Listener) (operation : Operation)
  /-- Has the handle of an operation decide, through any of its copies. -/
  | decide (id : OperationId) (decision : Decision)
  /-- Delivers a message, whoever made it up. -/
  | deliver (m : Inbound)
  /-- Closes the client, or drops it. -/
  | close
  /-- Subscribes to the outcome of an operation. -/
  | subscribe (id : OperationId) (tag : String)

/-- The task that a request puts on the thread that makes it. -/
def Request.task : Request → Task
  | submit channelOpen listener operation => .submit channelOpen listener operation
  | decide id decision => .decide id decision
  | deliver m => .dispatch m
  | close => .sweep
  | subscribe id tag => .subscribe id tag

/-- The operation that a message prepares or ends. -/
def Inbound.news? : Inbound → Option OperationId
  | .prepared id _ | .completed id _ | .failed id _ => some id
  | .report .. | .channelClosed => none

/-! ## Client threads and what they do -/

/-- What is remembered of the past. -/
inductive Mark where
  /-- A thread made a move, and this is what the move showed. -/
  | moved (t : Task) (shown : List Event)
  /-- An operation was given its identifier. -/
  | enlisted (id : OperationId)
  /-- Foreign code that a thread was inside of has answered. -/
  | answered (u : Upcall) (a : Answer)

/-- The identifiers that were given. -/
def Mark.given : Mark → List OperationId
  | enlisted id => [id]
  | _ => []

/-- The identifier that a move gives to an operation, if it gives one. -/
def Client.allots (c : Client) : Task → Option OperationId
  | .enlist .. => if c.closed then none else some c.nextId
  | _ => none

/-- What is remembered of one move. -/
def Client.marks (c : Client) (t : Task) : List Mark :=
  .moved t (c.perform t).events :: ((c.allots t).map Mark.enlisted).toList

/-- One client, the threads that use it, and what happened so far. -/
structure ClientThreads where
  client : Client
  threads : List (List Frame)
  past : List Mark

/-- A thread that can ask something of the client: one outside it, or inside foreign code. -/
def isAway : List Frame → Bool
  | .todo _ :: _ => false
  | _ => true

/-- What a schedule may pick. -/
inductive Choice where
  /-- A new thread appears. -/
  | join
  /-- A thread asks something of the client. -/
  | ask (thread : Nat) (r : Request)
  /-- A thread makes its next move. -/
  | move (thread : Nat)
  /-- Foreign code that a thread is inside of answers. -/
  | answer (thread : Nat) (a : Answer)

namespace ClientThreads

/-- A client that nobody used yet. -/
def fresh (config : Config) : ClientThreads := ⟨.fresh config, [], []⟩

/-- What a choice leads to. A choice that the thread cannot follow changes nothing. -/
def act (s : ClientThreads) : Choice → ClientThreads
  | .join => { s with threads := s.threads ++ [[]] }
  | .ask n r =>
    match s.threads[n]? with
    | some stack =>
      if isAway stack then { s with threads := s.threads.set n (.todo r.task :: stack) } else s
    | none => s
  | .move n =>
    match s.threads[n]? with
    | some (.todo t :: rest) =>
      ⟨(s.client.perform t).client, s.threads.set n ((s.client.perform t).frames ++ rest),
        s.past ++ s.client.marks t⟩
    | _ => s
  | .answer n a =>
    match s.threads[n]? with
    | some (.inside u :: rest) =>
      { s with threads := s.threads.set n (u.resume a ++ rest), past := s.past ++ [.answered u a] }
    | _ => s

/-- The client and its threads after a schedule. -/
def run (config : Config) (schedule : List Choice) : ClientThreads := schedule.foldl act (fresh config)

/-- All frames of all threads. -/
def frames (s : ClientThreads) : List Frame := s.threads.flatten

/-- The identifiers that the client has given, first to last. -/
def given (s : ClientThreads) : List OperationId := s.past.flatMap Mark.given

/-! ## Steps

A choice singles out one thread by its number. For proofs it is more convenient to have the threads
before it and after it in hand. -/

/-- One thing that can happen to a client and its threads. -/
inductive Step : ClientThreads → ClientThreads → Prop
  | join {s : ClientThreads} : Step s { s with threads := s.threads ++ [[]] }
  | ask {c : Client} {past : List Mark} {before after : List (List Frame)} {stack : List Frame}
      (r : Request) (haway : isAway stack = true) :
      Step ⟨c, before ++ stack :: after, past⟩ ⟨c, before ++ (.todo r.task :: stack) :: after, past⟩
  | move {c : Client} {past : List Mark} {before after : List (List Frame)} {rest : List Frame}
      (t : Task) :
      Step ⟨c, before ++ (.todo t :: rest) :: after, past⟩
        ⟨(c.perform t).client, before ++ ((c.perform t).frames ++ rest) :: after,
          past ++ c.marks t⟩
  | answer {c : Client} {past : List Mark} {before after : List (List Frame)} {rest : List Frame}
      (u : Upcall) (a : Answer) :
      Step ⟨c, before ++ (.inside u :: rest) :: after, past⟩
        ⟨c, before ++ (u.resume a ++ rest) :: after, past ++ [.answered u a]⟩

/-- **A choice is a step**, unless it changes nothing. -/
theorem act_step (s : ClientThreads) (choice : Choice) : s.act choice = s ∨ Step s (s.act choice) := by
  -- a choice that its thread cannot follow leaves everything as it is
  obtain ⟨c, threads, past⟩ := s
  cases choice with
  | join => exact Or.inr .join
  | ask n r =>
    cases hn : threads[n]? with
    | none => exact Or.inl (by simp only [act, hn])
    | some stack =>
      by_cases haway : isAway stack = true
      · obtain ⟨before, after, -, rfl, hset⟩ := around hn
        refine Or.inr ?_
        simp only [act, hn, if_pos haway, hset]
        exact .ask r haway
      · exact Or.inl (by simp only [act, hn, if_neg haway])
  | move n =>
    rcases hn : threads[n]? with _ | _ | ⟨t | u, rest⟩
    · exact Or.inl (by simp only [act, hn])
    · exact Or.inl (by simp only [act, hn])
    · obtain ⟨before, after, -, rfl, hset⟩ := around hn
      refine Or.inr ?_
      simp only [act, hn, hset]
      exact .move t
    · exact Or.inl (by simp only [act, hn])
  | answer n a =>
    rcases hn : threads[n]? with _ | _ | ⟨t | u, rest⟩
    · exact Or.inl (by simp only [act, hn])
    · exact Or.inl (by simp only [act, hn])
    · exact Or.inl (by simp only [act, hn])
    · obtain ⟨before, after, -, rfl, hset⟩ := around hn
      refine Or.inr ?_
      simp only [act, hn, hset]
      exact .answer u a

theorem run_append (config : Config) (first second : List Choice) :
    run config (first ++ second) = second.foldl act (run config first) := by
  rw [run, run, List.foldl_append]

theorem reached_act {config : Config} {s : ClientThreads} (h : ∃ schedule, s = run config schedule)
    (choice : Choice) : ∃ schedule, s.act choice = run config schedule := by
  obtain ⟨schedule, rfl⟩ := h
  exact ⟨schedule ++ [choice], by rw [run_append]; rfl⟩

/-- What holds of a fresh client and survives every step holds after every schedule. -/
theorem run_induction {config : Config} {P : ClientThreads → Prop} (hfresh : P (fresh config))
    (hstep : ∀ s s' : ClientThreads, P s → Step s s' → P s') (schedule : List Choice) :
    P (run config schedule) :=
  foldl_induction act_step hstep hfresh schedule

end ClientThreads

/-! ## Identifiers

They are given in line, so none is given twice until they wrap. -/

namespace Client

/-- Whoever queues a callback changes a mailbox, and nothing else. -/
theorem enqueue_frame (c : Client) (id : OperationId) (callback : Callback) :
    ∃ deliveries, (c.enqueue id callback).1 = { c with deliveries := deliveries } := by
  rw [enqueue]
  split
  · exact ⟨c.deliveries, rfl⟩
  · exact ⟨_, rfl⟩

theorem enqueue_of_found {c : Client} {id : OperationId} {d : Delivery}
    (hdelivery : c.deliveries.get? id = some d) (callback : Callback) :
    let owed : Delivery := { d with mailbox := (d.mailbox.enqueue callback).1 }
    c.enqueue id callback =
      ({ c with deliveries := c.deliveries.insert id owed }, !d.mailbox.delivering) := by
  rw [enqueue, hdelivery]
  rfl

theorem failAll_frame (ids : List OperationId) (c : Client) :
    ∃ deliveries, (c.failAll ids).1 = { c with deliveries := deliveries } := by
  induction ids generalizing c with
  | nil => exact ⟨c.deliveries, rfl⟩
  | cons id rest ih =>
    obtain ⟨first, hfirst⟩ := c.enqueue_frame id (.failed .channelClosed)
    obtain ⟨deliveries, hrest⟩ := ih (c.enqueue id (.failed .channelClosed)).1
    refine ⟨deliveries, ?_⟩
    rw [failAll]
    refine hrest.trans ?_
    rw [hfirst]

theorem pending_enqueue (c : Client) (id : OperationId) (callback : Callback) :
    (c.enqueue id callback).1.pending = c.pending := by
  obtain ⟨deliveries, h⟩ := c.enqueue_frame id callback
  rw [h]

theorem header_enqueue (c : Client) (id : OperationId) (callback : Callback) :
    (c.enqueue id callback).1.nextId = c.nextId ∧ (c.enqueue id callback).1.closed = c.closed := by
  obtain ⟨deliveries, h⟩ := c.enqueue_frame id callback
  rw [h]
  exact ⟨rfl, rfl⟩

/-- A sweep leaves nothing pending, and the table closed. -/
theorem sweep_frame (c : Client) : ∃ deliveries, c.sweep.client =
    { c with closed := true, pending := .empty, deliveries := deliveries } :=
  failAll_frame c.pending.ids { c with closed := true, pending := .empty }

/-- The client once an operation is prepared, before its listener is owed the news. -/
def promote (c : Client) (id : OperationId) (entry : Pending) (result : Value) : Client :=
  { c with
    pending := c.pending.insert id { entry with phase := .prepared }
    handles := c.handles.insert id ⟨result, false⟩ }

/-- The client once an operation has left the table, before its listener is owed the end. -/
def without (c : Client) (id : OperationId) : Client := { c with pending := c.pending.erase id }

theorem accept_of_allows {c : Client} {id : OperationId} {entry : Pending} {result : Value}
    (hentry : c.pending.get? id = some entry) (hallows : entry.phase.allows .prepared = true) :
    c.accept id result =
      ⟨((c.promote id entry result).enqueue id (.prepared result)).1,
        .todo (.announce (.prepared id)) ::
          drainIf id ((c.promote id entry result).enqueue id (.prepared result)).2,
        [.queued id (.prepared result)]⟩ := by
  rw [accept, hentry]
  exact if_pos hallows

theorem finish_of_allows {c : Client} {id : OperationId} {entry : Pending} {outcome : Outcome}
    {kind : String} (hentry : c.pending.get? id = some entry)
    (hallows : entry.phase.allows (finalPhase outcome) = true) :
    c.finish id outcome kind =
      ⟨((c.without id).enqueue id outcome.callback).1,
        .todo (.announce (ended id outcome)) ::
          drainIf id ((c.without id).enqueue id outcome.callback).2,
        [.queued id outcome.callback]⟩ := by
  rw [finish, hentry]
  exact if_pos hallows

/-- Whether a task closes the table. -/
def Task.sweeps : Task → Bool
  | .sweep => true
  | _ => false

attribute [local simp] perform allots count Task.sweeps header_enqueue in
/-- Only an enlistment moves on to the next identifier, and only a sweep closes the table. -/
theorem header_perform (c : Client) (t : Task) :
    (c.perform t).client.nextId =
        (match c.allots t with
        | some id => id.next
        | none => c.nextId) ∧
      (c.perform t).client.closed = (c.closed || t.sweeps) := by
  -- every other task hands both on as they were
  cases t with
  | submit channelOpen listener operation =>
    cases channelOpen with
    | false => simp [refuse]
    | true =>
      cases hencode : operation.payload.encode c.config.maxFrameBytes.toNat <;>
        simp [hencode, refuse]
  | enlist listener operation payload =>
    by_cases hclosed : c.closed = true <;> simp [enlist, refuse, hclosed]
  | submissionSent id result =>
    rcases result with e | ok
    · by_cases hin : c.pending.contains id = true <;> simp [submissionSent, hin]
    · simp [submissionSent]
  | decide id d =>
    cases hhandle : c.handles.get? id with
    | none => simp [decide, hhandle]
    | some handle => cases hasked : handle.asked <;> simp [decide, hhandle, hasked]
  | claim id d =>
    cases hentry : c.pending.get? id with
    | none => simp [claim, hentry]
    | some entry =>
      by_cases hopen : entry.phase = .prepared ∧ entry.decision = none <;>
        simp [claim, hentry, hopen]
  | decisionSent id d result => rcases result with e | ok <;> simp [decisionSent]
  | accept id result =>
    cases hentry : c.pending.get? id with
    | none => by_cases hlate : id < c.nextId <;> simp [accept, hentry, drop, hlate]
    | some entry =>
      by_cases hallows : entry.phase.allows .prepared = true <;> simp [accept, hentry, hallows]
  | finish id outcome kind =>
    cases hentry : c.pending.get? id with
    | none => by_cases hlate : id < c.nextId <;> simp [finish, hentry, drop, hlate]
    | some entry =>
      by_cases hallows : entry.phase.allows (finalPhase outcome) = true <;>
        simp [finish, hentry, hallows]
  | report id severity text =>
    by_cases hin : c.pending.contains id = true <;> simp [report, hin]
  | sweep =>
    obtain ⟨deliveries, h⟩ := c.sweep_frame
    simp [h]
  | drain id =>
    cases hdelivery : c.deliveries.get? id with
    | none => simp [drain, hdelivery]
    | some d =>
      rcases hpop : d.mailbox.pop with ⟨_ | callback, mailbox⟩ <;> simp [drain, hdelivery, hpop]
  | called id callback panicked => simp [called]
  | resolve id outcome => cases hdelivery : c.deliveries.get? id <;> simp [resolve, hdelivery]
  | subscribe id tag => cases hdelivery : c.deliveries.get? id <;> simp [subscribe, hdelivery]
  | _ => simp

end Client

/-- The identifiers that are given first. -/
def OperationId.firsts (n : Nat) : List OperationId :=
  (List.range n).map fun k => ⟨UInt64.ofNat (k + 1)⟩

/-- Until they wrap, all of them are different. -/
theorem OperationId.nodup_firsts {n : Nat} (hn : n < 2 ^ 64 - 1) : (firsts n).Nodup := by
  refine List.Nodup.map_on (fun a ha b hb heq => ?_) List.nodup_range
  have hval : UInt64.ofNat (a + 1) = UInt64.ofNat (b + 1) := congrArg OperationId.val heq
  have ha' := List.mem_range.mp ha
  have hb' := List.mem_range.mp hb
  have hnat := congrArg UInt64.toNat hval
  -- below the bound nothing wraps, so the values tell the numbers apart
  rw [UInt64.toNat_ofNat', UInt64.toNat_ofNat', Nat.mod_eq_of_lt (by omega),
    Nat.mod_eq_of_lt (by omega)] at hnat
  omega

/-- Until they wrap, the identifiers given first are the ones before the next, zero apart. -/
theorem OperationId.mem_firsts {n : Nat} (hn : n < 2 ^ 64 - 1) (id : OperationId) :
    id ∈ firsts n ↔ id < ⟨UInt64.ofNat (n + 1)⟩ ∧ id ≠ ⟨0⟩ := by
  obtain ⟨v⟩ := id
  have hnext : (UInt64.ofNat (n + 1)).toNat = n + 1 := by
    rw [UInt64.toNat_ofNat', Nat.mod_eq_of_lt (by omega)]
  have hlt : (⟨v⟩ : OperationId) < ⟨UInt64.ofNat (n + 1)⟩ ↔ v.toNat < n + 1 := by
    have hval : v < UInt64.ofNat (n + 1) ↔ v.toNat < n + 1 := by
      rw [UInt64.lt_iff_toNat_lt, hnext]
    exact hval
  have hzero : (⟨v⟩ : OperationId) ≠ ⟨0⟩ ↔ v.toNat ≠ 0 := by
    rw [Ne, OperationId.mk.injEq, ← UInt64.toNat_inj]
    rfl
  rw [firsts, List.mem_map, hlt, hzero]
  constructor
  · rintro ⟨k, hk, heq⟩
    have hk' := List.mem_range.mp hk
    have hval : (UInt64.ofNat (k + 1)).toNat = v.toNat :=
      congrArg (fun id : OperationId => id.val.toNat) heq
    rw [UInt64.toNat_ofNat', Nat.mod_eq_of_lt (by omega)] at hval
    omega
  · rintro ⟨hle, hne⟩
    refine ⟨v.toNat - 1, List.mem_range.mpr (by omega), ?_⟩
    rw [show v.toNat - 1 + 1 = v.toNat by omega, UInt64.ofNat_toNat]

theorem OperationId.firsts_succ (n : Nat) :
    firsts (n + 1) = firsts n ++ [⟨UInt64.ofNat (n + 1)⟩] := by
  rw [firsts, List.range_succ, List.map_append]
  rfl

theorem Client.flatMap_marks (c : Client) (t : Task) :
    (c.marks t).flatMap Mark.given = (c.allots t).toList := by
  cases hallots : c.allots t <;> simp [Client.marks, Mark.given, hallots]

namespace ClientThreads

/-- Identifiers are never taken back. -/
theorem Step.given_le {s s' : ClientThreads} (step : Step s s') : s.given.length ≤ s'.given.length := by
  cases step with
  | join => exact Nat.le_refl _
  | ask r haway => exact Nat.le_refl _
  | move t => simp [given]
  | answer u a => simp [given]

theorem given_le_act (s : ClientThreads) (choice : Choice) :
    s.given.length ≤ (s.act choice).given.length := by
  rcases act_step s choice with hsame | hstep
  · exact Nat.le_of_eq (congrArg (·.given.length) hsame.symm)
  · exact hstep.given_le

/-- The identifiers are given in line. -/
theorem given_run (config : Config) (schedule : List Choice) :
    (run config schedule).given = OperationId.firsts (run config schedule).given.length ∧
      (run config schedule).client.nextId =
        ⟨UInt64.ofNat ((run config schedule).given.length + 1)⟩ := by
  refine run_induction (P := fun s => s.given = OperationId.firsts s.given.length ∧
    s.client.nextId = ⟨UInt64.ofNat (s.given.length + 1)⟩) ⟨rfl, rfl⟩ (fun s s' h step => ?_) schedule
  cases step with
  | join => exact h
  | ask r haway => exact h
  | answer u a => simpa only [given, List.flatMap_append, List.flatMap_singleton, Mark.given,
      List.append_nil] using h
  | @move c past before after rest t =>
    obtain ⟨hgiven, hnext⟩ := h
    have hperform := (c.header_perform t).1
    simp only [given, List.flatMap_append, Client.flatMap_marks] at hgiven hnext ⊢
    cases hallots : c.allots t with
    | none =>
      rw [hallots] at hperform
      simp only [Option.toList_none, List.append_nil]
      exact ⟨hgiven, hperform.trans hnext⟩
    | some id =>
      -- what is given is the next identifier, and the next one moves on
      have hid : id = c.nextId := by
        cases t <;> simp_all [Client.allots]
      rw [hallots] at hperform
      simp only [Option.toList_some, List.length_append, List.length_singleton]
      refine ⟨?_, ?_⟩
      · rw [OperationId.firsts_succ, ← hgiven, hid, hnext]
      · have hadd := UInt64.ofNat_add ((past.flatMap Mark.given).length + 1) 1
        rw [hperform, hadd]
        simp only [hid, hnext, OperationId.next]
        rfl

/-- **No identifier is given twice** while fewer than 2^64 - 1 are given. -/
theorem count_given_le (config : Config) (schedule : List Choice) (id : OperationId)
    (hgiven : (run config schedule).given.length < 2 ^ 64 - 1) :
    (run config schedule).given.count id ≤ 1 := by
  rw [(given_run config schedule).1]
  exact List.nodup_iff_count_le_one.mp (OperationId.nodup_firsts hgiven) id

end ClientThreads

end TwoPhase
