import Mathlib.Data.List.TakeWhile
import TwoPhase.Proofs.ClientThreads.OperationShare
/-
The subscribers to an outcome, and those who publish it.

In the client only the delivery of an operation publishes its outcome, and does so once. Here any
thread may try to publish whatever outcome it likes, as often as it likes, and any thread may
subscribe, before that, after it, or from within the call of another subscriber. The moves are the
client's: one under the lock of the cell, and one for each call. Subscribers are taken to return.

A subscriber goes by its tag. Several may go by one, so what is said about the order speaks of tags
first; where the tags tell the subscribers apart it is the order of the subscribers.
-/

set_option autoImplicit false

namespace TwoPhase

open Client (Task Frame Upcall Answer)

/-! ## Subscriptions, publications and calls -/

namespace Client

/-- Whether a frame has to do with the outcome of an operation: a subscription, a publication, or the
call of a subscriber. -/
def Frame.heeds (id : OperationId) : Frame → Bool
  | .todo (.subscribe i _) | .todo (.resolve i _) => i = id
  | .todo (.raise (.outcome i _ _)) | .inside (.outcome i _ _) => i = id
  | _ => false

/-- The call of a subscriber that a frame is about to make. -/
def Frame.upcoming? (id : OperationId) : Frame → Option (String × Outcome)
  | .todo (.raise (.outcome i tag o)) => if i = id then some (tag, o) else none
  | _ => none

/-- The call of a subscriber that a call out is. -/
def Upcall.informs? : Upcall → Option (String × Outcome)
  | .outcome _ tag o => some (tag, o)
  | _ => none

/-- What turns to the outcome of an operation subscribes, publishes, or calls a subscriber. -/
theorem Frame.heeds_cases {id : OperationId} {t : Task} (h : (Frame.todo t).heeds id = true) :
    (∃ tag, t = .subscribe id tag) ∨ (∃ o, t = .resolve id o) ∨
      ∃ tag o, t = .raise (.outcome id tag o) := by
  cases t with
  | subscribe i tag =>
    obtain rfl : i = id := of_decide_eq_true h
    exact Or.inl ⟨tag, rfl⟩
  | resolve i o =>
    obtain rfl : i = id := of_decide_eq_true h
    exact Or.inr (Or.inl ⟨o, rfl⟩)
  | raise u =>
    cases u with
    | outcome i tag o =>
      obtain rfl : i = id := of_decide_eq_true h
      exact Or.inr (Or.inr ⟨tag, o, rfl⟩)
    | _ => contradiction
  | _ => contradiction

/-- A subscriber that returns leaves nothing to do. -/
theorem Upcall.resume_of_heeds {id : OperationId} {u : Upcall} (h : (Frame.inside u).heeds id = true)
    (a : Answer) : u.resume a = [] := by
  cases u with
  | outcome i tag o => cases a <;> rfl
  | _ => contradiction

/-- The calls that a publication leads to. -/
def calls (id : OperationId) (o : Outcome) (tags : List String) : List Frame :=
  tags.map fun tag => .todo (.raise (.outcome id tag o))

theorem heeds_calls (id : OperationId) (o : Outcome) (tags : List String) :
    ∀ f ∈ calls id o tags, f.heeds id = true := by
  intro f hf
  obtain ⟨tag, -, rfl⟩ := List.mem_map.mp hf
  exact decide_eq_true rfl

theorem upcoming_calls (id : OperationId) (o : Outcome) (tags : List String) :
    (calls id o tags).filterMap (Frame.upcoming? id) = tags.map fun tag => (tag, o) := by
  rw [calls, List.filterMap_map, ← List.filterMap_eq_map]
  refine List.filterMap_congr fun tag _ => ?_
  exact if_pos rfl

/-- The client with another cell in a delivery. -/
def keep (c : Client) (id : OperationId) (d : Delivery) (cell : OutcomeCell) : Client :=
  { c with deliveries := c.deliveries.insert id { d with outcome := cell } }

theorem get?_keep (c : Client) (id : OperationId) (d : Delivery) (cell : OutcomeCell) :
    (c.keep id d cell).deliveries.get? id = some { d with outcome := cell } :=
  (Table.get?_insert ..).trans (if_pos rfl)

variable {c : Client} {id : OperationId} {d : Delivery}

/-- Who subscribes before the outcome is known waits in the cell. -/
theorem perform_subscribe_open (hd : c.deliveries.get? id = some d) (hopen : d.outcome.outcome = none)
    (tag : String) :
    c.perform (.subscribe id tag) = ⟨c.keep id d (d.outcome.subscribe tag).1, [], []⟩ := by
  simp [perform, subscribe, hd, keep, OutcomeCell.subscribe, hopen]

/-- Who subscribes later is called at once, and leaves no trace in the client. -/
theorem perform_subscribe_known (hd : c.deliveries.get? id = some d) {o : Outcome}
    (hknown : d.outcome.outcome = some o) (tag : String) :
    c.perform (.subscribe id tag) = ⟨c, calls id o [tag], []⟩ := by
  simp [perform, subscribe, hd, calls, OutcomeCell.subscribe, hknown, Table.insert_of_get?]

/-- The first outcome stays, and everyone who waited is to be called with it. -/
theorem perform_resolve_open (hd : c.deliveries.get? id = some d) (hopen : d.outcome.outcome = none)
    (o : Outcome) :
    c.perform (.resolve id o) =
      ⟨c.keep id d (d.outcome.resolve o).1, calls id o d.outcome.subscribers, []⟩ := by
  simp [perform, resolve, hd, keep, calls, OutcomeCell.resolve, hopen]

/-- Every later one changes nothing, and calls nobody. -/
theorem perform_resolve_known (hd : c.deliveries.get? id = some d) {o : Outcome}
    (hknown : d.outcome.outcome = some o) (later : Outcome) :
    c.perform (.resolve id later) = ⟨c, [], []⟩ := by
  simp [perform, resolve, hd, OutcomeCell.resolve, hknown, Table.insert_of_get?]

end Client

namespace Mark

variable (id : OperationId)

/-- The subscription to the outcome of an operation. -/
def subscribed : Mark → List String
  | moved (.subscribe i tag) _ => if i = id then [tag] else []
  | _ => []

/-- The attempt to publish the outcome of an operation. -/
def published : Mark → List Outcome
  | moved (.resolve i o) _ => if i = id then [o] else []
  | _ => []

/-- The call of a subscriber to the outcome of an operation. -/
def informed (mark : Mark) : List (String × Outcome) := (mark.begun id).filterMap Upcall.informs?

end Mark

namespace ClientThreads

/-- Who subscribed to the outcome of an operation, first to last. -/
def registered (s : ClientThreads) (id : OperationId) : List String := s.past.flatMap (Mark.subscribed id)

/-- What was to be published as the outcome of an operation, first to last. -/
def published (s : ClientThreads) (id : OperationId) : List Outcome := s.past.flatMap (Mark.published id)

/-- Who had subscribed when the outcome was published for the first time. -/
def early (s : ClientThreads) (id : OperationId) : List String :=
  (s.past.takeWhile fun mark => (mark.published id).isEmpty).flatMap (Mark.subscribed id)

/-- Which subscribers were called, and with what, first to last. -/
def informed (s : ClientThreads) (id : OperationId) : List (String × Outcome) :=
  s.past.flatMap (Mark.informed id)

/-- Which subscribers are about to be called, and with what. -/
def upcoming (s : ClientThreads) (id : OperationId) : List (String × Outcome) :=
  s.frames.filterMap (Frame.upcoming? id)

section

variable (s : ClientThreads) {id : OperationId} {c : Client} {threads : List (List Frame)} (mark : Mark)

theorem registered_snoc :
    registered ⟨c, threads, s.past ++ [mark]⟩ id = s.registered id ++ mark.subscribed id := by
  rw [registered, List.flatMap_append, List.flatMap_singleton, registered]

theorem published_snoc :
    published ⟨c, threads, s.past ++ [mark]⟩ id = s.published id ++ mark.published id := by
  rw [published, List.flatMap_append, List.flatMap_singleton, published]

theorem informed_snoc :
    informed ⟨c, threads, s.past ++ [mark]⟩ id = s.informed id ++ mark.informed id := by
  rw [informed, List.flatMap_append, List.flatMap_singleton, informed]

/-- As long as nothing was published everyone is early who subscribes. -/
theorem early_snoc_of_open (h : s.published id = []) :
    early ⟨c, threads, s.past ++ [mark]⟩ id = s.registered id ++ mark.subscribed id := by
  have hpast : s.past.takeWhile (fun mark => (mark.published id).isEmpty) = s.past := by
    refine List.takeWhile_eq_self_iff.mpr fun mark hmark => ?_
    exact List.isEmpty_iff.mpr (List.flatMap_eq_nil_iff.mp h mark hmark)
  rw [early, List.takeWhile_append, hpast, if_pos rfl, List.flatMap_append, List.takeWhile_cons]
  by_cases hmark : (mark.published id).isEmpty = true
  · rw [if_pos hmark, List.takeWhile_nil, List.flatMap_singleton, registered]
  · -- who publishes does not subscribe
    have hnone : mark.subscribed id = [] := by
      cases mark with
      | moved t shown => cases t <;> first | rfl | exact absurd rfl hmark
      | _ => rfl
    rw [if_neg hmark, hnone]
    rfl

/-- Once something was published nobody is early any more. -/
theorem early_snoc_of_known (h : s.published id ≠ []) :
    early ⟨c, threads, s.past ++ [mark]⟩ id = s.early id := by
  have hlength :
      (s.past.takeWhile fun mark => (mark.published id).isEmpty).length ≠ s.past.length := by
    intro hlength
    refine h (List.flatMap_eq_nil_iff.mpr fun mark hmark => ?_)
    have hself :=
      (List.takeWhile_prefix fun mark => (Mark.published id mark).isEmpty).eq_of_length hlength
    exact List.isEmpty_iff.mp (List.takeWhile_eq_self_iff.mp hself mark hmark)
  rw [early, early, List.takeWhile_append, if_neg hlength]

end

end ClientThreads

/-! ## Threads around an outcome cell -/

namespace OutcomeCellThreads

open Client (calls)

/-- What a schedule may pick. -/
inductive Choice where
  /-- A new thread appears. -/
  | join
  /-- A thread subscribes, through whichever copy of the handle. -/
  | subscribe (thread : Nat) (tag : String)
  /-- A thread tries to publish an outcome. -/
  | publish (thread : Nat) (o : Outcome)
  /-- A thread makes its next move. -/
  | move (thread : Nat)
  /-- A subscriber that a thread is calling returns. -/
  | answer (thread : Nat) (a : Answer)

/-- The outcome of an operation before anyone asked for it. It is open, or known from the start, as it
is where a handle stands for an operation that never got prepared. -/
def opened (c : Client) (id : OperationId) (listener : Listener) (sink : Sink)
    (mailbox : Mailbox Callback) (known : Option Outcome) : ClientThreads where
  client := { c with
    deliveries := c.deliveries.insert id ⟨listener, sink, mailbox, known.elim .vacant .resolved⟩ }
  threads := []
  past := (known.map fun o => Mark.moved (.resolve id o) []).toList

/-- A thread that is away turns to the cell. -/
def turn (s : ClientThreads) (n : Nat) (t : Task) : ClientThreads :=
  match s.threads[n]? with
  | some stack =>
    if isAway stack then { s with threads := s.threads.set n (.todo t :: stack) } else s
  | none => s

/-- What a choice leads to. A choice that the thread cannot follow changes nothing. -/
def act (id : OperationId) (s : ClientThreads) : Choice → ClientThreads
  | .join => s.act .join
  | .subscribe n tag => turn s n (.subscribe id tag)
  | .publish n o => turn s n (.resolve id o)
  | .move n => s.act (.move n)
  | .answer n a => s.act (.answer n a)

/-- A thread goes on with what it has to do, or a subscriber that it was calling returns. -/
inductive Advance : ClientThreads → ClientThreads → Prop
  | move {c : Client} {past : List Mark} {before after : List (List Frame)} {rest : List Frame}
      (t : Task) :
      Advance ⟨c, before ++ (.todo t :: rest) :: after, past⟩
        ⟨(c.perform t).client, before ++ ((c.perform t).frames ++ rest) :: after,
          past ++ c.marks t⟩
  | answer {c : Client} {past : List Mark} {before after : List (List Frame)} {rest : List Frame}
      (u : Upcall) (a : Answer) :
      Advance ⟨c, before ++ (.inside u :: rest) :: after, past⟩
        ⟨c, before ++ (u.resume a ++ rest) :: after, past ++ [.answered u a]⟩

/-- One thing that can happen around an outcome cell. -/
inductive Step (id : OperationId) : ClientThreads → ClientThreads → Prop
  | join {s : ClientThreads} : Step id s (s.act .join)
  | turn {c : Client} {past : List Mark} {before after : List (List Frame)} {stack : List Frame}
      {t : Task} (ht : (Frame.todo t).heeds id = true)
      (hnew : (Frame.todo t).upcoming? id = none) :
      Step id ⟨c, before ++ stack :: after, past⟩ ⟨c, before ++ (.todo t :: stack) :: after, past⟩
  | advance {s s' : ClientThreads} (h : Advance s s') : Step id s s'

theorem turn_step {id : OperationId} (s : ClientThreads) (n : Nat) {t : Task}
    (ht : (Frame.todo t).heeds id = true) (hnew : (Frame.todo t).upcoming? id = none) :
    turn s n t = s ∨ Step id s (turn s n t) := by
  obtain ⟨c, threads, past⟩ := s
  cases hn : threads[n]? with
  | none => exact Or.inl (by simp only [turn, hn])
  | some stack =>
    by_cases haway : isAway stack = true
    · obtain ⟨before, after, -, rfl, hset⟩ := around hn
      refine Or.inr ?_
      simp only [turn, hn, if_pos haway, hset]
      exact .turn ht hnew
    · exact Or.inl (by simp only [turn, hn, if_neg haway])

theorem advance_of_move {c : Client} {threads : List (List Frame)} {past : List Mark} {n : Nat}
    {t : Task} {rest : List Frame} (hn : threads[n]? = some (.todo t :: rest)) :
    Advance ⟨c, threads, past⟩ (ClientThreads.act ⟨c, threads, past⟩ (.move n)) := by
  obtain ⟨before, after, -, rfl, hset⟩ := around hn
  simp only [ClientThreads.act, hn, hset]
  exact .move t

theorem advance_of_answer {c : Client} {threads : List (List Frame)} {past : List Mark} {n : Nat}
    {u : Upcall} {rest : List Frame} (hn : threads[n]? = some (.inside u :: rest)) (a : Answer) :
    Advance ⟨c, threads, past⟩ (ClientThreads.act ⟨c, threads, past⟩ (.answer n a)) := by
  obtain ⟨before, after, -, rfl, hset⟩ := around hn
  simp only [ClientThreads.act, hn, hset]
  exact .answer u a

/-- **A choice is a step**, unless it changes nothing. -/
theorem act_step (id : OperationId) (s : ClientThreads) (choice : Choice) :
    act id s choice = s ∨ Step id s (act id s choice) := by
  cases choice with
  | join => exact Or.inr .join
  | subscribe n tag => exact turn_step s n (decide_eq_true rfl) rfl
  | publish n o => exact turn_step s n (decide_eq_true rfl) rfl
  | move n =>
    obtain ⟨c, threads, past⟩ := s
    rcases hn : threads[n]? with _ | _ | ⟨t | u, rest⟩
    · exact Or.inl (by simp only [act, ClientThreads.act, hn])
    · exact Or.inl (by simp only [act, ClientThreads.act, hn])
    · exact Or.inr (.advance (advance_of_move hn))
    · exact Or.inl (by simp only [act, ClientThreads.act, hn])
  | answer n a =>
    obtain ⟨c, threads, past⟩ := s
    rcases hn : threads[n]? with _ | _ | ⟨t | u, rest⟩
    · exact Or.inl (by simp only [act, ClientThreads.act, hn])
    · exact Or.inl (by simp only [act, ClientThreads.act, hn])
    · exact Or.inl (by simp only [act, ClientThreads.act, hn])
    · exact Or.inr (.advance (advance_of_answer hn a))

/-! ### Standing in line -/

/-- The tags of the calls that a stack is about to make, from the top. -/
def line (id : OperationId) (stack : List Frame) : List String :=
  (stack.filterMap (Frame.upcoming? id)).map Prod.fst

/-- Those who were early have been called one after the other, up to some point, and the others of them
stand in line on one stack. -/
def InLine (id : OperationId) (threads : List (List Frame)) (early called : List String) : Prop :=
  ∃ ran owed stack, early = ran ++ owed ∧ ran.Sublist called ∧ owed.Sublist (line id stack) ∧
    (stack = [] ∨ stack ∈ threads)

section

variable {id : OperationId} {before after : List (List Frame)} {stack stack' : List Frame}
  {early called : List String}

theorem mem_around {other : List Frame} (h : other ∈ before ++ stack :: after) :
    other = stack ∨ ∀ stack', other ∈ before ++ stack' :: after := by
  simp only [List.mem_append, List.mem_cons] at h ⊢
  rcases h with hbefore | rfl | hafter
  · exact Or.inr fun _ => Or.inl hbefore
  · exact Or.inl rfl
  · exact Or.inr fun _ => Or.inr (Or.inr hafter)

theorem mem_middle : stack' ∈ before ++ stack' :: after :=
  List.mem_append_right before List.mem_cons_self

/-- A stack may grow, as long as those who stand in line stay in line. -/
theorem InLine.put (h : InLine id (before ++ stack :: after) early called)
    (hline : (line id stack).Sublist (line id stack')) :
    InLine id (before ++ stack' :: after) early called := by
  obtain ⟨ran, owed, other, rfl, hran, howed, hplace⟩ := h
  rcases hplace with hnowhere | hmem
  · exact ⟨ran, owed, other, rfl, hran, howed, Or.inl hnowhere⟩
  · rcases mem_around hmem with rfl | helsewhere
    · exact ⟨ran, owed, stack', rfl, hran, howed.trans hline, Or.inr mem_middle⟩
    · exact ⟨ran, owed, other, rfl, hran, howed, Or.inr (helsewhere stack')⟩

/-- Whoever is called either was the next in line, or did not stand in it. -/
theorem InLine.call {tag : String} (h : InLine id (before ++ stack :: after) early called)
    (hline : line id stack = tag :: line id stack') :
    InLine id (before ++ stack' :: after) early (called ++ [tag]) := by
  obtain ⟨ran, owed, other, rfl, hran, howed, hplace⟩ := h
  have hlonger : ran.Sublist (called ++ [tag]) := hran.trans (List.sublist_append_left called [tag])
  rcases hplace with hnowhere | hmem
  · exact ⟨ran, owed, other, rfl, hlonger, howed, Or.inl hnowhere⟩
  rcases mem_around hmem with rfl | helsewhere
  · rw [hline] at howed
    rcases List.sublist_cons_iff.mp howed with hother | ⟨owed, rfl, hrest⟩
    · exact ⟨ran, owed, stack', rfl, hlonger, hother, Or.inr mem_middle⟩
    · refine ⟨ran ++ [tag], owed, stack', ?_, hran.append (List.Sublist.refl [tag]), hrest,
        Or.inr mem_middle⟩
      rw [List.append_assoc, List.singleton_append]
  · exact ⟨ran, owed, other, rfl, hlonger, howed, Or.inr (helsewhere stack')⟩

end

/-! ### What is kept -/

/-- Nothing is published: nobody is called, and the cell has everyone who subscribed. -/
structure Awaited (id : OperationId) (cell : OutcomeCell) (threads : List (List Frame))
    (registered : List String) (published : List Outcome) (informed : List (String × Outcome)) :
    Prop where
  outcome : cell.outcome = none
  waiting : cell.subscribers = registered
  published : published = []
  informed : informed = []
  upcoming : threads.flatten.filterMap (Frame.upcoming? id) = []

/-- An outcome is published: everyone who subscribed has been called with it, or is about to be. -/
structure Known (id : OperationId) (o : Outcome) (cell : OutcomeCell) (threads : List (List Frame))
    (registered early : List String) (published : List Outcome)
    (informed : List (String × Outcome)) : Prop where
  outcome : cell.outcome = some o
  published : published.head? = some o
  value : ∀ call ∈ informed ++ threads.flatten.filterMap (Frame.upcoming? id), call.2 = o
  once : ((informed ++ threads.flatten.filterMap (Frame.upcoming? id)).map Prod.fst).Perm registered
  inLine : InLine id threads early (informed.map Prod.fst)

section

variable {id : OperationId} {cell : OutcomeCell} {before after : List (List Frame)}
  {stack stack' : List Frame} {registered early : List String} {published : List Outcome}
  {informed : List (String × Outcome)}

theorem upcoming_around (id : OperationId) (before after : List (List Frame)) (stack : List Frame) :
    (before ++ stack :: after).flatten.filterMap (Frame.upcoming? id) =
      before.flatten.filterMap (Frame.upcoming? id) ++ (stack.filterMap (Frame.upcoming? id) ++
        after.flatten.filterMap (Frame.upcoming? id)) := by
  rw [List.flatten_append, List.flatten_cons, List.filterMap_append, List.filterMap_append]

/-- Frames that call nobody come and go. -/
theorem Awaited.quiet (h : Awaited id cell (before ++ stack :: after) registered published informed)
    (hstack : stack'.filterMap (Frame.upcoming? id) = stack.filterMap (Frame.upcoming? id)) :
    Awaited id cell (before ++ stack' :: after) registered published informed := by
  obtain ⟨outcome, waiting, hpublished, hinformed, upcoming⟩ := h
  refine ⟨outcome, waiting, hpublished, hinformed, ?_⟩
  rw [upcoming_around, hstack, ← upcoming_around]
  exact upcoming

/-- Whoever subscribes now is behind those who wait. -/
theorem Awaited.subscribe {threads : List (List Frame)}
    (h : Awaited id cell threads registered published informed) (tag : String) :
    Awaited id (cell.subscribe tag).1 threads (registered ++ [tag]) published informed := by
  obtain ⟨outcome, waiting, hpublished, hinformed, upcoming⟩ := h
  have hcell : (cell.subscribe tag).1 = { cell with subscribers := cell.subscribers ++ [tag] } := by
    rw [OutcomeCell.subscribe, outcome]
  rw [hcell]
  exact ⟨outcome, congrArg (· ++ [tag]) waiting, hpublished, hinformed, upcoming⟩

/-- The first outcome calls everyone who waits, in the order in which they came. -/
theorem Awaited.publish
    (h : Awaited id cell (before ++ stack :: after) registered published informed) (o : Outcome) :
    Known id o (cell.resolve o).1 (before ++ (calls id o cell.subscribers ++ stack) :: after)
      registered registered (published ++ [o]) informed := by
  obtain ⟨outcome, waiting, rfl, rfl, upcoming⟩ := h
  rw [upcoming_around, List.append_eq_nil_iff, List.append_eq_nil_iff] at upcoming
  obtain ⟨hbefore, hstack, hafter⟩ := upcoming
  have hcell : (cell.resolve o).1.outcome = some o := by rw [OutcomeCell.resolve, outcome]
  have hcalls : (calls id o cell.subscribers ++ stack).filterMap (Frame.upcoming? id) =
      cell.subscribers.map fun tag => (tag, o) := by
    rw [List.filterMap_append, Client.upcoming_calls, hstack, List.append_nil]
  have htags : (cell.subscribers.map fun tag => (tag, o)).map Prod.fst = registered := by
    rw [List.map_map, ← waiting]
    exact List.map_id cell.subscribers
  refine ⟨hcell, rfl, ?_, ?_, [], registered, calls id o cell.subscribers ++ stack, rfl,
    List.nil_sublist _, ?_, Or.inr mem_middle⟩
  · rw [upcoming_around, hbefore, hafter, hcalls]
    simp
  · rw [upcoming_around, hbefore, hafter, hcalls, List.append_nil, List.nil_append, List.nil_append,
      htags]
  · rw [line, hcalls, htags]

variable {o : Outcome}

/-- Frames that call nobody come and go. -/
theorem Known.quiet
    (h : Known id o cell (before ++ stack :: after) registered early published informed)
    (hstack : stack'.filterMap (Frame.upcoming? id) = stack.filterMap (Frame.upcoming? id)) :
    Known id o cell (before ++ stack' :: after) registered early published informed := by
  obtain ⟨outcome, hpublished, value, once, inLine⟩ := h
  rw [upcoming_around, ← hstack, ← upcoming_around] at value once
  refine ⟨outcome, hpublished, value, once, inLine.put ?_⟩
  rw [line, line, hstack]

/-- Whoever publishes now is too late. -/
theorem Known.publish {threads : List (List Frame)}
    (h : Known id o cell threads registered early published informed) (later : Outcome) :
    Known id o cell threads registered early (published ++ [later]) informed := by
  obtain ⟨outcome, hpublished, value, once, inLine⟩ := h
  refine ⟨outcome, ?_, value, once, inLine⟩
  rw [List.head?_append, hpublished, Option.some_or]

/-- Whoever subscribes now is called at once. -/
theorem Known.subscribe
    (h : Known id o cell (before ++ stack :: after) registered early published informed)
    (tag : String) :
    Known id o cell (before ++ (calls id o [tag] ++ stack) :: after) (registered ++ [tag]) early
      published informed := by
  obtain ⟨outcome, hpublished, value, once, inLine⟩ := h
  have hcalls : (calls id o [tag] ++ stack).filterMap (Frame.upcoming? id) =
      (tag, o) :: stack.filterMap (Frame.upcoming? id) := by
    rw [List.filterMap_append, Client.upcoming_calls]
    rfl
  rw [upcoming_around] at value once
  -- the new call comes last in one list, and somewhere among the others in the other
  have hmiddle : (informed ++ (before.flatten.filterMap (Frame.upcoming? id) ++
      ((tag, o) :: stack.filterMap (Frame.upcoming? id) ++
        after.flatten.filterMap (Frame.upcoming? id)))).Perm
      ((tag, o) :: (informed ++ (before.flatten.filterMap (Frame.upcoming? id) ++
        (stack.filterMap (Frame.upcoming? id) ++ after.flatten.filterMap (Frame.upcoming? id))))) := by
    rw [← List.append_assoc, ← List.append_assoc informed, List.cons_append]
    exact List.perm_middle
  refine ⟨outcome, hpublished, ?_, ?_, inLine.put ?_⟩
  · rw [upcoming_around, hcalls]
    intro call hmem
    rcases List.mem_cons.mp (hmiddle.mem_iff.mp hmem) with rfl | hold
    · rfl
    · exact value call hold
  · rw [upcoming_around, hcalls]
    exact ((hmiddle.map Prod.fst).trans (once.cons tag)).trans (List.perm_append_singleton tag _).symm
  · rw [line, line, hcalls]
    exact List.sublist_cons_self tag _

/-- A subscriber that is called has been called from then on. -/
theorem Known.call {tag : String} {later : Outcome}
    (h : Known id o cell (before ++ stack :: after) registered early published informed)
    (hstack : stack.filterMap (Frame.upcoming? id) =
      (tag, later) :: stack'.filterMap (Frame.upcoming? id)) :
    Known id o cell (before ++ stack' :: after) registered early published
      (informed ++ [(tag, later)]) := by
  obtain ⟨outcome, hpublished, value, once, inLine⟩ := h
  rw [upcoming_around, hstack] at value once
  -- the call leaves its place among those to come, for the end of those that began
  have hmoved : (informed ++ [(tag, later)] ++ (before.flatten.filterMap (Frame.upcoming? id) ++
      (stack'.filterMap (Frame.upcoming? id) ++ after.flatten.filterMap (Frame.upcoming? id)))).Perm
      (informed ++ (before.flatten.filterMap (Frame.upcoming? id) ++
        ((tag, later) :: stack'.filterMap (Frame.upcoming? id) ++
          after.flatten.filterMap (Frame.upcoming? id)))) := by
    rw [List.append_assoc, List.singleton_append, List.cons_append]
    exact List.perm_middle.symm.append_left informed
  refine ⟨outcome, hpublished, ?_, ?_, ?_⟩
  · rw [upcoming_around]
    exact fun call hmem => value call (hmoved.mem_iff.mp hmem)
  · rw [upcoming_around]
    exact (hmoved.map Prod.fst).trans once
  · rw [List.map_append]
    refine inLine.call ?_
    rw [line, hstack]
    rfl

end

/-- The books on the outcome of an operation. -/
inductive Tally (id : OperationId) (cell : OutcomeCell) (s : ClientThreads) : Prop
  | awaited (h : Awaited id cell s.threads (s.registered id) (s.published id) (s.informed id))
  | known (o : Outcome)
      (h : Known id o cell s.threads (s.registered id) (s.early id) (s.published id) (s.informed id))

/-- What a mark adds to the books on the outcome of an operation. -/
structure Adds (id : OperationId) (mark : Mark) (tags : List String) (outcomes : List Outcome)
    (called : List (String × Outcome)) : Prop where
  subscribed : mark.subscribed id = tags
  published : mark.published id = outcomes
  informed : mark.informed id = called

namespace Tally

variable {id : OperationId} {cell : OutcomeCell} (s : ClientThreads) {c : Client}
  {threads : List (List Frame)} {mark : Mark} {tags : List String} {outcomes : List Outcome}
  {called : List (String × Outcome)}

theorem of_awaited (hmark : Adds id mark tags outcomes called)
    (h : Awaited id cell threads (s.registered id ++ tags) (s.published id ++ outcomes)
      (s.informed id ++ called)) :
    Tally id cell ⟨c, threads, s.past ++ [mark]⟩ := by
  refine .awaited ?_
  rw [s.registered_snoc, s.published_snoc, s.informed_snoc, hmark.subscribed, hmark.published,
    hmark.informed]
  exact h

theorem of_known {o : Outcome} (hmark : Adds id mark tags outcomes called)
    (hpast : (s.published id).head? = some o)
    (h : Known id o cell threads (s.registered id ++ tags) (s.early id) (s.published id ++ outcomes)
      (s.informed id ++ called)) :
    Tally id cell ⟨c, threads, s.past ++ [mark]⟩ := by
  have hne : s.published id ≠ [] := fun hnil => by
    rw [hnil] at hpast
    contradiction
  refine .known o ?_
  rw [s.registered_snoc, s.early_snoc_of_known mark hne, s.published_snoc, s.informed_snoc,
    hmark.subscribed, hmark.published, hmark.informed]
  exact h

/-- Everyone who has subscribed when the first outcome is published was early. -/
theorem of_published {o : Outcome} (hmark : Adds id mark [] outcomes []) (hpast : s.published id = [])
    (h : Known id o cell threads (s.registered id) (s.registered id) (s.published id ++ outcomes)
      (s.informed id)) :
    Tally id cell ⟨c, threads, s.past ++ [mark]⟩ := by
  refine .known o ?_
  rw [s.early_snoc_of_open mark hpast, s.registered_snoc, s.published_snoc, s.informed_snoc,
    hmark.subscribed, hmark.published, hmark.informed, List.append_nil, List.append_nil]
  exact h

variable {s}

/-- A thread that appears has nothing to do with the outcome. -/
theorem join (h : Tally id cell s) : Tally id cell (s.act .join) := by
  have hflatten : (s.act .join).threads.flatten = s.threads.flatten := by simp [ClientThreads.act]
  cases h with
  | awaited h => exact .awaited { h with upcoming := by rw [hflatten]; exact h.upcoming }
  | known o h =>
    obtain ⟨outcome, hpublished, value, once, ran, owed, stack, hearly, hran, howed, hplace⟩ := h
    refine .known o ⟨outcome, hpublished, ?_, ?_, ran, owed, stack, hearly, hran, howed,
      hplace.imp_right (List.mem_append_left [[]])⟩
    · rw [hflatten]
      exact value
    · rw [hflatten]
      exact once

end Tally

/-- The delivery of an operation, its subscribers and its publishers, in agreement. -/
structure Kept (id : OperationId) (d : Delivery) (s : ClientThreads) : Prop where
  found : s.client.deliveries.get? id = some d
  heeding : ∀ f ∈ s.frames, f.heeds id = true
  tally : Tally id d.outcome s

theorem kept_opened (c : Client) (id : OperationId) (listener : Listener) (sink : Sink)
    (mailbox : Mailbox Callback) (known : Option Outcome) :
    ∃ d, Kept id d (opened c id listener sink mailbox known) := by
  refine ⟨⟨listener, sink, mailbox, known.elim .vacant .resolved⟩, ?_, fun f hf => by contradiction, ?_⟩
  · rw [opened, Table.get?_insert, if_pos rfl]
  · cases known with
    | none => exact .awaited ⟨rfl, rfl, rfl, rfl, rfl⟩
    | some o =>
      refine .known o ⟨rfl, ?_, fun call h => by contradiction, List.Perm.refl [],
        [], [], [], ?_, List.Sublist.slnil, List.Sublist.slnil, Or.inl rfl⟩
      · simp [ClientThreads.published, opened, Mark.published]
      · simp [ClientThreads.early, opened, Mark.published]

namespace Kept

variable {id : OperationId} {d : Delivery} {c : Client} {past : List Mark}
  {before after : List (List Frame)} {rest : List Frame}

/-- Whoever turns to the cell has not changed it yet. -/
theorem turn {t : Task} (h : Kept id d ⟨c, before ++ rest :: after, past⟩)
    (ht : (Frame.todo t).heeds id = true) (hnew : (Frame.todo t).upcoming? id = none) :
    Kept id d ⟨c, before ++ (.todo t :: rest) :: after, past⟩ := by
  obtain ⟨found, heeding, tally⟩ := h
  refine ⟨found, ?_, ?_⟩
  · exact ClientThreads.forall_frames_put heeding fun hrest => List.forall_mem_cons.mpr ⟨ht, hrest⟩
  · cases tally with
    | awaited h => exact .awaited (h.quiet (List.filterMap_cons_none hnew))
    | known o h => exact .known o (h.quiet (List.filterMap_cons_none hnew))

/-- A subscriber that returns changes nothing. -/
theorem answer {u : Upcall} (h : Kept id d ⟨c, before ++ (.inside u :: rest) :: after, past⟩)
    (a : Answer) :
    Kept id d ⟨c, before ++ (u.resume a ++ rest) :: after, past ++ [.answered u a]⟩ := by
  obtain ⟨found, heeding, tally⟩ := h
  have hu : (Frame.inside u).heeds id = true := heeding _ (by simp [ClientThreads.frames])
  have hmark : Adds id (.answered u a) [] [] [] := ⟨rfl, rfl, rfl⟩
  rw [Upcall.resume_of_heeds hu a]
  refine ⟨found, ?_, ?_⟩
  · exact ClientThreads.forall_frames_put heeding fun hstack => (List.forall_mem_cons.mp hstack).2
  · cases tally with
    | awaited h =>
      refine Tally.of_awaited ⟨c, before ++ (.inside u :: rest) :: after, past⟩ hmark ?_
      have hrest : Awaited id d.outcome (before ++ rest :: after) _ _ _ := h.quiet rfl
      simpa only [List.append_nil, List.nil_append] using hrest
    | known o h =>
      refine Tally.of_known ⟨c, before ++ (.inside u :: rest) :: after, past⟩ hmark h.published ?_
      have hrest : Known id o d.outcome (before ++ rest :: after) _ _ _ _ := h.quiet rfl
      simpa only [List.append_nil, List.nil_append] using hrest

/-- A thread subscribes. -/
theorem subscribe {tag : String}
    (h : Kept id d ⟨c, before ++ (.todo (.subscribe id tag) :: rest) :: after, past⟩) :
    ∃ d', Kept id d' ⟨(c.perform (.subscribe id tag)).client,
      before ++ ((c.perform (.subscribe id tag)).frames ++ rest) :: after,
      past ++ c.marks (.subscribe id tag)⟩ := by
  obtain ⟨found, heeding, tally⟩ := h
  have hmark : Adds id (.moved (.subscribe id tag) []) [tag] [] [] := ⟨if_pos rfl, rfl, rfl⟩
  cases tally with
  | awaited h =>
    rw [Client.marks, Client.perform_subscribe_open found h.outcome tag]
    refine ⟨{ d with outcome := (d.outcome.subscribe tag).1 }, c.get?_keep id d _, ?_, ?_⟩
    · exact ClientThreads.forall_frames_put heeding fun hstack => (List.forall_mem_cons.mp hstack).2
    · refine Tally.of_awaited ⟨c, before ++ (.todo (.subscribe id tag) :: rest) :: after, past⟩
        hmark ?_
      have hrest : Awaited id d.outcome (before ++ rest :: after) _ _ _ := h.quiet rfl
      simpa only [List.append_nil, List.nil_append] using hrest.subscribe tag
  | known o h =>
    rw [Client.marks, Client.perform_subscribe_known found h.outcome tag]
    refine ⟨d, found, ?_, ?_⟩
    · exact ClientThreads.forall_frames_put heeding fun hstack =>
        List.forall_mem_append.mpr ⟨Client.heeds_calls id o [tag], (List.forall_mem_cons.mp hstack).2⟩
    · refine Tally.of_known ⟨c, before ++ (.todo (.subscribe id tag) :: rest) :: after, past⟩ hmark
        h.published ?_
      have hrest : Known id o d.outcome (before ++ rest :: after) _ _ _ _ := h.quiet rfl
      simpa only [List.append_nil, List.nil_append] using hrest.subscribe tag

/-- A thread publishes an outcome, or tries to. -/
theorem publish {o : Outcome}
    (h : Kept id d ⟨c, before ++ (.todo (.resolve id o) :: rest) :: after, past⟩) :
    ∃ d', Kept id d' ⟨(c.perform (.resolve id o)).client,
      before ++ ((c.perform (.resolve id o)).frames ++ rest) :: after,
      past ++ c.marks (.resolve id o)⟩ := by
  obtain ⟨found, heeding, tally⟩ := h
  have hmark : Adds id (.moved (.resolve id o) []) [] [o] [] := ⟨rfl, if_pos rfl, rfl⟩
  cases tally with
  | awaited h =>
    rw [Client.marks, Client.perform_resolve_open found h.outcome o]
    refine ⟨{ d with outcome := (d.outcome.resolve o).1 }, c.get?_keep id d _, ?_, ?_⟩
    · exact ClientThreads.forall_frames_put heeding fun hstack => List.forall_mem_append.mpr
        ⟨Client.heeds_calls id o d.outcome.subscribers, (List.forall_mem_cons.mp hstack).2⟩
    · have hrest : Awaited id d.outcome (before ++ rest :: after) _ _ _ := h.quiet rfl
      exact Tally.of_published ⟨c, before ++ (.todo (.resolve id o) :: rest) :: after, past⟩ hmark
        h.published (hrest.publish o)
  | known first h =>
    rw [Client.marks, Client.perform_resolve_known found h.outcome o]
    refine ⟨d, found, ?_, ?_⟩
    · exact ClientThreads.forall_frames_put heeding fun hstack => (List.forall_mem_cons.mp hstack).2
    · refine Tally.of_known ⟨c, before ++ (.todo (.resolve id o) :: rest) :: after, past⟩ hmark
        h.published ?_
      have hrest : Known id first d.outcome (before ++ rest :: after) _ _ _ _ := h.quiet rfl
      simpa only [List.append_nil, List.nil_append] using hrest.publish o

/-- A thread calls a subscriber. -/
theorem call {tag : String} {o : Outcome}
    (h : Kept id d ⟨c, before ++ (.todo (.raise (.outcome id tag o)) :: rest) :: after, past⟩) :
    Kept id d ⟨c, before ++ (.inside (.outcome id tag o) :: rest) :: after,
      past ++ c.marks (.raise (.outcome id tag o))⟩ := by
  obtain ⟨found, heeding, tally⟩ := h
  have hstack : (Frame.todo (.raise (.outcome id tag o)) :: rest).filterMap (Frame.upcoming? id) =
      (tag, o) :: rest.filterMap (Frame.upcoming? id) :=
    List.filterMap_cons_some (if_pos rfl)
  refine ⟨found, ?_, ?_⟩
  · exact ClientThreads.forall_frames_put heeding fun hstack => List.forall_mem_cons.mpr
      ⟨decide_eq_true rfl, (List.forall_mem_cons.mp hstack).2⟩
  · cases tally with
    | awaited h =>
      -- nobody is about to be called before an outcome is published
      have hupcoming := h.upcoming
      rw [upcoming_around, hstack] at hupcoming
      exact absurd hupcoming (by simp)
    | known first h =>
      have hmark : Adds id (.moved (.raise (.outcome id tag o)) [.began (.outcome id tag o)]) [] []
          [(tag, o)] := ⟨rfl, rfl, by simp [Mark.informed, Mark.begun, Client.Event.begunAbout,
            Upcall.about, Upcall.informs?]⟩
      refine Tally.of_known
        ⟨c, before ++ (.todo (.raise (.outcome id tag o)) :: rest) :: after, past⟩ hmark
        h.published ?_
      have hcalled : Known id first d.outcome
          (before ++ (.inside (.outcome id tag o) :: rest) :: after) _ _ _ _ := h.call hstack
      simpa only [List.append_nil] using hcalled

end Kept

theorem Advance.kept {id : OperationId} {s s' : ClientThreads} (advance : Advance s s')
    (h : ∃ d, Kept id d s) : ∃ d, Kept id d s' := by
  obtain ⟨d, h⟩ := h
  cases advance with
  | @move c past before after rest t =>
    have ht : (Frame.todo t).heeds id = true := h.heeding _ (by simp [ClientThreads.frames])
    rcases Frame.heeds_cases ht with ⟨tag, rfl⟩ | ⟨o, rfl⟩ | ⟨tag, o, rfl⟩
    · exact h.subscribe
    · exact h.publish
    · exact ⟨d, h.call⟩
  | answer u a => exact ⟨d, h.answer a⟩

/-- **Whatever happens, the books on the outcome balance.** -/
theorem Step.kept {id : OperationId} {s s' : ClientThreads} (step : Step id s s') (h : ∃ d, Kept id d s) :
    ∃ d, Kept id d s' := by
  cases step with
  | join =>
    obtain ⟨d, found, heeding, tally⟩ := h
    have hframes : (s.act .join).frames = s.frames := by simp [ClientThreads.act, ClientThreads.frames]
    refine ⟨d, found, ?_, tally.join⟩
    rw [hframes]
    exact heeding
  | turn ht hnew =>
    obtain ⟨d, h⟩ := h
    exact ⟨d, h.turn ht hnew⟩
  | advance advance => exact advance.kept h

/-! ### Winding down -/

/-- How much a frame leaves to do, itself included. -/
def heft : Frame → Nat
  | .todo (.subscribe ..) => 3
  | .todo (.raise _) => 2
  | _ => 1

/-- How much there is to do. -/
def load (id : OperationId) (s : ClientThreads) : Nat :=
  (s.frames.map heft).sum + 2 * (s.client.cell id).subscribers.length

theorem load_around {c : Client} {id : OperationId} {d : Delivery}
    (found : c.deliveries.get? id = some d) (past : List Mark) (before after : List (List Frame))
    (stack : List Frame) :
    load id ⟨c, before ++ stack :: after, past⟩ =
      (before.flatten.map heft).sum + (stack.map heft).sum + (after.flatten.map heft).sum +
        2 * d.outcome.subscribers.length := by
  have hcell : c.cell id = d.outcome := by
    rw [Client.cell, found]
    rfl
  simp only [load, ClientThreads.frames, hcell, List.flatten_append, List.flatten_cons, List.map_append,
    List.sum_append, Nat.add_assoc]

/-- What takes the place of a stack, with those who wait in the cell, is what counts. -/
theorem load_lt_of {c c' : Client} {id : OperationId} {d d' : Delivery} {past past' : List Mark}
    {before after : List (List Frame)} {stack stack' : List Frame}
    (found : c.deliveries.get? id = some d) (found' : c'.deliveries.get? id = some d')
    (h : (stack'.map heft).sum + 2 * d'.outcome.subscribers.length <
      (stack.map heft).sum + 2 * d.outcome.subscribers.length) :
    load id ⟨c', before ++ stack' :: after, past'⟩ < load id ⟨c, before ++ stack :: after, past⟩ := by
  rw [load_around found, load_around found']
  omega

theorem heft_calls (id : OperationId) (o : Outcome) (tags : List String) :
    ((calls id o tags).map heft).sum = 2 * tags.length := by
  induction tags with
  | nil => rfl
  | cons tag tags ih =>
    show 2 + ((calls id o tags).map heft).sum = 2 * (tags.length + 1)
    rw [ih]
    omega

/-- **Every move and every return leaves less to do.** -/
theorem Advance.load_lt {id : OperationId} {d : Delivery} {s s' : ClientThreads} (h : Kept id d s)
    (advance : Advance s s') : load id s' < load id s := by
  cases advance with
  | @move c past before after rest t =>
    have ht : (Frame.todo t).heeds id = true := h.heeding _ (by simp [ClientThreads.frames])
    -- the tasks of a cell are a registration, a publication and a call out
    rcases Frame.heeds_cases ht with ⟨tag, rfl⟩ | ⟨o, rfl⟩ | ⟨tag, o, rfl⟩
    · cases hknown : d.outcome.outcome with
      | none =>
        rw [Client.perform_subscribe_open h.found hknown tag]
        refine load_lt_of h.found (c.get?_keep id d _) ?_
        simp [heft, OutcomeCell.subscribe, hknown]
        omega
      | some o =>
        rw [Client.perform_subscribe_known h.found hknown tag]
        refine load_lt_of h.found h.found ?_
        rw [List.map_append, List.sum_append, heft_calls]
        simp [heft]
    · cases hknown : d.outcome.outcome with
      | none =>
        rw [Client.perform_resolve_open h.found hknown o]
        refine load_lt_of h.found (c.get?_keep id d _) ?_
        rw [List.map_append, List.sum_append, heft_calls]
        simp [heft, OutcomeCell.resolve, hknown]
        omega
      | some first =>
        rw [Client.perform_resolve_known h.found hknown o]
        refine load_lt_of h.found h.found ?_
        simp [heft]
    · refine load_lt_of h.found h.found ?_
      simp [heft, Client.perform]
  | @answer c past before after rest u a =>
    have hu : (Frame.inside u).heeds id = true := h.heeding _ (by simp [ClientThreads.frames])
    rw [Upcall.resume_of_heeds hu a]
    refine load_lt_of h.found h.found ?_
    simp [heft]

/-- Whether a choice only goes on with what is under way. -/
def Choice.isQuiet : Choice → Bool
  | .move _ | .answer .. => true
  | _ => false

/-- As long as there is something to do, something can be done. -/
theorem advances (id : OperationId) {s : ClientThreads} (hs : s.frames ≠ []) :
    ∃ choice : Choice, choice.isQuiet = true ∧ Advance s (act id s choice) := by
  obtain ⟨c, threads, past⟩ := s
  obtain ⟨f, hf⟩ := List.exists_mem_of_ne_nil _ hs
  obtain ⟨stack, hstack, hmem⟩ := List.mem_flatten.mp hf
  obtain ⟨n, hn⟩ := List.mem_iff_getElem?.mp hstack
  rcases stack with _ | ⟨t | u, rest⟩
  · contradiction
  · exact ⟨.move n, rfl, advance_of_move hn⟩
  · exact ⟨.answer n .returned, rfl, advance_of_answer hn .returned⟩

/-- If the threads go on and the subscribers return, everything comes to an end. -/
theorem winds_down {id : OperationId} {s : ClientThreads} (h : ∃ d, Kept id d s) :
    ∃ rest : List Choice, (∀ choice ∈ rest, choice.isQuiet = true) ∧
      (rest.foldl (act id) s).frames = [] := by
  induction hload : load id s using Nat.strong_induction_on generalizing s with
  | _ n ih =>
    by_cases hs : s.frames = []
    · exact ⟨[], fun _ h => by contradiction, hs⟩
    · obtain ⟨choice, hquiet, advance⟩ := advances id hs
      obtain ⟨d, hkept⟩ := h
      have hless := advance.load_lt hkept
      rw [hload] at hless
      obtain ⟨rest, hrest, hend⟩ := ih _ hless (advance.kept ⟨d, hkept⟩) rfl
      refine ⟨choice :: rest, fun other hother => ?_, hend⟩
      rcases List.mem_cons.mp hother with rfl | hother
      · exact hquiet
      · exact hrest other hother

/-! ### Every schedule -/

/-- What the subscribers to an outcome may rely on. -/
structure Served (id : OperationId) (s : ClientThreads) : Prop where
  /-- The outcome is the one that was published first. -/
  first : (s.client.cell id).outcome = (s.published id).head?
  /-- Nobody is called before an outcome is published, and the cell has everyone who subscribed. -/
  silent : s.published id = [] →
    s.informed id = [] ∧ s.upcoming id = [] ∧ (s.client.cell id).subscribers = s.registered id
  /-- Whoever is called is called with the outcome that was published first. -/
  value : ∀ call ∈ s.informed id, (s.published id).head? = some call.2
  /-- From then on everyone who subscribed has been called or is about to be, once for each time. -/
  once : s.published id ≠ [] →
    ((s.informed id ++ s.upcoming id).map Prod.fst).Perm (s.registered id)
  /-- Of those who subscribed before, the first ones have been called in the order in which they
  subscribed, and the others are about to be, in the same order. -/
  ordered : s.published id ≠ [] → ∃ ran owed, s.early id = ran ++ owed ∧
    ran.Sublist ((s.informed id).map Prod.fst) ∧ owed.Sublist ((s.upcoming id).map Prod.fst)
  /-- Where tags tell the subscribers apart, nothing else can be meant by that. -/
  distinct : (s.registered id).Nodup →
    ((s.informed id).map Prod.fst).filter (· ∈ s.early id) <+: s.early id
  /-- Every later attempt to publish changes nothing, and calls nobody. -/
  final : s.published id ≠ [] → ∀ o, s.client.perform (.resolve id o) = ⟨s.client, [], []⟩
  /-- Once nobody is about to be called, everyone has been, and those who came before in order. -/
  complete : s.published id ≠ [] → s.upcoming id = [] →
    ((s.informed id).map Prod.fst).Perm (s.registered id) ∧
      (s.early id).Sublist ((s.informed id).map Prod.fst)
  /-- If the threads go on and the subscribers return, it comes to that. -/
  finishes : ∃ rest : List Choice, (∀ choice ∈ rest, choice.isQuiet = true) ∧
    (rest.foldl (act id) s).frames = []

/-- Calls that went in order among calls that do not repeat are a prefix of those that had to. -/
theorem filter_prefix {early called coming ran owed : List String} (hnodup : (called ++ coming).Nodup)
    (hearly : early = ran ++ owed) (hran : ran.Sublist called) (howed : owed.Sublist coming) :
    called.filter (· ∈ early) <+: early := by
  obtain ⟨hcalled, hcoming, hapart⟩ := List.nodup_append.mp hnodup
  have hmem (tag : String) : tag ∈ called.filter (· ∈ early) ↔ tag ∈ ran := by
    rw [List.mem_filter, decide_eq_true_iff, hearly, List.mem_append]
    constructor
    · rintro ⟨hin, hlong | howing⟩
      · exact hlong
      · exact absurd rfl (hapart tag hin tag (howed.subset howing))
    · intro hlong
      exact ⟨hran.subset hlong, Or.inl hlong⟩
  have hperm : ran.Perm (called.filter (· ∈ early)) :=
    (List.perm_ext_iff_of_nodup (hcalled.sublist hran) (hcalled.filter _)).mpr
      fun tag => (hmem tag).symm
  have hsublist : ran.Sublist (called.filter (· ∈ early)) := by
    have hself : ran.filter (· ∈ early) = ran :=
      List.filter_eq_self.mpr fun tag htag => decide_eq_true (hearly ▸ List.mem_append_left owed htag)
    exact hself ▸ hran.filter _
  rw [← hsublist.eq_of_length hperm.length_eq, hearly]
  exact List.prefix_append ran owed

/-- Whoever stands in line on a stack is about to be called. -/
theorem line_sublist {id : OperationId} {threads : List (List Frame)} {stack : List Frame}
    (h : stack = [] ∨ stack ∈ threads) :
    (line id stack).Sublist ((threads.flatten.filterMap (Frame.upcoming? id)).map Prod.fst) := by
  rcases h with rfl | hmem
  · exact List.nil_sublist _
  · exact ((List.sublist_flatten_of_mem hmem).filterMap _).map Prod.fst

theorem Kept.served {id : OperationId} {d : Delivery} {s : ClientThreads} (h : Kept id d s) :
    Served id s := by
  have hfinishes := winds_down ⟨d, h⟩
  obtain ⟨found, -, tally⟩ := h
  have hcell : s.client.cell id = d.outcome := by
    rw [Client.cell, found]
    rfl
  -- before a publication nobody was informed; after it what ran and what is owed are in the order of
  -- registration
  cases tally with
  | awaited h =>
    obtain ⟨outcome, waiting, published, informed, upcoming⟩ := h
    have hno : ¬ s.published id ≠ [] := fun h => h published
    refine ⟨?_, fun _ => ⟨informed, upcoming, ?_⟩, ?_, fun h => absurd h hno, fun h => absurd h hno, ?_,
      fun h => absurd h hno, fun h => absurd h hno, hfinishes⟩
    · rw [hcell, outcome, published]
      rfl
    · rw [hcell, waiting]
    · rw [informed]
      exact fun call h => by contradiction
    · rw [informed]
      exact fun _ => List.nil_prefix
  | known o h =>
    obtain ⟨outcome, published, value, once, ran, owed, stack, hearly, hran, howed, hplace⟩ := h
    have howed' := howed.trans (line_sublist hplace)
    refine ⟨?_, fun hnil => ?_, ?_, fun _ => once, fun _ => ⟨ran, owed, hearly, hran, howed'⟩,
      fun hnodup => ?_, ?_, fun _ hnone => ?_, hfinishes⟩
    · rw [hcell, outcome, published]
    · rw [hnil] at published
      contradiction
    · intro call hcall
      rw [published, value call (List.mem_append_left _ hcall)]
    · refine filter_prefix ?_ hearly hran howed'
      rw [← List.map_append]
      exact once.nodup_iff.mpr hnodup
    · exact fun _ later => Client.perform_resolve_known found outcome later
    · have hupcoming : s.threads.flatten.filterMap (Frame.upcoming? id) = [] := hnone
      rw [hupcoming] at once howed'
      rw [List.append_nil] at once
      rw [List.sublist_nil.mp howed', List.append_nil] at hearly
      exact ⟨once, hearly ▸ hran⟩

/-- The threads around an outcome cell after a schedule. -/
def run (c : Client) (id : OperationId) (listener : Listener) (sink : Sink) (mailbox : Mailbox Callback)
    (known : Option Outcome) (schedule : List Choice) : ClientThreads :=
  schedule.foldl (act id) (opened c id listener sink mailbox known)

/-- **Whoever subscribes is called once and with the first outcome**, whenever it subscribes, whoever
publishes what, and however the threads get into each other's way. -/
theorem informed_once (c : Client) (id : OperationId) (listener : Listener) (sink : Sink)
    (mailbox : Mailbox Callback) (known : Option Outcome) (schedule : List Choice) :
    Served id (run c id listener sink mailbox known schedule) := by
  have hkept : ∃ d, Kept id d (run c id listener sink mailbox known schedule) :=
    foldl_induction (P := fun s => ∃ d, Kept id d s) (act_step id) (fun _ _ h step => step.kept h)
      (kept_opened c id listener sink mailbox known) schedule
  obtain ⟨d, h⟩ := hkept
  exact h.served

/-- One subscriber adds another while it is called, before the next of those who came early. A second
outcome comes too late. -/
example :
    let s := run (.fresh {}) ⟨1⟩ (.recorder "") .discard .idle none
      [.join, .join, .subscribe 0 "first", .move 0, .subscribe 0 "second", .move 0,
        .publish 1 (.completed .undefined), .move 1, .move 1, .subscribe 1 "nested", .move 1, .move 1,
        .answer 1 .returned, .answer 1 .returned, .move 1, .publish 0 (.failed .channelClosed), .move 0]
    s.registered ⟨1⟩ = ["first", "second", "nested"] ∧
      (s.informed ⟨1⟩).map Prod.fst = ["first", "nested", "second"] := by
  decide

end OutcomeCellThreads

end TwoPhase
