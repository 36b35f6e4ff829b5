import TwoPhase.Proofs.ClientThreads.Callbacks
/-
One mailbox, and any number of threads that put callbacks into it.

Here a thread may queue whatever callback it likes, at whatever moment: outside the client, while it
owes a delivery, or from within a callback. All that a producer has to respect is that it delivers
where it was told to. From there on the client's own moves take the callbacks out and make the calls,
in any interleaving with the moves of the other threads. Listeners, sinks and subscribers answer when
they like, and a listener or a sink may panic.

What ties the mailbox to its threads is `Delivering`, which was made for the callbacks that the
client queues itself and asks nothing of where they come from.
-/

set_option autoImplicit false

namespace TwoPhase

open Client (Task Frame Upcall Answer)

/-! ## Frames that deliver -/

/-- Whether a frame is part of a delivery: a deliverer, a call that it makes, or what it goes on with
after a call. -/
def Client.Frame.serves (id : OperationId) : Frame → Bool
  | .todo (.drain i) | .todo (.called i _ _) | .todo (.resolve i _) => i = id
  | .todo (.raise (.notify i _)) | .inside (.notify i _) => i = id
  | .todo (.raise (.outcome i _ _)) | .inside (.outcome i _ _) => i = id
  | _ => false

namespace Client.Frame

variable {id : OperationId} {f : Frame}

theorem about_of_serves (h : f.serves id = true) : f.about id = true := by
  rcases f with t | u
  · cases t with
    | raise u => cases u <;> simp_all [serves, about, Upcall.about]
    | _ => simp_all [serves, about]
  · cases u <;> simp_all [serves, about, Upcall.about]

theorem serves_drainIf (id : OperationId) (owed : Bool) :
    ∀ f ∈ Client.drainIf id owed, f.serves id = true := by
  intro f hf
  rw [Client.drainIf] at hf
  split at hf
  · obtain rfl := List.mem_singleton.mp hf
    exact decide_eq_true rfl
  · contradiction

end Client.Frame

/-- All frames of a delivery are frames of its operation. -/
theorem filter_about_of_serves {id : OperationId} {l : List Frame} (h : ∀ f ∈ l, f.serves id = true) :
    l.filter (Frame.about id) = l :=
  List.filter_eq_self.mpr fun f hf => Frame.about_of_serves (h f hf)

/-- Whoever was called gives the thread back to the delivery. -/
theorem Client.Upcall.Resumes.serves {id : OperationId} {u : Upcall} {frames : List Frame}
    (h : u.Resumes frames) (hu : (Frame.inside u).serves id = true) :
    ∀ f ∈ frames, f.serves id = true := by
  cases h with
  | called =>
    intro f hf
    obtain rfl := List.mem_singleton.mp hf
    exact hu
  | told => exact fun f hf => by contradiction
  | _ => contradiction

/-- What a delivery goes on with is part of it again. -/
theorem Client.serves_perform (c : Client) {id : OperationId} {t : Task}
    (ht : (Frame.todo t).serves id = true) : ∀ f ∈ (c.perform t).frames, f.serves id = true := by
  cases t with
  | drain i =>
    rw [perform, drain]
    cases c.deliveries.get? i with
    | none => exact fun f hf => by contradiction
    | some d =>
      rcases hpop : d.mailbox.pop with ⟨_ | callback, mailbox⟩
      · simp [hpop]
      · simpa [hpop, Frame.serves] using ht
  | called i callback panicked =>
    cases houtcome : callback.outcome? with
    | none => simp [perform, called, houtcome]
    | some outcome => simpa [perform, called, houtcome, Frame.serves] using ht
  | resolve i outcome =>
    rw [perform, resolve]
    cases c.deliveries.get? i with
    | none => exact fun f hf => by contradiction
    | some d =>
      intro f hf
      obtain ⟨tag, -, rfl⟩ := List.mem_map.mp hf
      exact ht
  | raise u =>
    intro f hf
    obtain rfl := List.mem_singleton.mp hf
    cases u <;> exact ht
  | _ => contradiction

/-- No move of a delivery queues a callback, or submits an operation. -/
theorem Touch.queues_none {id : OperationId} {v v' : View} {t : Task} {y : Yield}
    (touch : Touch id v t v' y) (ht : (Frame.todo t).serves id = true) :
    y.queued = [] ∧ y.enlisted = false := by
  cases touch <;> first | exact ⟨rfl, rfl⟩ | contradiction

/-- What is in a mailbox and what is put into it is what is taken out and what stays, in this order. -/
theorem Touch.conserves {id : OperationId} {v v' : View} {t : Task} {y : Yield}
    (touch : Touch id v t v' y) (hknown : y.enlisted = false) {d d' : Delivery}
    (found : v.delivery = some d) (found' : v'.delivery = some d') :
    d.mailbox.queue ++ y.queued = y.frames.filterMap (Frame.popped? id) ++ d'.mailbox.queue := by
  cases touch with
  | enlisted => contradiction
  | accepted | finished | reported | swept =>
    simp only [View.post, found, Option.map_some, Option.some.injEq] at found'
    rw [← found', Mailbox.queue_enqueue, filterMap_popped_of_silent (calls_drainIf id _)]
    rfl
  | released hdelivery hqueue =>
    obtain rfl := Option.some.inj (hdelivery.symm.trans found)
    obtain rfl := Option.some.inj found'
    rw [hqueue]
    rfl
  | popped hdelivery hqueue =>
    obtain rfl := Option.some.inj (hdelivery.symm.trans found)
    obtain rfl := Option.some.inj found'
    rw [hqueue]
    simp [Frame.popped?]
  | @called callback panicked =>
    obtain rfl := Option.some.inj (found.symm.trans found')
    cases callback.outcome? <;> simp [Frame.popped?]
  | resolved hdelivery =>
    obtain rfl := Option.some.inj (hdelivery.symm.trans found)
    obtain rfl := Option.some.inj found'
    rw [filterMap_map_of_none fun tag => rfl, List.append_nil, List.nil_append]
  | @subscribed before tag hdelivery =>
    obtain rfl := Option.some.inj (hdelivery.symm.trans found)
    obtain rfl := Option.some.inj found'
    cases (before.outcome.subscribe tag).2 <;> simp [Frame.popped?]
  | _ =>
    obtain rfl := Option.some.inj (found.symm.trans found')
    simp [Frame.popped?, List.filterMap_cons]

/-! ## Threads around one mailbox -/

/-- Threads around one mailbox, what was put into the mailbox, and what was taken out, first to last. -/
structure MailboxThreads where
  clientThreads : ClientThreads
  posted : List Callback
  taken : List Callback

namespace MailboxThreads

/-- What a schedule may pick. -/
inductive Choice where
  /-- A new thread appears. -/
  | join
  /-- A thread queues a callback, and owes the delivery if it is told so. -/
  | post (thread : Nat) (callback : Callback)
  /-- A thread makes its next move. -/
  | move (thread : Nat)
  /-- Whoever a thread is calling answers. -/
  | answer (thread : Nat) (a : Answer)

/-- The delivery of an operation, as it is before anything was queued. -/
def opened (c : Client) (id : OperationId) (listener : Listener) (sink : Sink) (cell : OutcomeCell) :
    MailboxThreads where
  clientThreads := ⟨{ c with deliveries := c.deliveries.insert id ⟨listener, sink, .idle, cell⟩ }, [], []⟩
  posted := []
  taken := []

/-- What a choice leads to. A choice that the thread cannot follow changes nothing. -/
def act (id : OperationId) (s : MailboxThreads) : Choice → MailboxThreads
  | .join => { s with clientThreads := s.clientThreads.act .join }
  | .post n callback =>
    match s.clientThreads.threads[n]? with
    | some stack =>
      let (client, owed) := s.clientThreads.client.enqueue id callback
      { s with
        clientThreads := ⟨client, s.clientThreads.threads.set n (Client.drainIf id owed ++ stack),
          s.clientThreads.past⟩
        posted := s.posted ++ [callback] }
    | none => s
  | .move n =>
    match s.clientThreads.threads[n]? with
    | some (.todo t :: _) =>
      { s with
        clientThreads := s.clientThreads.act (.move n)
        taken := s.taken ++ (s.clientThreads.client.perform t).frames.filterMap (Frame.popped? id) }
    | _ => s
  | .answer n a => { s with clientThreads := s.clientThreads.act (.answer n a) }

/-- One thing that can happen around a mailbox. -/
inductive Step (id : OperationId) : MailboxThreads → MailboxThreads → Prop
  | join {s : MailboxThreads} : Step id s { s with clientThreads := s.clientThreads.act .join }
  | post {c : Client} {past : List Mark} {before after : List (List Frame)} {stack : List Frame}
      {posted taken : List Callback} (callback : Callback) :
      Step id ⟨⟨c, before ++ stack :: after, past⟩, posted, taken⟩
        ⟨⟨(c.enqueue id callback).1,
          before ++ (Client.drainIf id (c.enqueue id callback).2 ++ stack) :: after, past⟩,
          posted ++ [callback], taken⟩
  | move {c : Client} {past : List Mark} {before after : List (List Frame)} {rest : List Frame}
      {posted taken : List Callback} (t : Task) :
      Step id ⟨⟨c, before ++ (.todo t :: rest) :: after, past⟩, posted, taken⟩
        ⟨⟨(c.perform t).client, before ++ ((c.perform t).frames ++ rest) :: after,
          past ++ c.marks t⟩, posted, taken ++ (c.perform t).frames.filterMap (Frame.popped? id)⟩
  | answer {c : Client} {past : List Mark} {before after : List (List Frame)} {rest : List Frame}
      {posted taken : List Callback} (u : Upcall) (a : Answer) :
      Step id ⟨⟨c, before ++ (.inside u :: rest) :: after, past⟩, posted, taken⟩
        ⟨⟨c, before ++ (u.resume a ++ rest) :: after, past ++ [.answered u a]⟩, posted, taken⟩

/-- **A choice is a step**, unless it changes nothing. -/
theorem act_step (id : OperationId) (s : MailboxThreads) (choice : Choice) :
    act id s choice = s ∨ Step id s (act id s choice) := by
  obtain ⟨⟨c, threads, past⟩, posted, taken⟩ := s
  cases choice with
  | join => exact Or.inr .join
  | post n callback =>
    cases hn : threads[n]? with
    | none => exact Or.inl (by simp only [act, hn])
    | some stack =>
      obtain ⟨before, after, -, rfl, hset⟩ := around hn
      refine Or.inr ?_
      simp only [act, hn, hset]
      exact .post callback
  | move n =>
    rcases hn : threads[n]? with _ | _ | ⟨t | u, rest⟩
    · exact Or.inl (by simp only [act, hn])
    · exact Or.inl (by simp only [act, hn])
    · obtain ⟨before, after, -, rfl, hset⟩ := around hn
      refine Or.inr ?_
      simp only [act, ClientThreads.act, hn, hset]
      exact .move t
    · exact Or.inl (by simp only [act, hn])
  | answer n a =>
    rcases hn : threads[n]? with _ | _ | ⟨t | u, rest⟩
    · exact Or.inl (by simp only [act, ClientThreads.act, hn])
    · exact Or.inl (by simp only [act, ClientThreads.act, hn])
    · exact Or.inl (by simp only [act, ClientThreads.act, hn])
    · obtain ⟨before, after, -, rfl, hset⟩ := around hn
      refine Or.inr ?_
      simp only [act, ClientThreads.act, hn, hset]
      exact .answer u a

/-! ### What is kept -/

/-- The mailbox of an operation, if the operation has one. -/
def mailbox? (s : MailboxThreads) (id : OperationId) : Option (Mailbox Callback) :=
  (s.clientThreads.client.deliveries.get? id).map (·.mailbox)

/-- A mailbox, its threads, and what went in and out, in agreement. -/
structure Kept (id : OperationId) (m : Mailbox Callback) (s : MailboxThreads) : Prop where
  found : s.mailbox? id = some m
  orderly : s.clientThreads.Orderly id
  serving : ∀ f ∈ s.clientThreads.frames, f.serves id = true
  delivering : Delivering id m s.clientThreads.frames s.posted (s.clientThreads.turns id)
  flow : s.taken ++ m.queue = s.posted

theorem kept_opened (c : Client) (id : OperationId) (listener : Listener) (sink : Sink)
    (cell : OutcomeCell) : Kept id .idle (opened c id listener sink cell) where
  found := by simp [mailbox?, opened, Table.get?_insert]
  orderly := fun _ h => by contradiction
  serving := fun _ h => by contradiction
  delivering := ⟨rfl, rfl, fun _ => rfl, Nat.le_refl _, ⟨[], rfl⟩⟩
  flow := rfl

namespace Kept

variable {id : OperationId} {m : Mailbox Callback} {c : Client} {past : List Mark}
  {before after : List (List Frame)} {rest : List Frame} {posted taken : List Callback}

/-- A producer leaves its callback behind the others, and delivers where nobody else does. -/
theorem post (h : Kept id m ⟨⟨c, before ++ rest :: after, past⟩, posted, taken⟩)
    (callback : Callback) :
    Kept id (m.enqueue callback).1
      ⟨⟨(c.enqueue id callback).1,
        before ++ (Client.drainIf id (c.enqueue id callback).2 ++ rest) :: after, past⟩,
        posted ++ [callback], taken⟩ := by
  obtain ⟨found, orderly, serving, delivering, flow⟩ := h
  obtain ⟨d, hd, rfl⟩ := Option.map_eq_some_iff.mp found
  rw [Client.enqueue_of_found hd callback]
  have hframes := ClientThreads.frames_around c past before after [] rest
  rw [List.nil_append] at hframes
  refine ⟨?_, ?_, ?_, ?_, ?_⟩
  · simp only [mailbox?, Table.get?_insert, if_true, Option.map_some]
  · exact orderly.replace fun hstack => hstack.append_of_silent (calls_drainIf id _)
  · exact ClientThreads.forall_frames_put serving fun hrest =>
      List.forall_mem_append.mpr ⟨Frame.serves_drainIf id _, hrest⟩
  · rw [hframes] at delivering
    rw [ClientThreads.frames_around]
    exact delivering.post (fun _ hf => by contradiction) callback
  · show taken ++ (d.mailbox.queue ++ [callback]) = posted ++ [callback]
    rw [← List.append_assoc]
    exact congrArg (· ++ [callback]) flow

/-- A move of a thread is a move of its delivery. -/
theorem move {t : Task}
    (h : Kept id m ⟨⟨c, before ++ (.todo t :: rest) :: after, past⟩, posted, taken⟩) :
    ∃ m', Kept id m'
      ⟨⟨(c.perform t).client, before ++ ((c.perform t).frames ++ rest) :: after,
        past ++ c.marks t⟩, posted, taken ++ (c.perform t).frames.filterMap (Frame.popped? id)⟩ := by
  obtain ⟨found, orderly, serving, delivering, flow⟩ := h
  obtain ⟨d, hd, rfl⟩ := Option.map_eq_some_iff.mp found
  have hframes := ClientThreads.frames_around c past before after [.todo t] rest
  rw [List.singleton_append] at hframes
  have ht : (Frame.todo t).serves id = true := serving _ (by simp [hframes])
  have hheld : heldFor id t = [.todo t] := List.filter_cons_of_pos (Frame.about_of_serves ht)
  -- everything that the move leads to concerns the delivery, so its share sees all of it
  have touch := c.perform_touch id t
  have hsame : (c.yield t id).frames = (c.perform t).frames :=
    filter_about_of_serves (c.serves_perform ht)
  obtain ⟨hqueued, hknown⟩ := touch.queues_none ht
  obtain ⟨-, -, -, hturns, -⟩ := ClientThreads.marks_digest c t id
  rw [hframes, ← hheld] at delivering
  obtain ⟨d', hd', delivering'⟩ :=
    touch.delivering hknown hd (fun _ => orderly.others_le) delivering
  have hconserves := touch.conserves hknown hd hd'
  rw [hqueued, List.append_nil, hsame] at hconserves
  rw [hqueued, List.append_nil, hsame] at delivering'
  have found' : ((c.perform t).client.deliveries.get? id).map (·.mailbox) = some d'.mailbox :=
    Option.map_eq_some_iff.mpr ⟨d', hd', rfl⟩
  refine ⟨d'.mailbox, found', (ClientThreads.Step.move t).orderly orderly,
    ?_, ?_, ?_⟩
  · exact ClientThreads.forall_frames_put serving fun hstack =>
      List.forall_mem_append.mpr ⟨c.serves_perform ht, (List.forall_mem_cons.mp hstack).2⟩
  · rw [ClientThreads.frames_around, ClientThreads.turns, List.flatMap_append, hturns]
    exact delivering'
  · rw [List.append_assoc, ← hconserves]
    exact flow

/-- Whoever was called gives the thread back, and the mailbox is as it was. -/
theorem answer {u : Upcall}
    (h : Kept id m ⟨⟨c, before ++ (.inside u :: rest) :: after, past⟩, posted, taken⟩)
    (a : Answer) :
    Kept id m
      ⟨⟨c, before ++ (u.resume a ++ rest) :: after, past ++ [.answered u a]⟩, posted, taken⟩ := by
  obtain ⟨found, orderly, serving, delivering, flow⟩ := h
  have hframes := ClientThreads.frames_around c past before after [.inside u] rest
  rw [List.singleton_append] at hframes
  have hserves : (Frame.inside u).serves id = true := serving _ (by simp [hframes])
  have hu : u.about id = true := Frame.about_of_serves hserves
  refine ⟨found, (ClientThreads.Step.answer u a).orderly orderly, ?_, ?_, flow⟩
  · exact ClientThreads.forall_frames_put serving fun hstack =>
      List.forall_mem_append.mpr ⟨(u.resumes a).serves hserves, (List.forall_mem_cons.mp hstack).2⟩
  · rw [hframes] at delivering
    rw [ClientThreads.frames_around, ClientThreads.turns, List.flatMap_append]
    have hturns :
        [Mark.answered u a].flatMap (Mark.turns id) = (u.callback?.map Turn.ended).toList := by
      simp [Mark.turns, hu]
    rw [hturns]
    exact delivering.resume (u.resumes a) hu

end Kept

/-- **Whatever happens, the mailbox and its threads stay in agreement.** -/
theorem Step.kept {id : OperationId} {s s' : MailboxThreads} (step : Step id s s')
    (h : ∃ m, Kept id m s) : ∃ m, Kept id m s' := by
  obtain ⟨m, hkept⟩ := h
  cases step with
  | join =>
    obtain ⟨found, orderly, serving, delivering, flow⟩ := hkept
    have hframes : (s.clientThreads.act .join).frames = s.clientThreads.frames := by
      simp [ClientThreads.act, ClientThreads.frames]
    refine ⟨m, found, ClientThreads.Step.join.orderly orderly, ?_, ?_, flow⟩
    · rw [hframes]
      exact serving
    · rw [hframes]
      exact delivering
  | post callback => exact ⟨_, hkept.post callback⟩
  | move t => exact hkept.move
  | answer u a => exact ⟨m, hkept.answer a⟩

/-! ### In order -/

/-- A callback that is about to be made and one that is running are two calls. -/
theorem length_calls_le (id : OperationId) (l : List Frame) :
    (l.filterMap (Frame.running? id)).length + (l.filterMap (Frame.popped? id)).length ≤
      l.countP (Frame.calls id) := by
  induction l with
  | nil => exact Nat.le_refl _
  | cons f rest ih =>
    rw [filterMap_cons_toList, filterMap_cons_toList, List.length_append, List.length_append,
      List.countP_cons]
    by_cases hf : f.calls id = true
    · -- a frame is about to call or is inside of a call, never both
      have hone : (f.running? id).toList.length + (f.popped? id).toList.length ≤ 1 := by
        cases f with
        | todo t =>
          have hnone : (Frame.todo t).running? id = none := rfl
          rw [hnone]
          cases (Frame.todo t).popped? id <;> simp
        | inside u =>
          have hnone : (Frame.inside u).popped? id = none := rfl
          rw [hnone]
          cases (Frame.inside u).running? id <;> simp
      rw [if_pos hf]
      omega
    · have hsilent := Bool.eq_false_iff.mpr hf
      rw [Frame.running?_of_silent hsilent, Frame.popped?_of_silent hsilent, if_neg hf]
      simpa using ih

/-- The callbacks that began among whole turns. -/
theorem begun_whole (done : List Callback) :
    (done.flatMap Turn.whole).filterMap Turn.begun? = done := by
  induction done with
  | nil => rfl
  | cons callback rest ih =>
    rw [List.flatMap_cons, List.filterMap_append, ih]
    rfl

/-- What every producer may rely on. -/
structure InOrder (id : OperationId) (m : Mailbox Callback) (s : MailboxThreads) : Prop where
  /-- It is this mailbox that the client has. -/
  found : s.mailbox? id = some m
  /-- What was taken out, and behind it what is still queued, is what was put in, in the same order. -/
  flow : s.taken ++ m.queue = s.posted
  /-- What was taken out is called in the order in which it was taken out, each callback after the one
  before has ended. One at most is running, or about to. -/
  called : ∃ done running waiting : List Callback,
    s.taken = done ++ running ++ waiting ∧ running.length + waiting.length ≤ 1 ∧
      s.clientThreads.turns id = done.flatMap Turn.whole ++ running.map .began
  /-- One thread delivers, or owes to, while the mailbox says so, and none otherwise. -/
  deliverers :
    s.clientThreads.threads.countP (·.any (Frame.drains id)) = if m.delivering then 1 else 0
  /-- Only that thread makes calls. -/
  callers : ∀ stack ∈ s.clientThreads.threads,
    stack.any (Frame.calls id) = true → stack.any (Frame.drains id) = true
  /-- Nothing stays in the mailbox that nobody is going to take out. -/
  awake : m.queue ≠ [] → m.delivering = true
  /-- Where no thread delivers or owes to, the mailbox is idle, and whatever was put into it has been
  called once, and is over. -/
  settled : (∀ stack ∈ s.clientThreads.threads, stack.any (Frame.drains id) = false) →
    m = .idle ∧ s.clientThreads.turns id = s.posted.flatMap Turn.whole

theorem Kept.inOrder {id : OperationId} {m : Mailbox Callback} {s : MailboxThreads} (h : Kept id m s) :
    InOrder id m s := by
  obtain ⟨found, orderly, -, delivering, flow⟩ := h
  have hdrains : s.clientThreads.frames.countP (Frame.drains id) ≤ 1 := by
    rw [delivering.token]
    split <;> omega
  have hthreads : s.clientThreads.threads.countP (·.any (Frame.drains id)) =
      s.clientThreads.frames.countP (Frame.drains id) := countP_any_of_le_one hdrains
  have hcalls := length_calls_le id s.clientThreads.frames
  have hbusy := delivering.busy
  obtain ⟨done, hdone⟩ := delivering.turned
  -- what was taken out has begun, or is about to
  have htaken : s.taken = done ++ s.clientThreads.frames.filterMap (Frame.running? id) ++
      s.clientThreads.frames.filterMap (Frame.popped? id) := by
    have hbegun : (s.clientThreads.turns id).filterMap Turn.begun? =
        done ++ s.clientThreads.frames.filterMap (Frame.running? id) := by
      rw [hdone, List.filterMap_append, begun_whole, List.filterMap_map]
      exact congrArg (done ++ ·) List.filterMap_some
    have hposted := delivering.flow
    rw [hbegun] at hposted
    exact List.append_cancel_right (flow.trans hposted)
  refine ⟨found, flow, ⟨done, _, _, htaken, by omega, hdone⟩, hthreads.trans delivering.token, ?_, ?_,
    ?_⟩
  · intro stack hstack hcaller
    have hle := (orderly stack hstack).le
    rw [List.any_eq_true, ← List.countP_pos_iff] at hcaller ⊢
    omega
  · intro hqueue
    exact eq_true_of_ne_false fun hidle => hqueue (delivering.idle hidle)
  · intro hnone
    have hzero : s.clientThreads.frames.countP (Frame.drains id) = 0 := by
      rw [← hthreads]
      exact List.countP_eq_zero.mpr fun stack hstack => Bool.eq_false_iff.mp (hnone stack hstack)
    have hdelivering : m.delivering = false := by
      have htoken := delivering.token
      rw [hzero] at htoken
      cases hm : m.delivering with
      | false => rfl
      | true => simp [hm] at htoken
    have hrunning : s.clientThreads.frames.filterMap (Frame.running? id) = [] :=
      List.length_eq_zero_iff.mp (by omega)
    have hpopped : s.clientThreads.frames.filterMap (Frame.popped? id) = [] :=
      List.length_eq_zero_iff.mp (by omega)
    have hqueue := delivering.idle hdelivering
    rw [hrunning, hpopped, List.append_nil, List.append_nil] at htaken
    rw [hqueue, List.append_nil, htaken] at flow
    refine ⟨?_, ?_⟩
    · obtain ⟨queue, flag⟩ := m
      cases hqueue
      cases hdelivering
      rfl
    · rw [hdone, hrunning, flow]
      exact List.append_nil _

/-! ### Every schedule -/

/-- The mailbox and its threads after a schedule, around a delivery that nobody used before. -/
def run (c : Client) (id : OperationId) (listener : Listener) (sink : Sink) (cell : OutcomeCell)
    (schedule : List Choice) : MailboxThreads :=
  schedule.foldl (act id) (opened c id listener sink cell)

/-- **The mailbox loses, repeats and reorders nothing**, whoever queues what, and however the threads
that queue and the one that delivers get into each other's way. -/
theorem in_order (c : Client) (id : OperationId) (listener : Listener) (sink : Sink)
    (cell : OutcomeCell) (schedule : List Choice) :
    ∃ m, InOrder id m (run c id listener sink cell schedule) := by
  have hkept : ∃ m, Kept id m (run c id listener sink cell schedule) :=
    foldl_induction (P := fun s => ∃ m, Kept id m s) (act_step id) (fun _ _ h step => step.kept h)
      ⟨.idle, kept_opened c id listener sink cell⟩ schedule
  obtain ⟨m, h⟩ := hkept
  exact ⟨m, h.inOrder⟩

/-- One thread delivers three reports: its own, one that the sink queues from within the first call,
and one of another thread. The sink panics on the first, and nobody delivers in the end. -/
example :
    let told : List Choice := [.answer 0 .returned, .move 0]
    let next : List Choice := [.move 0, .move 0]
    let s := run (.fresh {}) ⟨1⟩ (.recorder "") .discard .vacant <|
      [.join, .join, .post 0 (.report .info "own")] ++ next ++
        [.post 0 (.report .info "nested"), .post 1 (.report .info "other"), .answer 0 .panicked,
          .move 0] ++ next ++ told ++ next ++ told ++ [.move 0]
    s.posted.length = 3 ∧ s.taken.length = 3 ∧ s.clientThreads.threads.map List.length = [0, 0] := by
  decide

end MailboxThreads

end TwoPhase
