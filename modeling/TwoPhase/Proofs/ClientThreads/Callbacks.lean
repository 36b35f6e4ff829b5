import TwoPhase.Proofs.ClientThreads.OperationShare
/-
The callbacks of an operation, under every interleaving.

What is to be called is decided under one lock and put into a mailbox under another, and the calls are
made outside of both. Two invariants of an operation's share carry the result. `Delivering` ties the
mailbox to the threads: there is one deliverer while the mailbox says so and none otherwise, at most one
callback is on its way at a time, and what was queued is what has begun, then what is on its way, then
what is left. `Life` ties what was queued to the phase of the operation.
-/

set_option autoImplicit false

namespace TwoPhase

open Client (Task Frame Upcall Answer Event Cause)

/-! ## Deliveries -/

/-- Whether a callback is the listener's. The others are reports, and go to the sink. -/
def Callback.isListeners : Callback → Bool
  | .report .. => false
  | _ => true

namespace Client.Frame

/-- The callback of an operation that a frame is about to make. -/
def popped? (id : OperationId) : Frame → Option Callback
  | .todo (.raise (.notify i callback)) => if i = id then some callback else none
  | _ => none

/-- The callback of an operation that a frame is inside of. -/
def running? (id : OperationId) : Frame → Option Callback
  | .inside (.notify i callback) => if i = id then some callback else none
  | _ => none

variable {id : OperationId} {f : Frame}

theorem popped?_of_silent (h : f.calls id = false) : f.popped? id = none := by
  cases f with
  | inside u => rfl
  | todo t =>
    cases t with
    | raise u => cases u <;> simp_all [calls, popped?]
    | _ => rfl

theorem running?_of_silent (h : f.calls id = false) : f.running? id = none := by
  cases f with
  | todo t => rfl
  | inside u => cases u <;> simp_all [calls, running?]

end Client.Frame

theorem filterMap_popped_of_silent {id : OperationId} {l : List Frame}
    (h : ∀ f ∈ l, f.calls id = false) : l.filterMap (Frame.popped? id) = [] :=
  List.filterMap_eq_nil_iff.mpr fun f hf => Frame.popped?_of_silent (h f hf)

theorem filterMap_running_of_silent {id : OperationId} {l : List Frame}
    (h : ∀ f ∈ l, f.calls id = false) : l.filterMap (Frame.running? id) = [] :=
  List.filterMap_eq_nil_iff.mpr fun f hf => Frame.running?_of_silent (h f hf)

theorem silent_of_countP {id : OperationId} {l : List Frame} (h : l.countP (Frame.calls id) = 0) :
    ∀ f ∈ l, f.calls id = false :=
  fun f hf => Bool.eq_false_iff.mpr (List.countP_eq_zero.mp h f hf)

/-- A callback that began and ended. -/
def Turn.whole (callback : Callback) : List Turn := [.began callback, .ended callback]

/-- A mailbox, the threads that serve it, what was put into it, and what was made of that. -/
structure Delivering (id : OperationId) (m : Mailbox Callback) (frames : List Frame)
    (queued : List Callback) (turns : List Turn) : Prop where
  flow : queued = turns.filterMap Turn.begun? ++ frames.filterMap (Frame.popped? id) ++ m.queue
  token : frames.countP (Frame.drains id) = if m.delivering then 1 else 0
  idle : m.delivering = false → m.queue = []
  busy : frames.countP (Frame.calls id) ≤ frames.countP (Frame.drains id)
  turned : ∃ done : List Callback,
    turns = done.flatMap Turn.whole ++ (frames.filterMap (Frame.running? id)).map .began

namespace Delivering

attribute [local simp] List.filterMap_cons

variable {id : OperationId} {m : Mailbox Callback} {before held after : List Frame}
  {queued : List Callback} {turns : List Turn}

/-- There is at most one deliverer. -/
theorem drains_le (h : Delivering id m (before ++ held ++ after) queued turns) :
    (before ++ held ++ after).countP (Frame.drains id) ≤ 1 := by
  rw [h.token]
  split <;> omega

/-- So the listener is in at most one call at a time. -/
theorem calls_le (h : Delivering id m (before ++ held ++ after) queued turns) :
    (before ++ held ++ after).countP (Frame.calls id) ≤ 1 :=
  Nat.le_trans h.busy h.drains_le

/-- While one thread calls the listener, no other does. -/
theorem others_silent {f : Frame}
    (h : Delivering id m (before ++ [f] ++ after) queued turns) (hf : f.calls id = true) :
    (∀ g ∈ before, g.calls id = false) ∧ ∀ g ∈ after, g.calls id = false := by
  have hle := h.calls_le
  rw [List.countP_append, List.countP_append, List.countP_singleton, if_pos hf] at hle
  exact ⟨silent_of_countP (by omega), silent_of_countP (by omega)⟩

/-- Frames that neither call nor deliver can take each other's place. -/
theorem quiet (h : Delivering id m (before ++ held ++ after) queued turns) (frames : List Frame)
    (hheld : ∀ f ∈ held, f.calls id = false ∧ f.drains id = false)
    (hframes : ∀ f ∈ frames, f.calls id = false ∧ f.drains id = false) :
    Delivering id m (before ++ frames ++ after) queued turns := by
  obtain ⟨flow, token, idle, busy, turned⟩ := h
  have hheld' : held.countP (Frame.drains id) = 0 :=
    List.countP_eq_zero.mpr fun f hf => Bool.eq_false_iff.mp (hheld f hf).2
  have hheldc : held.countP (Frame.calls id) = 0 :=
    List.countP_eq_zero.mpr fun f hf => Bool.eq_false_iff.mp (hheld f hf).1
  have hframes' : frames.countP (Frame.drains id) = 0 :=
    List.countP_eq_zero.mpr fun f hf => Bool.eq_false_iff.mp (hframes f hf).2
  have hframesc : frames.countP (Frame.calls id) = 0 :=
    List.countP_eq_zero.mpr fun f hf => Bool.eq_false_iff.mp (hframes f hf).1
  simp only [List.filterMap_append, filterMap_popped_of_silent fun f hf => (hheld f hf).1,
    filterMap_running_of_silent fun f hf => (hheld f hf).1, List.countP_append, hheld',
    hheldc] at flow token busy turned
  constructor
  · simpa only [List.filterMap_append, filterMap_popped_of_silent fun f hf => (hframes f hf).1]
      using flow
  · simpa only [List.countP_append, hframes'] using token
  · exact idle
  · simpa only [List.countP_append, hframes', hframesc] using busy
  · simpa only [List.filterMap_append, filterMap_running_of_silent fun f hf => (hframes f hf).1]
      using turned

/-- A task that is neither a call nor a deliverer leaves the delivery as it is. -/
theorem move {t : Task} (h : Delivering id m (before ++ heldFor id t ++ after) queued turns)
    (frames : List Frame)
    (ht : (Frame.todo t).calls id = false ∧ (Frame.todo t).drains id = false)
    (hframes : ∀ f ∈ frames, f.calls id = false ∧ f.drains id = false) :
    Delivering id m (before ++ frames ++ after) queued turns :=
  h.quiet frames (fun _ hf => mem_heldFor hf ▸ ht) hframes

/-- A callback is queued, and whoever queued it becomes the deliverer where there is none. -/
theorem post (h : Delivering id m (before ++ held ++ after) queued turns)
    (hheld : ∀ f ∈ held, f.calls id = false ∧ f.drains id = false) (callback : Callback) :
    Delivering id (m.enqueue callback).1 (before ++ Client.drainIf id (!m.delivering) ++ after)
      (queued ++ [callback]) turns := by
  obtain ⟨flow, token, idle, busy, turned⟩ := h.quiet [] hheld (fun _ hf => by contradiction)
  rw [List.append_nil] at flow token busy turned
  rcases hm : m.delivering with _ | _
  · -- the mailbox was idle
    refine ⟨?_, ?_, (fun hidle => by contradiction), ?_, ?_⟩
    · rw [flow, Mailbox.queue_enqueue]
      simp [Client.drainIf, Frame.popped?]
    · rw [hm] at token
      simp only [List.countP_append] at token
      simp only [Bool.false_eq_true, if_false] at token
      simp [Client.drainIf, Frame.drains, Mailbox.enqueue, List.countP_append]
      omega
    · simp only [List.countP_append] at busy
      simp [Client.drainIf, Frame.calls, Frame.drains, List.countP_append]
      omega
    · simpa [Client.drainIf, Frame.running?] using turned
  · -- someone is delivering
    rw [Bool.not_true, show Client.drainIf id false = [] from rfl, List.append_nil]
    refine ⟨?_, ?_, (fun hidle => by contradiction), busy, turned⟩
    · rw [flow, Mailbox.queue_enqueue]
      simp only [List.append_assoc]
    · rw [token, hm]
      rfl

/-- The deliverer is released from an empty mailbox. -/
theorem release (h : Delivering id m (before ++ [.todo (.drain id)] ++ after) queued turns)
    (hqueue : m.queue = [])
    (hroom : (before ++ after).countP (Frame.calls id) ≤
      (before ++ after).countP (Frame.drains id)) :
    Delivering id .idle (before ++ [] ++ after) queued turns := by
  have hdrains := h.drains_le
  obtain ⟨flow, token, idle, busy, turned⟩ := h
  have hdrain : Frame.drains id (.todo (.drain id)) = true := decide_eq_true rfl
  rw [List.countP_append, List.countP_append, List.countP_singleton, if_pos hdrain] at hdrains
  rw [List.append_nil]
  refine ⟨?_, ?_, fun _ => rfl, hroom, ?_⟩
  · rw [flow, hqueue]
    simp [Frame.popped?, Mailbox.idle]
  · rw [List.countP_append]
    simp only [Mailbox.idle, Bool.false_eq_true, if_false]
    omega
  · simpa [Frame.running?] using turned

/-- The deliverer takes out the next callback: nobody was being called. -/
theorem pop (h : Delivering id m (before ++ [.todo (.drain id)] ++ after) queued turns)
    {callback : Callback} {rest : List Callback} (hqueue : m.queue = callback :: rest)
    (hroom : (before ++ after).countP (Frame.calls id) ≤
      (before ++ after).countP (Frame.drains id)) :
    Delivering id { m with queue := rest }
      (before ++ [.todo (.raise (.notify id callback)), .todo (.drain id)] ++ after) queued
      turns := by
  have hdrains := h.drains_le
  obtain ⟨flow, token, idle, busy, turned⟩ := h
  have hdrain : Frame.drains id (.todo (.drain id)) = true := decide_eq_true rfl
  rw [List.countP_append, List.countP_append, List.countP_singleton, if_pos hdrain] at hdrains
  rw [List.countP_append, List.countP_append] at hroom
  -- the deliverer in hand is the only one, so nobody else is being called
  have hbefore : before.filterMap (Frame.popped? id) = [] :=
    filterMap_popped_of_silent (silent_of_countP (by omega))
  have hafter : after.filterMap (Frame.popped? id) = [] :=
    filterMap_popped_of_silent (silent_of_countP (by omega))
  refine ⟨?_, ?_, fun hidle => ?_, ?_, ?_⟩
  · rw [flow, hqueue]
    simp [Frame.popped?, hbefore, hafter]
  · rw [← token]
    simp [Frame.drains, List.countP_append]
  · rw [idle hidle] at hqueue
    contradiction
  · simp [Frame.calls, Frame.drains, List.countP_append]
    omega
  · simpa [Frame.running?] using turned

/-- A callback begins: nothing else was running. -/
theorem start {callback : Callback}
    (h : Delivering id m (before ++ [.todo (.raise (.notify id callback))] ++ after) queued turns) :
    Delivering id m (before ++ [.inside (.notify id callback)] ++ after) queued
      (turns ++ [.began callback]) := by
  obtain ⟨hbefore, hafter⟩ := h.others_silent (decide_eq_true rfl)
  -- the callback that begins is the only one on its way
  obtain ⟨flow, token, idle, busy, done, hdone⟩ := h
  simp only [List.filterMap_append, filterMap_popped_of_silent hbefore,
    filterMap_popped_of_silent hafter, filterMap_running_of_silent hbefore,
    filterMap_running_of_silent hafter] at flow hdone
  refine ⟨?_, ?_, idle, ?_, done, ?_⟩
  · rw [flow]
    simp [filterMap_popped_of_silent hbefore, filterMap_popped_of_silent hafter, Frame.popped?,
      Turn.begun?]
  · simpa [List.countP_append, Frame.drains] using token
  · simpa [List.countP_append, Frame.drains, Frame.calls] using busy
  · rw [hdone]
    simp [filterMap_running_of_silent hbefore, filterMap_running_of_silent hafter, Frame.running?]

/-- A callback ends: it was the one that ran. -/
theorem finish {callback : Callback} {panicked : Bool}
    (h : Delivering id m (before ++ [.inside (.notify id callback)] ++ after) queued turns) :
    Delivering id m (before ++ [.todo (.called id callback panicked)] ++ after) queued
      (turns ++ [.ended callback]) := by
  obtain ⟨hbefore, hafter⟩ := h.others_silent (decide_eq_true rfl)
  obtain ⟨flow, token, idle, busy, done, hdone⟩ := h
  simp only [List.filterMap_append, filterMap_popped_of_silent hbefore,
    filterMap_popped_of_silent hafter, filterMap_running_of_silent hbefore,
    filterMap_running_of_silent hafter] at flow hdone
  refine ⟨?_, ?_, idle, ?_, done ++ [callback], ?_⟩
  · rw [flow]
    simp [filterMap_popped_of_silent hbefore, filterMap_popped_of_silent hafter, Frame.popped?,
      Turn.begun?]
  · simpa [List.countP_append, Frame.drains] using token
  · have hle := busy
    simp [List.countP_append, Frame.calls, Frame.drains] at hle ⊢
    omega
  · rw [hdone]
    simp [filterMap_running_of_silent hbefore, filterMap_running_of_silent hafter, Frame.running?,
      Turn.whole]

end Delivering

/-! ## The life of an operation -/

/-- The callbacks that reach the listener. -/
def heard (callbacks : List Callback) : List Callback := callbacks.filter Callback.isListeners

@[simp] theorem heard_nil : heard [] = [] := rfl

@[simp] theorem heard_append (first second : List Callback) :
    heard (first ++ second) = heard first ++ heard second := List.filter_append ..

@[simp] theorem heard_report (severity : Severity) (text : String) :
    heard [.report severity text] = [] := rfl

@[simp] theorem heard_prepared (result : Value) : heard [.prepared result] = [.prepared result] := rfl

@[simp] theorem heard_callback (outcome : Outcome) :
    heard [outcome.callback] = [outcome.callback] := by
  cases outcome <;> rfl

@[simp] theorem heard_failed (f : Failure) : heard [.failed f] = [.failed f] := rfl

/-- What can have been queued for an operation, by its phase. Nothing is queued any more once it has
left the table, which it may do without a last callback where its submission was refused. -/
inductive Life : Option Phase → List Callback → Prop
  | submitted {queued : List Callback} (h : heard queued = []) : Life (some .submitted) queued
  | prepared {queued : List Callback} {result : Value} (h : heard queued = [.prepared result]) :
      Life (some .prepared) queued
  | withdrawn {queued : List Callback}
      (h : heard queued = [] ∨ ∃ result, heard queued = [.prepared result]) : Life none queued
  | refused {queued : List Callback} {f : Failure} (h : heard queued = []) :
      Life none (queued ++ [.failed f])
  | ended {queued : List Callback} {result : Value} {outcome : Outcome}
      (h : heard queued = [.prepared result]) : Life none (queued ++ [outcome.callback])

namespace Life

variable {phase : Option Phase} {queued : List Callback}

/-- A report is no news to the listener. -/
theorem report (h : Life phase queued) (hpending : phase ≠ none) (severity : Severity)
    (text : String) : Life phase (queued ++ [.report severity text]) := by
  cases h with
  | submitted h => exact .submitted (by rw [heard_append, h, heard_report, List.append_nil])
  | prepared h => exact .prepared (by rw [heard_append, h, heard_report, List.append_nil])
  | _ => exact absurd rfl hpending

/-- A submission that is withdrawn leaves the listener with what it was told. -/
theorem withdraw (h : Life phase queued) (hpending : phase ≠ none) : Life none queued := by
  cases h with
  | submitted h => exact .withdrawn (Or.inl h)
  | prepared h => exact .withdrawn (Or.inr ⟨_, h⟩)
  | _ => exact absurd rfl hpending

/-- The listener hears of the preparation first. -/
theorem accept (h : Life (some .submitted) queued) (result : Value) :
    Life (some .prepared) (queued ++ [.prepared result]) := by
  cases h with
  | submitted h => exact .prepared (by rw [heard_append, h, heard_prepared, List.nil_append])

/-- A phase that admits an outcome admits its callback as the last one. -/
theorem finish {p : Phase} (h : Life (some p) queued) {outcome : Outcome}
    (hallows : p.allows (Client.finalPhase outcome) = true) :
    Life none (queued ++ [outcome.callback]) := by
  cases h with
  | submitted h =>
    cases outcome with
    | completed result => exact absurd hallows Bool.false_ne_true
    | failed f => exact .refused h
  | prepared h => exact .ended h

/-- What is pending can still fail. -/
theorem allows_failed {p : Phase} (h : Life (some p) queued) : p.allows .failed = true := by
  cases h <;> rfl

/-- The listener's share of what was queued is a prefix of one of three sequences. -/
theorem heard_prefix (h : Life phase queued) :
    ∃ result value failure,
      heard queued <+: [.prepared result, .complete value] ∨
        heard queued <+: [.prepared result, .failed failure] ∨
          heard queued <+: [.failed failure] := by
  cases h with
  | submitted h =>
    refine ⟨.undefined, .undefined, .channelClosed, Or.inl ?_⟩
    rw [h]
    exact List.nil_prefix
  | @prepared _ result h =>
    refine ⟨result, .undefined, .channelClosed, Or.inl ?_⟩
    rw [h]
    exact List.prefix_append [_] [_]
  | withdrawn h =>
    rcases h with h | ⟨result, h⟩
    · refine ⟨.undefined, .undefined, .channelClosed, Or.inl ?_⟩
      rw [h]
      exact List.nil_prefix
    · refine ⟨result, .undefined, .channelClosed, Or.inl ?_⟩
      rw [h]
      exact List.prefix_append [_] [_]
  | @refused _ f h =>
    refine ⟨.undefined, .undefined, f, Or.inr (Or.inr ?_)⟩
    exact ⟨[], by rw [heard_append, h, heard_failed, List.nil_append, List.append_nil]⟩
  | @ended _ result outcome h =>
    rw [heard_append, h, heard_callback]
    cases outcome with
    | completed value => exact ⟨result, value, .channelClosed, Or.inl (List.prefix_refl _)⟩
    | failed f => exact ⟨result, .undefined, f, Or.inr (Or.inl (List.prefix_refl _))⟩

/-- Everything about an end is for the listener. -/
theorem mem_heard {callback : Callback} (hmem : callback ∈ queued)
    (houtcome : callback.outcome?.isSome = true) : callback ∈ heard queued :=
  List.mem_filter.mpr ⟨hmem, by cases callback <;> first | rfl | contradiction⟩

/-- A listener that has heard of nothing has not heard of an end. -/
theorem not_mem_of_heard_nil (h : heard queued = []) {callback : Callback}
    (houtcome : callback.outcome?.isSome = true) : callback ∉ queued := by
  intro hmem
  have hheard := mem_heard hmem houtcome
  rw [h] at hheard
  contradiction

theorem not_mem_of_heard_prepared {result : Value} (h : heard queued = [.prepared result])
    {callback : Callback} (houtcome : callback.outcome?.isSome = true) : callback ∉ queued := by
  intro hmem
  have hheard := mem_heard hmem houtcome
  rw [h, List.mem_singleton] at hheard
  rw [hheard] at houtcome
  contradiction

/-- Nothing is queued behind a last callback. -/
theorem last (h : Life phase queued) {before after : List Callback} {callback : Callback}
    (hsplit : queued = before ++ callback :: after) (houtcome : callback.outcome?.isSome = true) :
    after = [] := by
  have hmem : callback ∈ queued := by simp [hsplit]
  -- the listener hears of one end, and that is the last thing that was queued
  by_contra hafter
  cases h with
  | submitted h => exact not_mem_of_heard_nil h houtcome hmem
  | prepared h => exact not_mem_of_heard_prepared h houtcome hmem
  | withdrawn h =>
    rcases h with h | ⟨result, h⟩
    · exact not_mem_of_heard_nil h houtcome hmem
    · exact not_mem_of_heard_prepared h houtcome hmem
  | refused h =>
    exact not_mem_of_heard_nil h houtcome (mem_of_append_singleton_eq hsplit hafter)
  | ended h =>
    exact not_mem_of_heard_prepared h houtcome (mem_of_append_singleton_eq hsplit hafter)

end Life

/-! ## The invariant -/

/-- An operation that exists has a delivery, which is in order, and was queued what its phase
admits. -/
structure OperationShare.Alive (id : OperationId) (d : OperationShare) (delivery : Delivery) : Prop where
  found : d.view.delivery = some delivery
  delivering : Delivering id delivery.mailbox d.frames d.queued d.turns
  life : Life (d.view.entry.map (·.phase)) d.queued

namespace OperationShare

/-- An operation that was just enlisted has an empty mailbox and no deliverer. -/
theorem alive_newcomer (id : OperationId) (listener : Listener) (operation : Operation)
    (payload : List UInt8) : ∃ delivery,
      Alive id (newcomer id listener operation payload) delivery := by
  refine ⟨_, rfl, ⟨rfl, ?_, fun _ => rfl, ?_, [], rfl⟩, .submitted rfl⟩
  · simp [newcomer, Frame.drains, Mailbox.idle]
  · simp [newcomer, Frame.calls]

theorem owed_of_found {v : View} {delivery : Delivery} (h : v.delivery = some delivery) :
    v.owed = !delivery.mailbox.delivering := by
  rw [View.owed, h]

end OperationShare

/-- Foreign code that answers leaves a delivery as it was, but for the callback that it is done with. -/
theorem Delivering.resume {id : OperationId} {m : Mailbox Callback} {before after : List Frame}
    {queued : List Callback} {turns : List Turn} {u : Upcall} {frames : List Frame}
    (hresumes : u.Resumes frames) (hu : u.about id = true)
    (h : Delivering id m (before ++ [.inside u] ++ after) queued turns) :
    Delivering id m (before ++ frames ++ after) queued
      (turns ++ (u.callback?.map Turn.ended).toList) := by
  cases hresumes with
  | @called i callback panicked =>
    obtain rfl : i = id := of_decide_eq_true hu
    exact h.finish
  | observed => contradiction
  | told =>
    show Delivering id m (before ++ [] ++ after) queued (turns ++ [])
    rw [List.append_nil turns]
    exact h.quiet [] (by simp [Frame.calls, Frame.drains]) (by simp)
  | _ =>
    show Delivering id m (before ++ _ ++ after) queued (turns ++ [])
    rw [List.append_nil turns]
    exact h.quiet _ (by simp [Frame.calls, Frame.drains]) (by simp [Frame.calls, Frame.drains])

/-- A call out begins, and with it a callback where it makes one. -/
theorem Delivering.raise {id : OperationId} {m : Mailbox Callback} {before after : List Frame}
    {queued : List Callback} {turns : List Turn} {u : Upcall} (hu : u.about id = true)
    (h : Delivering id m (before ++ [.todo (.raise u)] ++ after) queued turns) :
    Delivering id m (before ++ [.inside u] ++ after) queued
      (turns ++ ([u].filterMap Upcall.callback?).map .began) := by
  cases u with
  | observe o => contradiction
  | notify i callback =>
    obtain rfl : i = id := of_decide_eq_true hu
    exact h.start
  | send m =>
    have hquiet := h.quiet [.inside (.send m)] (by simp [Frame.calls, Frame.drains])
      (by simp [Frame.calls, Frame.drains])
    simpa [List.filterMap_cons, Upcall.callback?] using hquiet
  | outcome i tag o =>
    have hquiet := h.quiet [.inside (.outcome i tag o)] (by simp [Frame.calls, Frame.drains])
      (by simp [Frame.calls, Frame.drains])
    simpa [List.filterMap_cons, Upcall.callback?] using hquiet

/-- Whoever queues a callback is itself no deliverer and calls nobody, and leaves the mailbox with a
deliverer. -/
theorem Delivering.posted {id : OperationId} {v : View} {t : Task} {delivery : Delivery}
    (found : v.delivery = some delivery) {before after : List Frame} {queued : List Callback}
    {turns : List Turn}
    (h : Delivering id delivery.mailbox (before ++ heldFor id t ++ after) queued turns)
    (ht : (Frame.todo t).calls id = false ∧ (Frame.todo t).drains id = false)
    (callback : Callback) :
    ∃ delivery', (v.post callback).delivery = some delivery' ∧
      Delivering id delivery'.mailbox (before ++ Client.drainIf id v.owed ++ after)
        (queued ++ [callback]) turns := by
  refine ⟨_, by rw [View.post, found, Option.map_some], ?_⟩
  rw [OperationShare.owed_of_found found]
  exact h.post (fun _ hf => mem_heldFor hf ▸ ht) callback

/-- No move disturbs a delivery: what is queued is called in turn, by one deliverer, and nothing is lost
between the mailbox and the listener. -/
theorem Touch.delivering {id : OperationId} {v v' : View} {t : Task} {y : Yield}
    (touch : Touch id v t v' y) (hknown : y.enlisted = false) {delivery : Delivery}
    (found : v.delivery = some delivery) {before after : List Frame} {queued : List Callback}
    {turns : List Turn}
    (hroom : t = .drain id →
      (before ++ after).countP (Frame.calls id) ≤ (before ++ after).countP (Frame.drains id))
    (h : Delivering id delivery.mailbox (before ++ heldFor id t ++ after) queued turns) :
    ∃ delivery', v'.delivery = some delivery' ∧
      Delivering id delivery'.mailbox (before ++ y.frames ++ after) (queued ++ y.queued)
        (turns ++ (y.began.filterMap Upcall.callback?).map .began) := by
  -- only a call out that begins adds to the turns, and only the last case makes one
  cases touch with
  | enlisted => contradiction
  | aside hframe hcause =>
    have hheld : heldFor id t = [] := List.filter_cons_of_neg (Bool.eq_false_iff.mp hframe)
    exact ⟨delivery, found, by simpa using h.quiet [] (by simp [hheld]) (by simp)⟩
  | admitted | late | decisionSent | unresolved | withdrawn =>
    exact ⟨delivery, found, by simpa using h.move [] ⟨rfl, rfl⟩ (by simp)⟩
  | asked hhandle hasked =>
    simp only [List.append_nil, List.filterMap_nil, List.map_nil]
    exact ⟨delivery, found, h.move _ ⟨rfl, rfl⟩ (by simp [Frame.calls, Frame.drains])⟩
  | claimed hentry hphase hdecision =>
    simp only [List.append_nil, List.filterMap_nil, List.map_nil]
    exact ⟨delivery, found, h.move _ ⟨rfl, rfl⟩ (by simp [Frame.calls, Frame.drains])⟩
  | @accepted entry result hentry hphase =>
    simp only [List.filterMap_nil, List.map_nil, List.append_nil]
    exact h.posted found ⟨rfl, rfl⟩ (.prepared result)
  | @finished entry outcome kind hentry hallows =>
    simp only [List.filterMap_nil, List.map_nil, List.append_nil]
    exact h.posted found ⟨rfl, rfl⟩ outcome.callback
  | @reported entry severity text hentry =>
    simp only [List.filterMap_nil, List.map_nil, List.append_nil]
    exact h.posted found ⟨rfl, rfl⟩ (.report severity text)
  | @swept entry hentry =>
    simp only [List.filterMap_nil, List.map_nil, List.append_nil]
    exact h.posted found ⟨rfl, rfl⟩ (.failed .channelClosed)
  | @released delivery' hdelivery hqueue =>
    obtain rfl := Option.some.inj (hdelivery.symm.trans found)
    have hheld : heldFor id (.drain id) = [.todo (.drain id)] := by simp [heldFor, Frame.about]
    rw [hheld] at h
    exact ⟨_, rfl, by simpa using h.release hqueue (hroom rfl)⟩
  | @popped delivery' callback rest hdelivery hqueue =>
    obtain rfl := Option.some.inj (hdelivery.symm.trans found)
    have hheld : heldFor id (.drain id) = [.todo (.drain id)] := by simp [heldFor, Frame.about]
    rw [hheld] at h
    simp only [List.append_nil, List.filterMap_nil, List.map_nil]
    exact ⟨_, rfl, h.pop hqueue (hroom rfl)⟩
  | undelivered hdelivery => cases hdelivery.symm.trans found
  | @called callback panicked =>
    simp only [List.append_nil, List.filterMap_nil, List.map_nil]
    refine ⟨delivery, found, h.move _ ⟨rfl, rfl⟩ ?_⟩
    cases callback.outcome? <;> simp [Frame.calls, Frame.drains]
  | @resolved delivery' outcome hdelivery =>
    obtain rfl := Option.some.inj (hdelivery.symm.trans found)
    simp only [List.append_nil, List.filterMap_nil, List.map_nil]
    exact ⟨_, rfl, h.move _ ⟨rfl, rfl⟩ (by simp [Frame.calls, Frame.drains])⟩
  | @subscribed delivery' tag hdelivery =>
    obtain rfl := Option.some.inj (hdelivery.symm.trans found)
    simp only [List.append_nil, List.filterMap_nil, List.map_nil]
    refine ⟨_, rfl, h.move _ ⟨rfl, rfl⟩ ?_⟩
    cases (delivery'.outcome.subscribe tag).2 <;> simp [Frame.calls, Frame.drains]
  | @raised u hu =>
    have hheld : heldFor id (.raise u) = [.todo (.raise u)] := List.filter_cons_of_pos hu
    rw [hheld] at h
    rw [List.append_nil]
    exact ⟨delivery, found, h.raise hu⟩

/-- No move queues a callback out of place: a preparation comes first, then an end, and nothing behind
it. -/
theorem Touch.life {id : OperationId} {v v' : View} {t : Task} {y : Yield}
    (touch : Touch id v t v' y) (hknown : y.enlisted = false) {queued : List Callback}
    (h : Life (v.entry.map (·.phase)) queued) :
    Life (v'.entry.map (·.phase)) (queued ++ y.queued) := by
  cases touch with
  | enlisted => contradiction
  | withdrawn hentry => simpa using h.withdraw (by simp [hentry])
  | claimed hentry hphase hdecision => simpa [hentry] using h
  | @accepted entry result hentry hphase =>
    simp only [hentry, Option.map_some, hphase] at h
    exact h.accept result
  | @finished entry outcome kind hentry hallows =>
    simp only [hentry, Option.map_some] at h
    exact h.finish hallows
  | @reported entry severity text hentry => exact h.report (by simp [hentry]) severity text
  | @swept entry hentry =>
    simp only [hentry, Option.map_some] at h
    exact @Life.finish _ _ h (.failed .channelClosed) h.allows_failed
  | _ => simpa using h

namespace OperationShare

/-- Both hold after any step that concerns the operation. -/
theorem Alive.step {id : OperationId} {d d' : OperationShare} {delivery : Delivery}
    (h : Alive id d delivery) (hone : d.enlistings = 1) (hone' : d'.enlistings = 1)
    (step : Step id d d') : ∃ delivery', Alive id d' delivery' := by
  obtain ⟨found, delivering, life⟩ := h
  cases step with
  | answered u a hu => exact ⟨delivery, found, delivering.resume (u.resumes a) hu, life⟩
  | moved touch hroom =>
    have hknown := unenlisted hone hone'
    obtain ⟨delivery', found', delivering'⟩ := touch.delivering hknown found hroom delivering
    exact ⟨delivery', found', delivering', touch.life hknown life⟩

end OperationShare

/-! ## Every schedule -/

/-- The listener is inside no more calls than there are threads that call it. -/
theorem length_running_le (id : OperationId) (l : List Frame) :
    (l.filterMap (Frame.running? id)).length ≤ l.countP (Frame.calls id) := by
  induction l with
  | nil => exact Nat.le_refl _
  | cons f rest ih =>
    rw [List.filterMap_cons, List.countP_cons]
    by_cases hf : f.calls id = true
    · rw [if_pos hf]
      split
      · omega
      · rw [List.length_cons]
        omega
    · rw [Frame.running?_of_silent (Bool.eq_false_iff.mpr hf), if_neg hf]
      exact ih

namespace ClientThreads

/-- The callbacks of an operation that began, first to last. -/
def calls (s : ClientThreads) (id : OperationId) : List Callback := (s.turns id).filterMap Turn.begun?

/-- After every schedule an operation is unknown, or its delivery and its callbacks are in order. -/
theorem alive_run (config : Config) (schedule : List Choice) (id : OperationId)
    (hgiven : (run config schedule).given.length < 2 ^ 64 - 1) :
    (run config schedule).share id = .blank ∨
      ∃ delivery, ((run config schedule).share id).Alive id delivery := by
  refine (share_induction (P := fun d => ∃ delivery, d.Alive id delivery)
    (OperationShare.alive_newcomer id) (fun d d' h hone hone' step => ?_) schedule
    (count_given_le config schedule id hgiven)).imp_right And.right
  obtain ⟨delivery, halive⟩ := h
  exact halive.step hone hone' step

/-- Nobody has been called about an operation that there is nothing to know of. -/
theorem calls_of_blank {s : ClientThreads} {id : OperationId} (h : s.share id = .blank) :
    s.calls id = [] := by
  have hturns : s.turns id = [] := congrArg OperationShare.turns h
  rw [calls, hturns]
  rfl

/-- Only what was queued is called, and in the order in which it was queued. -/
theorem calls_prefix_queued (config : Config) (schedule : List Choice) (id : OperationId)
    (hgiven : (run config schedule).given.length < 2 ^ 64 - 1) :
    (run config schedule).calls id <+: (run config schedule).queued id := by
  rcases alive_run config schedule id hgiven with hblank | ⟨delivery, found, delivering, life⟩
  · rw [calls_of_blank hblank]
    exact List.nil_prefix
  · refine ⟨((run config schedule).share id).frames.filterMap (Frame.popped? id) ++
      delivery.mailbox.queue, ?_⟩
    rw [← List.append_assoc]
    exact delivering.flow.symm

/-- What every caller may rely on about the callbacks of an operation. -/
structure CallbacksSafe (s : ClientThreads) (id : OperationId) : Prop where
  /-- The listener hears a prefix of prepared and complete, of prepared and failed, or of failed. -/
  sequence : ∃ result value failure,
    heard (s.calls id) <+: [.prepared result, .complete value] ∨
      heard (s.calls id) <+: [.prepared result, .failed failure] ∨
        heard (s.calls id) <+: [.failed failure]
  /-- Callbacks, reports among them, run one at a time: each begins after the one before has ended. -/
  alternating : ∃ (done : List Callback) (running : Option Callback),
    s.turns id = done.flatMap Turn.whole ++ running.toList.map .began
  /-- None begins after the one that ends the operation. -/
  final : ∀ before after callback, s.calls id = before ++ callback :: after →
    callback.outcome?.isSome = true → after = []

/-- **Callbacks are safe under every interleaving**, for every operation and as long as identifiers do
not wrap. -/
theorem callbacks_safe (config : Config) (schedule : List Choice) (id : OperationId)
    (hgiven : (run config schedule).given.length < 2 ^ 64 - 1) :
    (run config schedule).CallbacksSafe id := by
  obtain ⟨rest, hrest⟩ := calls_prefix_queued config schedule id hgiven
  rcases alive_run config schedule id hgiven with hblank | ⟨delivery, found, delivering, life⟩
  · have hturns : (run config schedule).turns id = [] := congrArg OperationShare.turns hblank
    have hcalls : (run config schedule).calls id = [] := by
      rw [calls, hturns]
      rfl
    refine ⟨⟨.undefined, .undefined, .channelClosed, Or.inl ?_⟩, ⟨[], none, hturns⟩, ?_⟩
    · rw [hcalls]
      exact List.nil_prefix
    · intro before after callback hsplit
      rw [hcalls] at hsplit
      exact absurd hsplit (by simp)
  · refine ⟨?_, ?_, fun before after callback hsplit houtcome => ?_⟩
    · obtain ⟨result, value, failure, h⟩ := life.heard_prefix
      have hpre : heard ((run config schedule).calls id) <+:
          heard ((run config schedule).share id).queued := by
        refine ⟨heard rest, ?_⟩
        rw [← heard_append, hrest]
        rfl
      exact ⟨result, value, failure, h.imp hpre.trans (Or.imp hpre.trans hpre.trans)⟩
    · obtain ⟨done, hdone⟩ := delivering.turned
      have hlength : (((run config schedule).share id).frames.filterMap
          (Frame.running? id)).length ≤ 1 :=
        Nat.le_trans (length_running_le id _)
          (Nat.le_trans delivering.busy (by rw [delivering.token]; split <;> omega))
      -- one deliverer at most, and so one callback that is running
      rcases hrunning : ((run config schedule).share id).frames.filterMap (Frame.running? id) with
        _ | ⟨running, _ | ⟨second, others⟩⟩
      · exact ⟨done, none, by rw [hrunning] at hdone; exact hdone⟩
      · exact ⟨done, some running, by rw [hrunning] at hdone; exact hdone⟩
      · rw [hrunning] at hlength
        exact absurd hlength (by simp)
    · rw [hsplit, List.append_assoc, List.cons_append] at hrest
      exact (List.append_eq_nil_iff.mp (life.last hrest.symm houtcome)).1

/-- An operation that is completed by one thread while another is still telling its listener that it
is prepared. -/
def overlap : List Choice :=
  [.join, .ask 0 (.submit true (.recorder "") ⟨.undefined, [], .discard⟩), .move 0, .move 0, .move 0,
    .move 0, .answer 0 .returned, .move 0, .answer 0 (.sent (.ok ())), .move 0,
    .ask 0 (.deliver (.prepared ⟨1⟩ .undefined)), .move 0, .move 0, .move 0, .move 0,
    .answer 0 .returned, .move 0, .move 0,
    .join, .ask 1 (.deliver (.completed ⟨1⟩ .undefined)), .move 1, .move 1, .move 1, .move 1,
    .answer 1 .returned,
    .answer 0 .returned, .move 0, .move 0, .move 0, .answer 0 .panicked, .move 0, .move 0, .move 0]

/-- In the overlap both callbacks are made, the second by the thread that made the first. -/
theorem callbacks_safe_of_overlap :
    (run {} overlap).given.length < 2 ^ 64 - 1 ∧ ((run {} overlap).calls ⟨1⟩).length = 2 ∧
      (run {} overlap).CallbacksSafe ⟨1⟩ := by
  have hgiven : (run {} overlap).given.length < 2 ^ 64 - 1 := by decide +kernel
  exact ⟨hgiven, by decide +kernel, callbacks_safe {} overlap ⟨1⟩ hgiven⟩

end ClientThreads

end TwoPhase
