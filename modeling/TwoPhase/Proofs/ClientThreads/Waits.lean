import TwoPhase.Initiator.PreparedWait
import TwoPhase.Proofs.ClientThreads.Histories
import TwoPhase.Proofs.ClientThreads.Prospects
/-
Callers that wait for their operation to be prepared.

A waiter is a listener with a slot of its own, and the slot keeps the first handle that reaches it. So what
the waiter gets is decided by the first callback that its operation makes, which is the first one that was
queued, which is what the prospect of the operation says. The callbacks of an operation may be late, since
they are made outside of every lock; where nothing of the operation is under way they are all made, and the
slot is filled if and only if the operation is submitted no more.
-/

set_option autoImplicit false

namespace TwoPhase

open Client (Task Frame Upcall Answer Event)

/-! ## Slots -/

/-- The handle that a callback puts into the slot of its waiter, if the slot is vacant. -/
def Callback.handle? (id : OperationId) : Callback → Option Handle
  | .prepared _ => some (.live id)
  | .failed f => some (.failed id f)
  | _ => none

namespace PreparedSlot

theorem handle_fill (s : PreparedSlot) (h : Handle) : (s.fill h).handle = s.handle.or (some h) := by
  unfold fill
  cases hs : s.handle with
  | none => rfl
  | some first =>
    rw [hs]
    rfl

theorem handle_notify (s : PreparedSlot) (id : OperationId) (callback : Callback) :
    (s.notify id callback).handle = s.handle.or (callback.handle? id) := by
  cases callback with
  | prepared result => exact s.handle_fill (.live id)
  | failed f => exact s.handle_fill (.failed id f)
  | _ => exact (Option.or_none).symm

/-- **The first handle stays**: a slot holds what it held before, or the first handle that a callback of
its operation has for it. -/
theorem handle_foldl (id : OperationId) (callbacks : List Callback) (s : PreparedSlot) :
    (callbacks.foldl (fun slot callback => slot.notify id callback) s).handle =
      s.handle.or (callbacks.findSome? (Callback.handle? id)) := by
  induction callbacks generalizing s with
  | nil => exact (Option.or_none).symm
  | cons callback rest ih =>
    rw [List.foldl_cons, ih, handle_notify, Option.or_assoc, List.findSome?_cons]
    cases callback.handle? id <;> rfl

theorem wait_of_handle {s : PreparedSlot} {h : Handle} (hs : s.handle = some h) (bound : Option Span)
    (arrivals : List Arrival) : (s.wait bound arrivals).1 = some (.ok h) := by
  rw [wait_of_filled hs]

theorem interrupted_notify (s : PreparedSlot) (id : OperationId) (callback : Callback) :
    (s.notify id callback).interrupted = s.interrupted := by
  have hfill (h : Handle) : (s.fill h).interrupted = s.interrupted := by
    unfold fill
    cases s.handle <;> rfl
  cases callback with
  | prepared result => exact hfill (.live id)
  | failed f => exact hfill (.failed id f)
  | _ => rfl

/-- A wait that nothing interrupts and that has no bound ends when there is a handle. -/
theorem wait_of_calm {s : PreparedSlot} (hs : s.interrupted = false) :
    (s.wait none []).1 = s.handle.map .ok := by
  cases hhandle : s.handle with
  | some h => exact wait_of_handle hhandle none []
  | none =>
    show s.poll.1.or none = none
    unfold poll
    rw [hhandle, hs]
    rfl

end PreparedSlot

/-- What a listener is to hear decides which handle the slot of a waiter gets first. -/
theorem findSome_heard (id : OperationId) (callbacks : List Callback) :
    (heard callbacks).findSome? (Callback.handle? id) = callbacks.findSome? (Callback.handle? id) := by
  induction callbacks with
  | nil => rfl
  | cons callback rest ih =>
    rw [← List.singleton_append, heard_append, List.findSome?_append, List.findSome?_append, ih]
    cases callback <;> rfl

theorem Foretold.handle_eq {phase : Option Phase} {prospect : Prospect} {told : List Callback}
    (h : Foretold phase prospect told) (id : OperationId) :
    told.findSome? (Callback.handle? id) = prospect.handle? id := by
  cases h <;> rfl

/-! ## Waiters -/

/-- The callback that an event begins, with its operation. -/
def Client.Event.notice? : Event → Option (OperationId × Callback)
  | .began (.notify id callback) => some (id, callback)
  | _ => none

/-- The callbacks that began, with their operations. -/
def Mark.notices : Mark → List (OperationId × Callback)
  | moved _ shown => shown.filterMap Event.notice?
  | _ => []

namespace ClientThreads

/-- Whether a waiter is the listener of an operation. -/
def serves (s : ClientThreads) (n : Nat) (id : OperationId) : Bool :=
  (s.client.deliveries.get? id).any fun d => d.listener = .waiter n

/-- The operations that were submitted with a waiter as their listener. -/
def awaited (s : ClientThreads) (n : Nat) : List OperationId := s.client.deliveries.ids.filter (s.serves n)

/-- The slot of a waiter: it takes in every callback that began for an operation of the waiter. -/
def slot (s : ClientThreads) (n : Nat) : PreparedSlot :=
  ((s.past.flatMap Mark.notices).filter fun p => s.serves n p.1).foldl
    (fun slot p => slot.notify p.1 p.2) .vacant

/-- A waiter that was passed to one submission serves that operation alone. -/
theorem serves_iff {s : ClientThreads} {n : Nat} {id : OperationId} (hawaited : s.awaited n = [id])
    (i : OperationId) : s.serves n i = true ↔ i = id := by
  constructor
  · intro hserves
    have hids : i ∈ s.client.deliveries.ids := by
      rw [Table.mem_ids]
      cases hdelivery : s.client.deliveries.get? i with
      | none => simp [serves, hdelivery] at hserves
      | some d => rfl
    have hmem : i ∈ s.awaited n := List.mem_filter.mpr ⟨hids, hserves⟩
    rw [hawaited] at hmem
    exact List.mem_singleton.mp hmem
  · rintro rfl
    have hmem : i ∈ s.awaited n := by
      rw [hawaited]
      exact List.mem_singleton_self i
    exact (List.mem_filter.mp hmem).2

theorem filter_notices (events : List Event) (id : OperationId) :
    (events.filterMap Event.notice?).filter (fun p => p.1 = id) =
      ((events.filterMap (Event.begunAbout id)).filterMap Upcall.callback?).map (id, ·) := by
  induction events with
  | nil => rfl
  | cons e rest ih =>
    rw [← List.singleton_append, List.filterMap_append, List.filter_append, List.filterMap_append,
      List.filterMap_append, List.map_append, ih]
    congr 1
    cases e with
    | began u =>
      cases u with
      | notify i callback => by_cases hid : i = id <;> simp [Event.notice?, Event.begunAbout,
          Upcall.about, Upcall.callback?, hid]
      | send m => by_cases hid : m.id = id <;> simp [Event.notice?, Event.begunAbout, Upcall.about,
          Upcall.callback?, hid, List.filterMap_cons]
      | outcome i tag o => by_cases hid : i = id <;> simp [Event.notice?, Event.begunAbout,
          Upcall.about, Upcall.callback?, hid, List.filterMap_cons]
      | observe o => rfl
    | _ => rfl

/-- The callbacks of an operation are its share of all callbacks. -/
theorem notices_of (s : ClientThreads) (id : OperationId) :
    (s.past.flatMap Mark.notices).filter (fun p => p.1 = id) = (s.calls id).map (id, ·) := by
  unfold calls turns
  generalize s.past = past
  induction past with
  | nil => rfl
  | cons mark rest ih =>
    rw [List.flatMap_cons, List.flatMap_cons, List.filter_append, List.filterMap_append,
      List.map_append, ih]
    congr 1
    cases mark with
    | moved t shown =>
      show (shown.filterMap Event.notice?).filter _ = List.map _ (List.filterMap Turn.begun?
        (((shown.filterMap (Event.begunAbout id)).filterMap Upcall.callback?).map .began))
      rw [filter_notices, List.filterMap_map]
      congr 1
      exact List.filterMap_some.symm
    | enlisted i => rfl
    | answered u a =>
      show [] = List.map _ (List.filterMap Turn.begun?
        (if u.about id then (u.callback?.map Turn.ended).toList else []))
      by_cases hu : u.about id = true
      · rw [if_pos hu]
        cases u.callback? <;> rfl
      · rw [if_neg hu]
        rfl

/-- So the slot of its waiter takes in the callbacks of an operation, and nothing else. -/
theorem slot_eq {s : ClientThreads} {n : Nat} {id : OperationId} (hawaited : s.awaited n = [id]) :
    s.slot n = (s.calls id).foldl (fun slot callback => slot.notify id callback) .vacant := by
  have hserves : (fun p : OperationId × Callback => s.serves n p.1) = fun p => decide (p.1 = id) := by
    funext p
    rw [Bool.eq_iff_iff, decide_eq_true_iff]
    exact serves_iff hawaited p.1
  unfold slot
  rw [hserves, notices_of, List.foldl_map]

theorem handle_slot {s : ClientThreads} {n : Nat} {id : OperationId} (hawaited : s.awaited n = [id]) :
    (s.slot n).handle = (s.calls id).findSome? (Callback.handle? id) := by
  rw [slot_eq hawaited, PreparedSlot.handle_foldl]
  rfl

/-! ## What every waiter may rely on -/

/-- What is known of an operation whose submitter was told that it was taken. -/
structure Taken (s : ClientThreads) (id : OperationId) (delivery : Delivery) (prospect : Prospect) :
    Prop where
  documented : s.Documented id delivery
  prospect_eq : s.prospect id = some prospect
  foretold : Foretold (s.client.phaseOf id) prospect (heard (s.queued id))

theorem taken_run (config : Config) (schedule : List Choice) {id : OperationId}
    (hgiven : (run config schedule).given.length < 2 ^ 64 - 1)
    (hok : .ok id ∈ (run config schedule).answers id) :
    ∃ delivery prospect, (run config schedule).Taken id delivery prospect := by
  rcases documented config schedule id hgiven with hblank | ⟨delivery, documented⟩
  · have hnone : (run config schedule).answers id = [] := congrArg OperationShare.answers hblank
    rw [hnone] at hok
    contradiction
  have hanswered : ((run config schedule).share id).frames.countP (Frame.submits id) +
      ((run config schedule).answers id).length = 1 := documented.accounted.answered
  -- it was told that it was taken, and nothing else
  have hunrefused : ¬ (run config schedule).Refused id := by
    rintro ⟨e, he⟩
    cases eq_of_length_le_one (by omega) hok he
  have foreseen := (foretold_run config schedule id hgiven).resolve_left hunrefused
  have hshare : (run config schedule).share id ≠ .blank := fun hblank =>
    List.ne_nil_of_mem hok (congrArg OperationShare.answers hblank)
  obtain ⟨prospect, hprospect, foretold⟩ :=
    foreseen.known (mem_given_of_share config schedule hgiven hshare)
  exact ⟨delivery, prospect, documented, hprospect, foretold⟩

namespace Taken

variable {s : ClientThreads} {id : OperationId} {delivery : Delivery} {prospect : Prospect} {n : Nat}

/-- Whatever handle the callbacks have for the slot is the one that the prospect promises. -/
theorem handle_of_calls (h : s.Taken id delivery prospect) {handle : Handle}
    (hcalls : (s.calls id).findSome? (Callback.handle? id) = some handle) :
    prospect.handle? id = some handle := by
  obtain ⟨rest, hrest⟩ := h.documented.called
  rw [← h.foretold.handle_eq id, findSome_heard, ← hrest, List.findSome?_append, hcalls]
  rfl

theorem promised (h : s.Taken id delivery prospect) (hawaited : s.awaited n = [id]) {handle : Handle}
    (hslot : (s.slot n).handle = some handle) : prospect.handle? id = some handle :=
  h.handle_of_calls ((handle_slot hawaited).symm.trans hslot)

/-- Where nothing is under way the slot holds just what the prospect promises. -/
theorem handle_of_quiet (h : s.Taken id delivery prospect) (hawaited : s.awaited n = [id])
    (hquiet : s.Quiet id) : (s.slot n).handle = prospect.handle? id := by
  have hcalls : s.calls id = s.queued id := h.documented.alive.calls_of_quiet hquiet
  rw [handle_slot hawaited, hcalls, ← h.foretold.handle_eq id, findSome_heard]

/-- The handle of an operation that was prepared shows the result with which it was prepared. -/
theorem result (h : s.Taken id delivery prospect) {result : Value}
    (hprospect : prospect = .prepared result) : (Handle.live id).preparedResult s.client = result := by
  subst hprospect
  have hmem := h.foretold.mem_of_prepared
  obtain ⟨handle, hhandle⟩ := Option.ne_none_iff_exists'.mp
    (h.documented.accounted.handed result (List.mem_filter.mp hmem).1)
  -- the handle has a result that was queued, and there was only one
  have hgranted := h.foretold.result_of_mem
    (List.mem_filter.mpr ⟨h.documented.released.granted handle hhandle, rfl⟩)
  obtain rfl : result = handle.result := Prospect.prepared.inj hgranted
  show ((s.client.handles.get? id).map (·.result)).getD .undefined = handle.result
  rw [show s.client.handles.get? id = some handle from hhandle]
  rfl

/-- Whoever is called about a failure before the operation was prepared is told the end of it. -/
theorem finals_of_failure (h : s.Taken id delivery prospect) {f : Failure}
    (hfailure : prospect.failure? = some f)
    (hcalls : (s.calls id).findSome? (Callback.handle? id) ≠ none) :
    finals (s.calls id) = [.failed f] := by
  obtain ⟨rest, hrest⟩ := h.documented.called
  obtain ⟨-, htold⟩ := h.foretold.told_of_failure hfailure
  rw [← hrest, heard_append] at htold
  have hheard : heard (s.calls id) ≠ [] := by
    intro hnone
    rw [← findSome_heard, hnone] at hcalls
    contradiction
  rw [← OperationShare.finals_heard]
  rcases List.append_eq_singleton_iff.mp htold with ⟨hnil, -⟩ | ⟨hone, -⟩
  · exact absurd hnil hheard
  · rw [hone]
    rfl

end Taken

/-- What a caller may rely on that waits for its operation to be prepared. -/
structure WaiterReleased (config : Config) (schedule : List Choice) (n : Nat) (id : OperationId) :
    Prop where
  /-- The slot stays vacant as long as the operation is submitted. -/
  patient : ((run config schedule).slot n).isReady = true →
    (run config schedule).client.phaseOf id ≠ some .submitted
  /-- Whatever takes the operation out of that phase fills the slot. -/
  ready : (run config schedule).Quiet id →
    (((run config schedule).slot n).isReady = true ↔
      (run config schedule).client.phaseOf id ≠ some .submitted)
  /-- An operation that was prepared is given a live handle, with the first result that it got. -/
  live : ∀ result handle, (run config schedule).prospect id = some (.prepared result) →
    ((run config schedule).slot n).handle = some handle →
      handle = .live id ∧ handle.preparedResult (run config schedule).client = result
  /-- An operation that failed before is given a handle that shows its end in every way. -/
  failed : ∀ prospect f handle, (run config schedule).prospect id = some prospect →
    prospect.failure? = some f → ((run config schedule).slot n).handle = some handle →
      handle = .failed id f ∧ handle.failure? = some f ∧
        handle.preparedResult (run config schedule).client = Value.failed f.message ∧
        handle.outcome? (run config schedule).client = some (.failed f) ∧
        finals ((run config schedule).calls id) = [.failed f] ∧
        ((run config schedule).Quiet id →
          ((run config schedule).client.cell id).outcome = some (.failed f))
  /-- Every retrieval returns that handle, whether or not it was interrupted, and whatever is to come. -/
  retrieved : ∀ handle, ((run config schedule).slot n).handle = some handle →
    ∀ interrupted bound arrivals,
      (PreparedSlot.wait ⟨((run config schedule).slot n).handle, interrupted⟩ bound arrivals).1 =
        some (.ok handle)
  /-- The handle does not change any more, and neither does the result that it shows. -/
  kept : ∀ more, (run config (schedule ++ more)).given.length < 2 ^ 64 - 1 →
    (run config (schedule ++ more)).awaited n = [id] →
      ∀ handle, ((run config schedule).slot n).handle = some handle →
        ((run config (schedule ++ more)).slot n).handle = some handle ∧
          handle.preparedResult (run config (schedule ++ more)).client =
            handle.preparedResult (run config schedule).client

/-- A slot that holds a handle keeps it, and the handle shows the same result from then on. -/
theorem handle_kept (config : Config) (schedule more : List Choice) {n : Nat} {id : OperationId}
    (hgiven : (run config schedule).given.length < 2 ^ 64 - 1)
    (hok : .ok id ∈ (run config schedule).answers id)
    (hawaited : (run config schedule).awaited n = [id])
    (hgiven' : (run config (schedule ++ more)).given.length < 2 ^ 64 - 1)
    (hawaited' : (run config (schedule ++ more)).awaited n = [id]) {handle : Handle}
    (hhandle : ((run config schedule).slot n).handle = some handle) :
    ((run config (schedule ++ more)).slot n).handle = some handle ∧
      handle.preparedResult (run config (schedule ++ more)).client =
        handle.preparedResult (run config schedule).client := by
  have hpast := past_run config schedule more
  obtain ⟨delivery, prospect, taken⟩ := taken_run config schedule hgiven hok
  obtain ⟨delivery', prospect', taken'⟩ :=
    taken_run config (schedule ++ more) hgiven' ((answers_grow hpast id).subset hok)
  have hslot : ((run config (schedule ++ more)).slot n).handle = some handle := by
    obtain ⟨later, hlater⟩ := calls_grow hpast id
    rw [handle_slot hawaited', ← hlater, List.findSome?_append, ← handle_slot hawaited, hhandle]
    rfl
  refine ⟨hslot, ?_⟩
  have hpromised := taken.promised hawaited hhandle
  cases prospect with
  | pending => contradiction
  | prepared result =>
    obtain rfl := Option.some.inj hpromised
    -- the news was queued, and it is queued once
    have hmem := taken.foretold.mem_of_prepared
    have hmem' : .prepared result ∈ heard ((run config (schedule ++ more)).queued id) :=
      List.mem_filter.mpr ⟨(queued_grow hpast id).subset (List.mem_filter.mp hmem).1, rfl⟩
    rw [taken.result rfl, taken'.result (taken'.foretold.result_of_mem hmem')]
  | refused f =>
    obtain rfl := Option.some.inj hpromised
    rfl
  | swept =>
    obtain rfl := Option.some.inj hpromised
    rfl

/-- **Whatever happens to an operation releases the caller that waits for it to be prepared**, under every
interleaving, with the handle that tells what happened. -/
theorem waiter_released (config : Config) (schedule : List Choice) (n : Nat) (id : OperationId)
    (hgiven : (run config schedule).given.length < 2 ^ 64 - 1)
    (hok : .ok id ∈ (run config schedule).answers id)
    (hawaited : (run config schedule).awaited n = [id]) : WaiterReleased config schedule n id := by
  obtain ⟨delivery, prospect, taken⟩ := taken_run config schedule hgiven hok
  constructor
  case patient =>
    intro hready
    obtain ⟨handle, hhandle⟩ := Option.isSome_iff_exists.mp hready
    rw [← taken.foretold.handle_iff id, taken.promised hawaited hhandle]
    rfl
  case ready =>
    intro hquiet
    rw [← taken.foretold.handle_iff id, ← taken.handle_of_quiet hawaited hquiet]
    rfl
  case live =>
    intro result handle hprospect hhandle
    obtain rfl := Option.some.inj (taken.prospect_eq.symm.trans hprospect)
    obtain rfl := Option.some.inj (taken.promised hawaited hhandle)
    exact ⟨rfl, taken.result rfl⟩
  case failed =>
    intro prospect' f handle hprospect hfailure hhandle
    obtain rfl := Option.some.inj (taken.prospect_eq.symm.trans hprospect)
    have hpromised := taken.promised hawaited hhandle
    rw [Prospect.handle_of_failure hfailure] at hpromised
    obtain rfl := Option.some.inj hpromised
    have hfinals : finals ((run config schedule).calls id) = [.failed f] := by
      refine taken.finals_of_failure hfailure ?_
      rw [← handle_slot hawaited, hhandle]
      exact Option.some_ne_none _
    refine ⟨rfl, rfl, rfl, rfl, hfinals, fun hquiet => ?_⟩
    -- the listener was told, and where nothing is under way the cell knows what the listener was told
    have hcell := (settled_of_quiet config schedule id hgiven hok hquiet).2
    rw [hfinals, eq_comm, Option.toList_eq_singleton_iff] at hcell
    exact hcell
  case retrieved =>
    intro handle hhandle interrupted bound arrivals
    exact PreparedSlot.wait_of_handle (s := ⟨_, interrupted⟩) hhandle bound arrivals
  case kept =>
    intro more hgiven' hawaited' handle hhandle
    exact handle_kept config schedule more hgiven hok hawaited hgiven' hawaited' hhandle

/-- A caller that waits for an operation which is prepared, and is then taken by a sweep. -/
def patient : List Choice :=
  [.join, .ask 0 (.submit true (.waiter 0) ⟨.undefined, [], .discard⟩), .move 0, .move 0, .move 0,
    .move 0, .answer 0 .returned, .move 0, .answer 0 (.sent (.ok ())), .move 0,
    .ask 0 (.deliver (.prepared ⟨1⟩ .undefined)), .move 0, .move 0, .move 0, .move 0,
    .answer 0 .returned, .move 0, .move 0, .answer 0 .returned, .move 0, .move 0,
    .ask 0 .close, .move 0, .move 0, .move 0, .answer 0 .returned, .move 0, .move 0,
    .answer 0 .returned, .move 0, .move 0, .answer 0 .returned, .move 0, .move 0, .move 0]

theorem ok_of_any {answers : List (Except ClientError OperationId)} {id : OperationId}
    (h : answers.any (fun answer => answer.toOption == some id) = true) : .ok id ∈ answers := by
  obtain ⟨answer, hmem, hanswer⟩ := List.any_eq_true.mp h
  rcases answer with e | i
  · simp [Except.toOption] at hanswer
  · obtain rfl : i = id := by simpa [Except.toOption] using hanswer
    exact hmem

theorem waiter_released_of_patient :
    (run {} patient).given.length < 2 ^ 64 - 1 ∧ .ok ⟨1⟩ ∈ (run {} patient).answers ⟨1⟩ ∧
      (run {} patient).awaited 0 = [⟨1⟩] ∧ (run {} patient).frames.length = 0 ∧
      ((run {} patient).calls ⟨1⟩).length = 2 ∧ WaiterReleased {} patient 0 ⟨1⟩ := by
  have hgiven : (run {} patient).given.length < 2 ^ 64 - 1 := by decide +kernel
  have hok : .ok ⟨1⟩ ∈ (run {} patient).answers ⟨1⟩ := ok_of_any (by decide +kernel)
  have hawaited : (run {} patient).awaited 0 = [⟨1⟩] := by decide +kernel
  exact ⟨hgiven, hok, hawaited, by decide +kernel, by decide +kernel,
    waiter_released {} patient 0 ⟨1⟩ hgiven hok hawaited⟩

/-! ## What a blocking submission comes to -/

/-- How a blocking submission ends: as its submission does where that was refused, and otherwise as the wait
does that follows. Nothing, while it goes on. -/
def blocking (config : Config) (s : ClientThreads) (n : Nat) (id : OperationId) :
    Option (Except ClientError Handle) :=
  match (s.answers id).head? with
  | none => none
  | some (.error e) => some (.error e)
  | some (.ok _) =>
    ((s.slot n).wait config.prepareTimeout []).1.map fun
      | .ok handle => handle.orChannelLost id
      | .error e => .error (.wait e)

theorem answers_of_taken {s : ClientThreads} {id : OperationId} {delivery : Delivery}
    (documented : s.Documented id delivery) (hok : .ok id ∈ s.answers id) :
    s.answers id = [.ok id] := by
  have hanswered : (s.share id).frames.countP (Frame.submits id) + (s.answers id).length = 1 :=
    documented.accounted.answered
  obtain ⟨answer, hanswer⟩ := List.length_eq_one_iff.mp
    (Nat.le_antisymm (by omega) (List.length_pos_of_mem hok) : (s.answers id).length = 1)
  rw [hanswer] at hok ⊢
  rw [List.mem_singleton.mp hok]

theorem calm_slot (s : ClientThreads) (n : Nat) : (s.slot n).interrupted = false := by
  unfold slot
  generalize (s.past.flatMap Mark.notices).filter _ = notices
  suffices h : ∀ slot : PreparedSlot, slot.interrupted = false →
      (notices.foldl (fun slot p => slot.notify p.1 p.2) slot).interrupted = false from h _ rfl
  induction notices with
  | nil => exact fun _ h => h
  | cons p rest ih => exact fun slot h => ih _ (by rw [PreparedSlot.interrupted_notify, h])

/-- Without a bound a blocking submission waits for the slot, and makes of the handle what it is. -/
theorem blocking_eq {config : Config} (hbound : config.prepareTimeoutMillis = none) {s : ClientThreads}
    {n : Nat} {id : OperationId} (hanswers : s.answers id = [.ok id]) :
    s.blocking config n id = (s.slot n).handle.map (Handle.orChannelLost id) := by
  have hnone : config.prepareTimeout = none := by
    unfold Config.prepareTimeout
    rw [hbound]
    rfl
  unfold blocking
  rw [hanswers, hnone]
  show ((s.slot n).wait none []).1.map _ = _
  rw [PreparedSlot.wait_of_calm (s.calm_slot n)]
  cases (s.slot n).handle <;> rfl

/-- A submitter is told the identifier of its operation, or that the channel did not take it. -/
theorem answers_run (config : Config) (schedule : List Choice) (id : OperationId) :
    ∀ answer ∈ (run config schedule).answers id,
      answer = .ok id ∨ ∃ text, answer = .error (.channelUnavailable text) := by
  refine run_induction (P := fun s => ∀ answer ∈ s.answers id,
    answer = .ok id ∨ ∃ text, answer = .error (.channelUnavailable text)) (fun _ h => by contradiction)
    (fun s s' h step answer hanswer => ?_) schedule
  cases step with
  | join => exact h answer hanswer
  | ask r haway => exact h answer hanswer
  | answer u a =>
    rw [answers, List.flatMap_append] at hanswer
    exact h answer ((List.mem_append.mp hanswer).resolve_right List.not_mem_nil)
  | @move c past before after rest t =>
    obtain ⟨-, -, -, -, hanswers⟩ := marks_digest c t id
    rw [answers, List.flatMap_append, hanswers] at hanswer
    rcases List.mem_append.mp hanswer with hold | hnew
    · exact h answer hold
    · -- only the end of a submission tells its submitter anything
      have touch := c.perform_touch id t
      generalize (c.perform t).client.view id = v' at touch
      generalize c.yield t id = y at touch hnew
      cases touch with
      | admitted => exact Or.inl (List.mem_singleton.mp hnew)
      | withdrawn hentry => exact Or.inr ⟨_, List.mem_singleton.mp hnew⟩
      | _ => contradiction

/-- How a blocking submission tells the loss of the channel from a rejection. -/
structure LossDiscerned (config : Config) (schedule : List Choice) (n : Nat) (id : OperationId) :
    Prop where
  /-- A submission that is refused is not reported as lost. -/
  refusal : ∀ e, .error e ∈ (run config schedule).answers id → ∃ text, e = .channelUnavailable text
  /-- A submission that was taken ends as soon as the operation is submitted no more. -/
  ends : .ok id ∈ (run config schedule).answers id → (run config schedule).Quiet id →
    (run config schedule).client.phaseOf id ≠ some .submitted →
      ((run config schedule).blocking config n id).isSome = true
  /-- It ends with the live handle where the operation was prepared. -/
  prepared : .ok id ∈ (run config schedule).answers id → ∀ result answer,
    (run config schedule).prospect id = some (.prepared result) →
      (run config schedule).blocking config n id = some answer → answer = .ok (.live id)
  /-- It ends with the loss of the channel where a sweep was faster. -/
  swept : .ok id ∈ (run config schedule).answers id → ∀ answer,
    (run config schedule).prospect id = some .swept →
      (run config schedule).blocking config n id = some answer → answer = .error (.channelClosed id)
  /-- It ends with a handle that carries the failure where the operation failed, unless that failure says
  of itself that the channel was closed. -/
  rejected : .ok id ∈ (run config schedule).answers id → ∀ f answer,
    (run config schedule).prospect id = some (.refused f) →
      (run config schedule).blocking config n id = some answer →
        answer = if f.isChannelClosed then .error (.channelClosed id) else .ok (.failed id f)
  /-- So it ends with the loss of the channel for one of these two reasons only. -/
  lost : ∀ i, (run config schedule).blocking config n id = some (.error (.channelClosed i)) →
    i = id ∧ ((run config schedule).prospect id = some .swept ∨
      ∃ f, (run config schedule).prospect id = some (.refused f) ∧ f.isChannelClosed = true)

/-- Where a blocking submission ends, it makes of the promised handle what it is. -/
theorem blocking_run (config : Config) (schedule : List Choice) {n : Nat} {id : OperationId}
    (hgiven : (run config schedule).given.length < 2 ^ 64 - 1)
    (hbound : config.prepareTimeoutMillis = none)
    (hawaited : (run config schedule).awaited n = [id])
    (hok : .ok id ∈ (run config schedule).answers id) {answer : Except ClientError Handle}
    (hanswer : (run config schedule).blocking config n id = some answer) :
    ∃ prospect handle, (run config schedule).prospect id = some prospect ∧
      prospect.handle? id = some handle ∧ answer = handle.orChannelLost id := by
  obtain ⟨delivery, prospect, taken⟩ := taken_run config schedule hgiven hok
  rw [blocking_eq hbound (answers_of_taken taken.documented hok)] at hanswer
  obtain ⟨handle, hslot, rfl⟩ := Option.map_eq_some_iff.mp hanswer
  exact ⟨prospect, handle, taken.prospect_eq, taken.promised hawaited hslot, rfl⟩

/-- **A blocking submission reports the loss of the channel after a sweep, and after a failure that claims
it**; every other failure comes back as it is. -/
theorem loss_discerned (config : Config) (schedule : List Choice) (n : Nat) (id : OperationId)
    (hgiven : (run config schedule).given.length < 2 ^ 64 - 1)
    (hbound : config.prepareTimeoutMillis = none)
    (hawaited : (run config schedule).awaited n = [id]) : LossDiscerned config schedule n id := by
  have hanswers := answers_run config schedule id
  have promised (hok : .ok id ∈ (run config schedule).answers id) {prospect : Prospect}
      (hprospect : (run config schedule).prospect id = some prospect)
      {answer : Except ClientError Handle}
      (hanswer : (run config schedule).blocking config n id = some answer) :
      ∃ handle, prospect.handle? id = some handle ∧ answer = handle.orChannelLost id := by
    obtain ⟨_, handle, hsame, hhandle, rfl⟩ :=
      blocking_run config schedule hgiven hbound hawaited hok hanswer
    obtain rfl := Option.some.inj (hsame.symm.trans hprospect)
    exact ⟨handle, hhandle, rfl⟩
  constructor
  case refusal =>
    intro e he
    rcases hanswers _ he with hok | ⟨text, herror⟩
    · cases hok
    · exact ⟨text, Except.error.inj herror⟩
  case ends =>
    intro hok hquiet hphase
    obtain ⟨delivery, prospect, taken⟩ := taken_run config schedule hgiven hok
    rw [blocking_eq hbound (answers_of_taken taken.documented hok),
      taken.handle_of_quiet hawaited hquiet, Option.isSome_map]
    exact (taken.foretold.handle_iff id).mpr hphase
  case prepared =>
    intro hok result answer hprospect hanswer
    obtain ⟨handle, hhandle, rfl⟩ := promised hok hprospect hanswer
    obtain rfl := Option.some.inj hhandle
    rfl
  case swept =>
    intro hok answer hprospect hanswer
    obtain ⟨handle, hhandle, rfl⟩ := promised hok hprospect hanswer
    obtain rfl := Option.some.inj hhandle
    rfl
  case rejected =>
    intro hok f answer hprospect hanswer
    obtain ⟨handle, hhandle, rfl⟩ := promised hok hprospect hanswer
    obtain rfl := Option.some.inj hhandle
    rfl
  case lost =>
    intro i hlost
    have hok : .ok id ∈ (run config schedule).answers id := by
      cases hhead : ((run config schedule).answers id).head? with
      | none =>
        unfold blocking at hlost
        rw [hhead] at hlost
        contradiction
      | some first =>
        have hmem := List.mem_of_mem_head? (Option.mem_def.mpr hhead)
        rcases hanswers first hmem with rfl | ⟨text, rfl⟩
        · exact hmem
        · -- a refusal is not a loss
          unfold blocking at hlost
          rw [hhead] at hlost
          cases Option.some.inj hlost
    obtain ⟨prospect, handle, hprospect, hhandle, hanswer⟩ :=
      blocking_run config schedule hgiven hbound hawaited hok hlost
    rw [hprospect]
    cases prospect with
    | pending => contradiction
    | prepared result =>
      obtain rfl := Option.some.inj hhandle
      cases hanswer
    | refused f =>
      obtain rfl := Option.some.inj hhandle
      unfold Handle.orChannelLost at hanswer
      by_cases hclosed : f.isChannelClosed = true
      · simp only [Handle.failure?, if_pos hclosed, Except.error.injEq,
          ClientError.channelClosed.injEq] at hanswer
        exact ⟨hanswer, Or.inr ⟨f, rfl, hclosed⟩⟩
      · simp [Handle.failure?, hclosed] at hanswer
    | swept =>
      obtain rfl := Option.some.inj hhandle
      exact ⟨ClientError.channelClosed.inj (Except.error.inj hanswer), Or.inl rfl⟩

/-- A caller whose operation the participant rejects, with a failure of the kind that a closed channel
has. -/
def mistaken : List Choice :=
  [.join, .ask 0 (.submit true (.waiter 0) ⟨.undefined, [], .discard⟩), .move 0, .move 0, .move 0,
    .move 0, .answer 0 .returned, .move 0, .answer 0 (.sent (.ok ())), .move 0,
    .ask 0 (.deliver (.failed ⟨1⟩ ⟨.channelClosed, "no"⟩)), .move 0, .move 0, .move 0, .move 0,
    .answer 0 .returned, .move 0, .move 0, .answer 0 .returned, .move 0, .move 0, .move 0]

/-- **A rejection can pass for the loss of the channel.** Nothing was closed, and the caller is told that
the channel was; its failure, and the text of it, are gone. -/
theorem lost_while_open :
    (run {} mistaken).client.closed = false ∧ (run {} mistaken).frames.length = 0 ∧
      (run {} mistaken).prospect ⟨1⟩ = some (.refused ⟨.channelClosed, "no"⟩) ∧
      finals ((run {} mistaken).calls ⟨1⟩) = [.failed ⟨.channelClosed, "no"⟩] ∧
      (run {} mistaken).blocking {} 0 ⟨1⟩ = some (.error (.channelClosed ⟨1⟩)) :=
  ⟨by decide +kernel, by decide +kernel, by rfl, by rfl, by rfl⟩

theorem loss_discerned_of_mistaken :
    (run {} mistaken).given.length < 2 ^ 64 - 1 ∧ ({} : Config).prepareTimeoutMillis = none ∧
      (run {} mistaken).awaited 0 = [⟨1⟩] ∧ LossDiscerned {} mistaken 0 ⟨1⟩ := by
  have hgiven : (run {} mistaken).given.length < 2 ^ 64 - 1 := by decide +kernel
  have hawaited : (run {} mistaken).awaited 0 = [⟨1⟩] := by decide +kernel
  exact ⟨hgiven, rfl, hawaited, loss_discerned {} mistaken 0 ⟨1⟩ hgiven rfl hawaited⟩

end ClientThreads

end TwoPhase
