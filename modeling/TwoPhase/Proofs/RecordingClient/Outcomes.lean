import TwoPhase.Initiator.Handle
import TwoPhase.Proofs.RecordingClient.Labor
/-
One end for every operation at a recording client, and the same one for everyone.

What ends an operation is read off from outside: from the messages that were delivered, from the answers
of the channel and from the close. `RecordingClient.ruling` goes through the past with nothing else in
hand, and says where the operation must stand. The client keeps up with it (`Visited.level`), except for
the one cause that it may just have in hand, which stands on top of the stack. Between two actions
nothing is in hand, and what is known of operations without frames (`ClientThreads.settled_of_quiet`) is
about the ruling.
-/

set_option autoImplicit false

namespace TwoPhase

open Client (Task Frame Upcall Answer Event Cause)

/-! ## Where an operation must stand -/

/-- The cause that a message is for an operation. -/
def Inbound.cause? (id : OperationId) : Inbound → Option Cause
  | prepared i result => if i = id then some (.prepared result) else none
  | completed i result => if i = id then some (.ended (.completed result)) else none
  | failed i f => if i = id then some (.ended (.failed f)) else none
  | _ => none

/-- The end of an operation whose decision the channel did not take. -/
def Outbound.refusal? (id : OperationId) (e : ChannelError) : Outbound → Option Cause
  | commit i => if i = id then some (.ended (.failed (.sendFailed .commit e.message))) else none
  | rollback i => if i = id then some (.ended (.failed (.sendFailed .rollback e.message))) else none
  | execute .. => none

/-- The cause that a task takes in for an operation. -/
def Client.Task.news? (id : OperationId) : Task → Option Cause
  | .dispatch m => m.cause? id
  | .sweep => some (.ended (.failed .channelClosed))
  | _ => none

/-- The cause that reaches an operation from outside. -/
def Mark.news? (id : OperationId) : Mark → Option Cause
  | moved t _ => t.news? id
  | answered (.send m) (.sent (.error e)) => m.refusal? id e
  | _ => none

/-- What becomes of a standing when a cause arrives, if one does. -/
def Standing.upon (standing : Option Standing) : Option Cause → Option Standing
  | some cause => standing.map (·.after cause)
  | none => standing

/-- Where an operation must stand afterwards. -/
def Mark.rule (id : OperationId) (ruling : Option Standing) : Mark → Option Standing
  | enlisted i => if i = id then some .submitted else ruling
  | mark => Standing.upon ruling (mark.news? id)

namespace RecordingClient

/-- Where an operation must stand, by what has reached it from outside: submitted, prepared, or ended by
the first cause that was good enough. -/
def ruling (b : RecordingClient) (id : OperationId) : Option Standing := b.past.foldl (Mark.rule id) none

/-- The outcomes that the listener of an operation was told, first to last. -/
def outcomes (b : RecordingClient) (id : OperationId) : List Outcome := finals (b.clientThreads.calls id)

end RecordingClient

/-! ## The client keeps up -/

namespace Client

/-- The cause that a frame has in hand for an operation: it has arrived, and the client is about to act
on it. -/
def Frame.due? (id : OperationId) : Frame → Option Cause
  | .todo (.accept i result) => if i = id then some (.prepared result) else none
  | .todo (.finish i outcome _) => if i = id then some (.ended outcome) else none
  | .todo (.decisionSent i d (.error e)) =>
    if i = id then some (.ended (.failed (.sendFailed d e.message))) else none
  | _ => none

/-- The cause that a task hands on for an operation. -/
def Task.handsOn? (id : OperationId) : Task → Option Cause
  | .dispatch m => m.cause? id
  | .decisionSent i d (.error e) =>
    if i = id then some (.ended (.failed (.sendFailed d e.message))) else none
  | _ => none

/-- Only frames that are on top for no more than a moment have a cause in hand. -/
theorem due_of_not_fleeting {id : OperationId} {f : Frame} (h : f.isFleeting = false) :
    f.due? id = none := by
  cases f with
  | inside u => rfl
  | todo t => cases t <;> first | rfl | contradiction

/-- A message that came in is a cause in hand, until its task is done. -/
theorem due_taskOf (id : OperationId) (m : Inbound) :
    Frame.due? id (.todo (taskOf m)) = m.cause? id := by
  cases m <;> rfl

/-- On top of what a task leaves stands what it hands on. -/
theorem due_perform (c : Client) (t : Task) (id : OperationId) {rest : List Frame}
    (hrest : ∀ f ∈ rest, f.isFleeting = false) :
    ((c.perform t).frames ++ rest).head?.bind (Frame.due? id) = t.handsOn? id := by
  cases hframes : (c.perform t).frames with
  | nil =>
    -- a task that leaves nothing hands on nothing
    have hnone : t.handsOn? id = none := by
      cases t with
      | dispatch m => contradiction
      | decisionSent i d result => cases result <;> contradiction
      | _ => rfl
    rw [hnone]
    cases rest with
    | nil => rfl
    | cons f rest => exact due_of_not_fleeting (hrest f List.mem_cons_self)
  | cons f others =>
    have hleaves := c.perform_leaves t f (by rw [hframes]; exact List.mem_cons_self)
    show f.due? id = t.handsOn? id
    cases hleaves with
    | inbound => exact due_taskOf id _
    | failing => rfl
    | answering | announcing | observing | draining | telling =>
      cases t with
      | dispatch m =>
        have hfirst : Frame.todo (taskOf m) = _ := (List.cons.inj hframes).1
        rw [Task.handsOn?, ← due_taskOf id m, hfirst]
      | decisionSent i d result =>
        rcases result with e | ok
        · cases (List.cons.inj hframes).1
        · rfl
      | _ => rfl
    | _ => rfl

end Client

namespace RecordingClient

/-- A move changes the ruling of the operation that is given its identifier, and of the one that its
news are for. -/
theorem rule_marks (c : Client) (t : Task) (id : OperationId) (ruling : Option Standing) :
    (c.marks t).foldl (Mark.rule id) ruling =
      if c.allots t = some id then some .submitted else Standing.upon ruling (t.news? id) := by
  rw [Client.marks]
  cases hallots : c.allots t with
  | none => simp [Mark.rule, Mark.news?]
  | some i =>
    have hnews : t.news? id = none := by
      cases t <;> simp_all [Client.allots, Client.Task.news?]
    by_cases hid : i = id
    · simp [Mark.rule, hid]
    · simp [Mark.rule, Mark.news?, hid, hnews]

/-- The ruling is where the client has the operation, but for the cause that it has in hand. -/
def Level (id : OperationId) (b : RecordingClient) : Prop :=
  b.ruling id = Standing.upon (b.clientThreads.standing id) (b.stack.head?.bind (Frame.due? id))

variable {habit : Listener → OperationId → Value → Policy}

/-- What a task takes in, and what it hands on, is what it acts on. -/
theorem upon_task (id : OperationId) (t : Task) (standing : Option Standing) :
    Standing.upon (Standing.upon standing (Frame.due? id (.todo t))) (t.news? id) =
      Standing.upon (Standing.upon standing (t.cause? id)) (t.handsOn? id) := by
  cases t with
  | decisionSent i d result => cases result <;> rfl
  | _ => rfl

/-- When a call out returns, a decision that was not sent is the only cause that it can leave. -/
theorem due_resume (id : OperationId) (u : Upcall) (a : Answer) {rest : List Frame}
    (hrest : ∀ f ∈ rest, f.isFleeting = false) :
    (u.resume a ++ rest).head?.bind (Frame.due? id) = (Mark.answered u a).news? id := by
  have hbelow : rest.head?.bind (Frame.due? id) = none := by
    cases rest with
    | nil => rfl
    | cons f rest => exact Client.due_of_not_fleeting (hrest f List.mem_cons_self)
  cases u with
  | send m =>
    cases m <;> rcases a with _ | _ | result <;> first | rfl | (cases result <;> rfl)
  | notify i callback => cases a <;> rfl
  | observe o => cases a <;> exact hbelow
  | outcome i tag o => cases a <;> exact hbelow

/-- A task takes the cause that is in hand to the operation, or hands it on to the task above it. -/
theorem level_perform {id : OperationId} {b : RecordingClient} (htidy : Tidy b.stack) {t : Task}
    {rest : List Frame} (hstack : b.stack = .todo t :: rest) (h : Level id b) :
    Level id (b.move habit) := by
  rw [hstack] at htidy
  have hdue : (wishes habit b.client t ++ (b.client.perform t).frames ++ rest).head?.bind
      (Frame.due? id) = t.handsOn? id := by
    cases hwish : wish? habit b.client t with
    | none =>
      simp only [wishes, hwish, Option.map_none, Option.toList_none, List.nil_append]
      exact b.client.due_perform t id htidy.fleeting
    | some wish =>
      obtain ⟨result, rfl⟩ := wish_eq_some hwish
      simp [wishes, hwish, Frame.due?, Task.handsOn?]
  have hruling : (b.move habit).ruling id =
      if b.client.allots t = some id then some .submitted
      else Standing.upon (b.ruling id) (t.news? id) := by
    rw [move_todo hstack, ruling, List.foldl_append]
    exact rule_marks b.client t id (b.ruling id)
  have hstanding : (b.move habit).clientThreads.standing id =
      if b.client.allots t = some id then some .submitted
      else Standing.upon (b.clientThreads.standing id) (t.cause? id) := by
    rw [move_todo hstack, ClientThreads.standing]
    show List.foldl (Mark.stand id) none (b.past ++ b.client.marks t) = _
    rw [List.foldl_append, ClientThreads.marks_standing]
    show Standing.next id (b.clientThreads.standing id) t (b.client.allots t == some id) = _
    rw [Standing.next]
    cases hcause : t.cause? id <;> simp [Standing.upon]
  have hstack' : (b.move habit).stack =
      wishes habit b.client t ++ (b.client.perform t).frames ++ rest := by rw [move_todo hstack]
  rw [Level, hstack', hdue, hruling, hstanding]
  -- an operation that is new has heard of nothing; any other takes its cause in
  by_cases hallots : b.client.allots t = some id
  · have hnone : t.handsOn? id = none := by
      cases t <;> simp_all [Client.allots, Task.handsOn?]
    rw [if_pos hallots, if_pos hallots, hnone]
    rfl
  · rw [Level, hstack] at h
    rw [if_neg hallots, if_neg hallots, h]
    exact upon_task id t _

/-- A call that returns takes no cause to an operation: what it leaves in hand has just arrived. -/
theorem level_answer {id : OperationId} {b : RecordingClient} (htidy : Tidy b.stack) {u : Upcall}
    {rest : List Frame} (hstack : b.stack = .inside u :: rest) (h : Level id b) :
    Level id (b.move habit) := by
  rw [hstack] at htidy
  rw [Level, hstack] at h
  have h : b.ruling id = b.clientThreads.standing id := h
  have hdue := @due_resume id u (reply b.channel u).1 rest htidy.fleeting
  rw [move_inside hstack]
  show List.foldl (Mark.rule id) none (b.past ++ [.answered u (reply b.channel u).1]) =
    Standing.upon (List.foldl (Mark.stand id) none (b.past ++ [.answered u (reply b.channel u).1]))
      ((u.resume (reply b.channel u).1 ++ rest).head?.bind (Frame.due? id))
  rw [hdue, List.foldl_append, List.foldl_append]
  show Standing.upon (b.ruling id) _ = Standing.upon (b.clientThreads.standing id) _
  rw [h]

/-- **The client keeps up with what reaches its operations.** -/
theorem Visited.level {config : Config} {b : RecordingClient} (h : Visited habit config b)
    (id : OperationId) : Level id b := by
  induction h with
  | fresh => rfl
  | @taken b h hidle a ih =>
    rw [Level, hidle] at ih
    have hdue : (b.take a).stack.head?.bind (Frame.due? id) = none := by
      rw [stack_take hidle]
      rcases b.request? a with _ | r
      · rfl
      · cases r <;> rfl
    rw [Level, hdue]
    exact ih
  | @moved b h ih =>
    rcases hstack : b.stack with _ | ⟨t | u, rest⟩
    · rw [move_nil hstack]
      exact ih
    · exact level_perform h.tidy hstack ih
    · exact level_answer h.tidy hstack ih

/-! ## The past only grows -/

/-- A recording client only adds to its past. -/
theorem past_move (b : RecordingClient) : b.past <+: (b.move habit).past := by
  rcases hstack : b.stack with _ | ⟨t | u, rest⟩
  · exact ⟨[], by rw [move_nil hstack, List.append_nil]⟩
  · rw [move_todo hstack]
    exact List.prefix_append _ _
  · rw [move_inside hstack]
    exact List.prefix_append _ _

theorem past_iterate (b : RecordingClient) (n : Nat) : b.past <+: ((move habit)^[n] b).past := by
  induction n with
  | zero => exact List.prefix_refl _
  | succ n ih =>
    rw [Function.iterate_succ_apply']
    exact ih.trans (past_move _)

theorem past_run (config : Config) (actions more : List Action) :
    (run habit config actions).past <+: (run habit config (actions ++ more)).past := by
  induction more using List.reverseRecOn with
  | nil => exact ⟨[], by rw [List.append_nil, List.append_nil]⟩
  | append_singleton more a ih =>
    rw [← List.append_assoc, run_append]
    exact ih.trans (past_iterate ((run habit config (actions ++ more)).take a) _)

/-- What a listener was told is not taken back. -/
theorem outcomes_grow {b b' : RecordingClient} (h : b.past <+: b'.past) (id : OperationId) :
    b.outcomes id <+: b'.outcomes id := by
  obtain ⟨more, hmore⟩ := h
  have hcalls : b'.clientThreads.calls id = b.clientThreads.calls id ++
      (more.flatMap (Mark.turns id)).filterMap Turn.begun? := by
    simp only [ClientThreads.calls, ClientThreads.turns, clientThreads, ← hmore, List.flatMap_append,
      List.filterMap_append]
  rw [outcomes, outcomes, hcalls, finals_append]
  exact List.prefix_append _ _

theorem answers_subset {b b' : RecordingClient} (h : b.past <+: b'.past) (id : OperationId) :
    b.clientThreads.answers id ⊆ b'.clientThreads.answers id := by
  obtain ⟨more, hmore⟩ := h
  simp only [ClientThreads.answers, clientThreads, ← hmore, List.flatMap_append]
  exact List.subset_append_left _ _

/-! ## The close -/

/-- Whether an action closes the client, or has the channel tell it that it is closed. -/
def Action.closes : Action → Bool
  | .deliver .channelClosed | .closeChannel | .closeClient => true
  | _ => false

/-- The client was swept, or is about to be. -/
def Closing (b : RecordingClient) : Prop :=
  (∃ shown, .moved .sweep shown ∈ b.past) ∨
    .todo .sweep ∈ b.stack ∨ .todo (.dispatch .channelClosed) ∈ b.stack

/-- An action that closes sets a sweep off. -/
theorem closing_take {b : RecordingClient} {a : Action} (h : Closing b ∨ a.closes = true) :
    Closing (b.take a) := by
  rcases h with h | h
  · rcases h with h | h | h
    · exact Or.inl h
    · exact Or.inr (Or.inl (List.mem_append_right _ h))
    · exact Or.inr (Or.inr (List.mem_append_right _ h))
  · cases a with
    | deliver m =>
      cases m with
      | channelClosed => exact Or.inr (Or.inr List.mem_cons_self)
      | _ => contradiction
    | closeChannel => exact Or.inr (Or.inr List.mem_cons_self)
    | closeClient => exact Or.inr (Or.inl List.mem_cons_self)
    | _ => contradiction

/-- A sweep that was set off is carried out. -/
theorem closing_move {b : RecordingClient} (h : Closing b) : Closing (b.move habit) := by
  rcases h with ⟨shown, h⟩ | h
  · obtain ⟨more, hmore⟩ := @past_move habit b
    exact Or.inl ⟨shown, hmore ▸ List.mem_append_left more h⟩
  · rcases hstack : b.stack with _ | ⟨t | u, rest⟩
    · simp [hstack] at h
    · rw [move_todo hstack]
      simp only [hstack, List.mem_cons, Frame.todo.injEq] at h
      rcases h with (rfl | h) | (rfl | h)
      · exact Or.inl ⟨(b.client.perform .sweep).events, by simp [Client.marks]⟩
      · exact Or.inr (Or.inl (List.mem_append_right _ h))
      · exact Or.inr (Or.inl (by simp [Client.perform, Client.taskOf]))
      · exact Or.inr (Or.inr (List.mem_append_right _ h))
    · rw [move_inside hstack]
      simp only [hstack, List.mem_cons, reduceCtorEq, false_or] at h
      exact Or.inr (h.imp (List.mem_append_right _) (List.mem_append_right _))

theorem closing_iterate {b : RecordingClient} (h : Closing b) (n : Nat) : Closing ((move habit)^[n] b) := by
  induction n with
  | zero => exact h
  | succ n ih =>
    rw [Function.iterate_succ_apply']
    exact closing_move ih

/-- Whoever has closed the client finds it swept, or about to be. -/
theorem closing_run (config : Config) {actions : List Action}
    (h : ∃ a ∈ actions, a.closes = true) : Closing (run habit config actions) := by
  induction actions using List.reverseRecOn with
  | nil => simp at h
  | append_singleton actions a ih =>
    rw [run_append]
    refine closing_iterate (closing_take ?_) _
    obtain ⟨other, hother, hcloses⟩ := h
    rcases List.mem_append.mp hother with hold | hnew
    · exact Or.inl (ih ⟨other, hold, hcloses⟩)
    · rw [List.mem_singleton.mp hnew] at hcloses
      exact Or.inr hcloses

/-! ## Between two actions -/

/-- What every caller may rely on about the end of an operation that was taken, after any actions. -/
structure Conclusive (habit : Listener → OperationId → Value → Policy) (config : Config)
    (actions : List Action) (id : OperationId) : Prop where
  /-- A last callback was made if and only if the operation is pending no more. -/
  told : (run habit config actions).outcomes id ≠ [] ↔
    (run habit config actions).client.phaseOf id = none
  once : ((run habit config actions).outcomes id).length ≤ 1
  /-- Its outcome is that of the first cause that was good enough. -/
  cause : ∀ outcome, outcome ∈ (run habit config actions).outcomes id ↔
    (run habit config actions).ruling id = some (.ended outcome)
  /-- Every copy of the handle knows the same. -/
  handle : (Handle.live id).outcome? (run habit config actions).client =
    ((run habit config actions).outcomes id).head?
  /-- Nothing that happens later changes it. -/
  kept : ∀ more, (run habit config (actions ++ more)).clientThreads.given.length < 2 ^ 64 - 1 →
    (run habit config actions).outcomes id ≠ [] →
      (run habit config (actions ++ more)).outcomes id = (run habit config actions).outcomes id ∧
        (Handle.live id).outcome? (run habit config (actions ++ more)).client =
          (Handle.live id).outcome? (run habit config actions).client
  /-- After the close no operation lacks its end. -/
  closed : (∃ a ∈ actions, a.closes = true) →
    ∃ outcome, (run habit config actions).outcomes id = [outcome]

/-- Where nothing is left to do, listener and handle agree with the table and with the ruling. -/
theorem settled {config : Config} {b : RecordingClient} (h : Visited habit config b) (hidle : b.stack = [])
    {id : OperationId} (hgiven : b.clientThreads.given.length < 2 ^ 64 - 1)
    (hok : .ok id ∈ b.clientThreads.answers id) :
    Stands (b.client.pending.get? id) (b.ruling id) (b.outcomes id) ∧
      b.outcomes id = (b.client.cell id).outcome.toList := by
  obtain ⟨schedule, hschedule⟩ := reachable_clientThreads h
  have hlevel : b.ruling id = b.clientThreads.standing id := by
    have := h.level id
    rw [Level, hidle] at this
    exact this
  have hquiet : b.clientThreads.frames.filter (Frame.about id) = [] := by
    simp [clientThreads, ClientThreads.frames, hidle]
  rw [hschedule] at hgiven hok hquiet
  have hsettled := ClientThreads.settled_of_quiet config schedule id hgiven hok hquiet
  rw [← hschedule] at hsettled
  rw [hlevel]
  exact hsettled

/-- A handle knows what the cell of its operation holds, and so does the listener. -/
theorem handle_outcome {b : RecordingClient} {id : OperationId}
    (hcell : b.outcomes id = (b.client.cell id).outcome.toList) :
    (Handle.live id).outcome? b.client = (b.outcomes id).head? := by
  rw [hcell]
  cases hc : (b.client.cell id).outcome <;> simp [Handle.outcome?, Handle.cell, hc]

/-- What closes leaves nothing pending behind. -/
theorem pending_of_closes (config : Config) {actions : List Action}
    (h : ∃ a ∈ actions, a.closes = true) (id : OperationId) :
    (run habit config actions).client.pending.get? id = none := by
  obtain ⟨hvisited, hidle⟩ := @visited_run habit config actions
  obtain ⟨schedule, hschedule⟩ := reachable_clientThreads hvisited
  obtain ⟨hswept, hempty⟩ := ClientThreads.closed_run config schedule
  rw [← hschedule] at hswept hempty
  have hpast : ∃ shown, .moved .sweep shown ∈ (run habit config actions).past := by
    rcases closing_run config h with h | h
    · exact h
    · simp [hidle] at h
  exact hempty (hswept hpast) id

/-- **Exactly one end, the same for the listener and the handle**: after any actions, for every
operation whose submission was taken. -/
theorem conclusive (config : Config) (actions : List Action) (id : OperationId)
    (hgiven : (run habit config actions).clientThreads.given.length < 2 ^ 64 - 1)
    (hok : .ok id ∈ (run habit config actions).clientThreads.answers id) :
    Conclusive habit config actions id := by
  obtain ⟨hvisited, hidle⟩ := @visited_run habit config actions
  obtain ⟨stands, hcell⟩ := settled hvisited hidle hgiven hok
  have hle := stands.length_le
  refine ⟨?_, hle, fun outcome => ?_, handle_outcome hcell, fun more hgiven' htold => ?_,
    fun hclose => ?_⟩
  · rw [stands.ended_iff, Client.phaseOf, Option.map_eq_none_iff]
  · exact stands.mem_iff outcome
  · have hpast := @past_run habit config actions more
    obtain ⟨hvisited', hidle'⟩ := @visited_run habit config (actions ++ more)
    obtain ⟨stands', hcell'⟩ := settled hvisited' hidle' hgiven' (answers_subset hpast id hok)
    -- what was told stays told, and there is no room for more
    have hsame : (run habit config actions).outcomes id =
        (run habit config (actions ++ more)).outcomes id := by
      refine (outcomes_grow hpast id).eq_of_length_le ?_
      have hle' := stands'.length_le
      have hpos := List.length_pos_iff.mpr htold
      omega
    refine ⟨hsame.symm, ?_⟩
    rw [handle_outcome hcell, handle_outcome hcell', hsame]
  · have hnone := @pending_of_closes habit config actions hclose id
    exact List.length_eq_one_iff.mp
      (Nat.le_antisymm hle (List.length_pos_iff.mpr (stands.ended_iff.mpr hnone)))

/-- An operation that its listener commits as soon as it is prepared, and that is completed before the
channel closes. -/
def committed : List Action :=
  [.execute (.recorder "") ⟨.undefined, [], .discard⟩, .deliver (.prepared ⟨1⟩ .undefined),
    .deliver (.completed ⟨1⟩ .undefined), .closeChannel]

theorem conclusive_of_committed :
    (run (fun _ _ _ => .commit) {} committed).clientThreads.given.length < 2 ^ 64 - 1 ∧
      .ok ⟨1⟩ ∈ (run (fun _ _ _ => .commit) {} committed).clientThreads.answers ⟨1⟩ ∧
      ((run (fun _ _ _ => .commit) {} committed).outcomes ⟨1⟩).length = 1 ∧
      Conclusive (fun _ _ _ => .commit) {} committed ⟨1⟩ := by
  have hgiven : (run (fun _ _ _ => .commit) {} committed).clientThreads.given.length < 2 ^ 64 - 1 := by
    decide +kernel
  have hany : ((run (fun _ _ _ => .commit) {} committed).clientThreads.answers ⟨1⟩).any
      (fun answer => answer.toOption == some ⟨1⟩) = true := by decide +kernel
  have hok : .ok ⟨1⟩ ∈ (run (fun _ _ _ => .commit) {} committed).clientThreads.answers ⟨1⟩ := by
    obtain ⟨answer, hmem, hanswer⟩ := List.any_eq_true.mp hany
    rcases answer with e | i
    · simp [Except.toOption] at hanswer
    · obtain rfl : i = ⟨1⟩ := by simpa [Except.toOption] using hanswer
      exact hmem
  exact ⟨hgiven, hok, by decide +kernel, conclusive {} committed ⟨1⟩ hgiven hok⟩

end RecordingClient

end TwoPhase
