import TwoPhase.Proofs.RecordingClient.Basic
/-
What a recording client keeps of its sends.

The channel of a recording client keeps the messages that it takes, in order. For each operation these
are a submission and then at most one decision. That there is at most one of each was counted for all
clients (`ClientThreads.sparing_run`). The order is a matter of the recording client: a decision needs a
handle, and by the time a handle comes into being the submission was taken (`Recorded`), because no
message gets in while an operation is being submitted.
-/

set_option autoImplicit false

namespace TwoPhase

open Client (Task Frame Upcall Answer Event)

namespace RecordingClient

variable {habit : Listener → OperationId → Value → Policy}

/-! ## What every client grants a recording one -/

/-- What holds of a fresh recording client, and survives every action and every move while identifiers
last, holds of every recording client for which they did. -/
theorem Visited.induction {config : Config} {P : RecordingClient → Prop}
    (hfresh : P (RecordingClient.fresh config))
    (htaken : ∀ b a, Visited habit config b → b.stack = [] → P b → P (b.take a))
    (hmoved : ∀ b, Visited habit config b →
      (b.move habit).clientThreads.given.length < 2 ^ 64 - 1 → P b → P (b.move habit))
    {b : RecordingClient} (h : Visited habit config b)
    (hgiven : b.clientThreads.given.length < 2 ^ 64 - 1) : P b := by
  induction h with
  | fresh => exact hfresh
  | @taken b h hidle a ih => exact htaken b a h hidle (ih hgiven)
  | @moved b h ih => exact hmoved b h hgiven (ih (Nat.lt_of_le_of_lt (given_le_move b) hgiven))

/-- Every operation at a recording client is unknown, or all its books are in order. -/
theorem Visited.books {config : Config} {b : RecordingClient} (h : Visited habit config b)
    (hgiven : b.clientThreads.given.length < 2 ^ 64 - 1) (id : OperationId) :
    b.clientThreads.share id = .blank ∨ (∃ delivery, (b.clientThreads.share id).Alive id delivery) ∧
      (b.clientThreads.share id).Balanced id ∧ (b.clientThreads.share id).Accounted id := by
  obtain ⟨schedule, hschedule⟩ := reachable_clientThreads h
  rw [hschedule] at hgiven ⊢
  rcases ClientThreads.alive_run config schedule id hgiven with hblank | alive
  · exact Or.inl hblank
  rcases ClientThreads.balanced_run config schedule id hgiven with hblank | balanced
  · exact Or.inl hblank
  rcases ClientThreads.accounted_run config schedule id hgiven with hblank | accounted
  · exact Or.inl hblank
  exact Or.inr ⟨alive, balanced, accounted⟩

/-- The two guards of a decision agree. -/
theorem Visited.guarded {config : Config} {b : RecordingClient} (h : Visited habit config b)
    (hgiven : b.clientThreads.given.length < 2 ^ 64 - 1) (id : OperationId) :
    (b.client.view id).Guarded (b.clientThreads.queued id) := by
  rcases h.books hgiven id with hblank | ⟨_, balanced, _⟩
  · have hview : b.client.view id = ⟨none, none, none⟩ := congrArg OperationShare.view hblank
    rw [hview]
    exact ⟨fun h => absurd rfl h, (fun _ h => by contradiction), (fun _ h => by contradiction),
      (fun _ h => by contradiction)⟩
  · exact balanced.guarded

/-! ## Who is asked to decide -/

theorem not_decide_resume {u : Upcall} {frames : List Frame} (h : u.Resumes frames)
    (id : OperationId) (d : Decision) : Frame.todo (.decide id d) ∉ frames := by
  cases h <;> simp

/-- A request to decide is turned down where there is no handle. -/
theorem handed_request {b : RecordingClient} {a : Action} {id : OperationId} {d : Decision}
    (h : Frame.todo (.decide id d) ∈ ((b.request? a).map fun r => Frame.todo r.task).toList) :
    b.client.handles.get? id ≠ none := by
  rw [Option.mem_toList, Option.map_eq_some_iff] at h
  obtain ⟨r, hr, hf⟩ := h
  cases a with
  | decide i decision =>
    rw [request?] at hr
    by_cases hin : b.client.handles.contains i = true
    · rw [if_pos hin] at hr
      obtain rfl : Request.decide i decision = r := Option.some.inj hr
      obtain ⟨rfl, -⟩ : i = id ∧ decision = d := by simpa [Request.task] using hf
      exact Option.isSome_iff_ne_none.mp hin
    · rw [if_neg hin] at hr
      contradiction
  | _ => cases hr <;> cases hf

/-- A listener decides from inside the callback that brought the handle. -/
theorem Visited.handed_wish {config : Config} {b : RecordingClient} (h : Visited habit config b)
    (hgiven : b.clientThreads.given.length < 2 ^ 64 - 1) {id : OperationId} {d : Decision} {t : Task}
    {rest : List Frame} (hstack : b.stack = .todo t :: rest)
    (hwish : wish? habit b.client t = some (id, d)) : b.client.handles.get? id ≠ none := by
  obtain ⟨result, rfl⟩ := wish_eq_some hwish
  obtain ⟨schedule, hschedule⟩ := reachable_clientThreads h
  have hframe : Frame.todo (.raise (.notify id (.prepared result))) ∈ b.clientThreads.frames := by
    simp [ClientThreads.frames, clientThreads, hstack]
  rw [hschedule] at hgiven hframe
  have hhandle := ClientThreads.handed_run config schedule id hgiven hframe
  rw [← hschedule] at hhandle
  exact hhandle

/-- Whoever is asked to decide has a handle: it was there before the action, or it came with the
callback. -/
theorem Visited.handed {config : Config} {b : RecordingClient} (h : Visited habit config b)
    (hgiven : b.clientThreads.given.length < 2 ^ 64 - 1) :
    ∀ id d, Frame.todo (.decide id d) ∈ b.stack → b.client.handles.get? id ≠ none := by
  refine h.induction (P := fun b => ∀ id d, Frame.todo (.decide id d) ∈ b.stack →
    b.client.handles.get? id ≠ none) (fun _ _ hmem => by contradiction)
    (fun b a h hidle ih id d hmem => ?_) (fun b h hgiven' ih id d hmem => ?_) hgiven
  · rw [stack_take hidle] at hmem
    exact @handed_request b a id d hmem
  · rcases hstack : b.stack with _ | ⟨t | u, rest⟩
    · rw [move_nil hstack] at hmem ⊢
      exact ih id d hmem
    · rw [move_todo hstack] at hmem ⊢
      -- no handle is ever taken back, so it is enough that there was one
      have touch := b.client.perform_touch id t
      refine @OperationShare.handed_move _ _ _ _ _ touch .undefined (Or.inl ?_)
      simp only [List.mem_append] at hmem
      rcases hmem with (hmem | hmem) | hmem
      · obtain ⟨i, decision, hwish, hf⟩ := mem_wishes hmem
        obtain ⟨rfl, -⟩ : id = i ∧ d = decision := by simpa using hf
        exact h.handed_wish (Nat.lt_of_le_of_lt (given_le_move b) hgiven') hstack hwish
      · exact absurd (b.client.perform_leaves t _ hmem) (t.not_leaves_decide id d)
      · exact ih id d (by simp [hstack, hmem])
    · rw [move_inside hstack] at hmem ⊢
      rcases List.mem_append.mp hmem with hmem | hmem
      · exact absurd hmem (not_decide_resume (u.resumes _) id d)
      · exact ih id d (by simp [hstack, hmem])

/-- Whether any copy of the handle of an operation was asked to decide. -/
def Asked (b : RecordingClient) (id : OperationId) : Prop := ∃ d shown, .moved (.decide id d) shown ∈ b.past

/-- Only a request to decide changes whether the handle was asked, once the guards agree. -/
theorem asked_move {id : OperationId} {v v' : View} {t : Task} {y : Yield}
    (touch : Touch id v t v' y) (ht : ∀ d, t ≠ .decide id d) {queued : List Callback}
    (hguarded : v.Guarded queued) : v'.asked = v.asked := by
  cases touch with
  | asked hhandle hasked => exact absurd rfl (ht _)
  | @accepted entry result hentry hphase =>
    have hnone : v.handle = none := hguarded.fresh entry hentry hphase
    simp [View.asked, View.post, hnone]
  | _ => rfl

/-- **A handle knows whether it was asked.** -/
theorem Visited.asked_iff {config : Config} {b : RecordingClient} (h : Visited habit config b)
    (hgiven : b.clientThreads.given.length < 2 ^ 64 - 1) (id : OperationId) :
    b.Asked id ↔ (b.client.view id).asked = true := by
  refine h.induction (P := fun b => b.Asked id ↔ (b.client.view id).asked = true)
    (iff_of_false ?_ Bool.false_ne_true) (fun b a h hidle ih => ih)
    (fun b h hgiven' ih => ?_) hgiven
  · rintro ⟨d, shown, hmem⟩
    cases hmem
  rcases hstack : b.stack with _ | ⟨t | u, rest⟩
  · rw [move_nil hstack]
    exact ih
  · have touch := b.client.perform_touch id t
    have hlt := Nat.lt_of_le_of_lt (given_le_move b) hgiven'
    rw [move_todo hstack, Asked]
    by_cases ht : ∃ d, t = .decide id d
    · -- the handle is there, and it is asked now if it was not before
      obtain ⟨d, rfl⟩ := ht
      have hhandle := h.handed hlt id d (by simp [hstack])
      obtain ⟨handle, hhandle⟩ := Option.ne_none_iff_exists'.mp hhandle
      refine iff_of_true ⟨d, _, List.mem_append_right _ List.mem_cons_self⟩ ?_
      cases hasked : handle.asked <;>
        simp [Client.perform, Client.decide, hhandle, hasked, View.asked, Client.view,
          Table.get?_insert]
    · have hsame : (∃ d shown, .moved (.decide id d) shown ∈ b.past ++ b.client.marks t) ↔
          b.Asked id := by
        refine exists_congr fun d => exists_congr fun shown => ?_
        have hnot : .moved (.decide id d) shown ∉ b.client.marks t := by
          intro hmem
          obtain ⟨heq, -⟩ : Task.decide id d = t ∧ _ := by simpa [Client.marks] using hmem
          exact ht ⟨d, heq.symm⟩
        rw [List.mem_append, or_iff_left hnot]
      rw [hsame, ih]
      rw [asked_move touch (fun d hd => ht ⟨d, hd⟩) (h.guarded hlt id)]
  · have hsame : (∃ d shown, .moved (.decide id d) shown ∈
        b.past ++ [.answered u (reply b.channel u).1]) ↔ b.Asked id := by
      simp [Asked]
    rw [move_inside hstack, Asked, hsame]
    exact ih

/-! ## When a decision is sent -/

end RecordingClient

/-- Whether a frame hands a decision of an operation to the channel, or is about to. -/
def Client.Frame.hands (id : OperationId) : Frame → Bool
  | .todo (.raise u) | .inside u => u.decides id
  | _ => false

theorem Client.Frame.fleeting_of_hands {id : OperationId} {f : Frame} (h : f.hands id = true) :
    f.isFleeting = true := by
  rcases f with t | u
  · cases t with
    | raise u =>
      cases u with
      | send m => cases m <;> first | rfl | contradiction
      | _ => contradiction
    | _ => contradiction
  · cases u <;> first | rfl | contradiction

namespace RecordingClient

variable {habit : Listener → OperationId → Value → Policy}

theorem hands_resume (id : OperationId) {u : Upcall} {frames : List Frame} (h : u.Resumes frames) :
    ∀ f ∈ frames, f.hands id = false := by
  cases h <;> simp [Frame.hands]

theorem phase_of_claim {c : Client} {id : OperationId} {d : Decision}
    (h : Frame.todo (.raise (.send (.decide id d))) ∈ (c.claim id d).frames) :
    (c.claim id d).client.phaseOf id = some .prepared := by
  cases hentry : c.pending.get? id with
  | none => simp [Client.claim, hentry] at h
  | some entry =>
    by_cases hopen : entry.phase = .prepared ∧ entry.decision = none
    · simp [Client.claim, hentry, hopen, Client.phaseOf, Table.get?_insert]
    · simp [Client.claim, hentry, hopen] at h

/-- **A decision is handed over while its operation is prepared.** -/
theorem Visited.poised {config : Config} {b : RecordingClient} (h : Visited habit config b) :
    ∀ f ∈ b.stack, ∀ id, f.hands id = true → b.client.phaseOf id = some .prepared := by
  induction h with
  | fresh => exact fun _ hf => by contradiction
  | @taken b h hidle a ih =>
    intro f hf id hhands
    rw [stack_take hidle] at hf
    obtain ⟨r, _, rfl⟩ : ∃ r, b.request? a = some r ∧ Frame.todo r.task = f := by simpa using hf
    cases r <;> contradiction
  | @moved b h ih =>
    intro f hf id hhands
    have htidy := h.tidy
    -- whatever hands a decision over stands on top of the stack
    have hbelow {g : Frame} {rest : List Frame} (hstack : b.stack = g :: rest) : f ∉ rest := by
      intro hrest
      rw [hstack] at htidy
      have hnot := htidy.fleeting f hrest
      rw [Frame.fleeting_of_hands hhands] at hnot
      contradiction
    rcases hstack : b.stack with _ | ⟨t | u, rest⟩
    · rw [move_nil hstack] at hf ⊢
      exact ih f hf id hhands
    · rw [move_todo hstack] at hf ⊢
      simp only [List.mem_append] at hf
      rcases hf with (hf | hf) | hf
      · obtain ⟨i, decision, -, rfl⟩ := mem_wishes hf
        contradiction
      · cases b.client.perform_leaves t f hf with
        | @deciding i d =>
          obtain rfl : i = id := by cases d <;> exact of_decide_eq_true hhands
          exact phase_of_claim hf
        | @entering u => exact ih (.todo (.raise u)) (by simp [hstack]) id hhands
        | @inbound m => cases m <;> contradiction
        | _ => contradiction
      · exact absurd hf (hbelow hstack)
    · rw [move_inside hstack] at hf
      rcases List.mem_append.mp hf with hf | hf
      · rw [hands_resume id (u.resumes _) f hf] at hhands
        contradiction
      · exact absurd hf (hbelow hstack)

/-! ## What the channel keeps -/

/-- The messages about an operation that the channel took, in order. -/
def sent (b : RecordingClient) (id : OperationId) : List Outbound := b.channel.sent.filter (·.id = id)

/-- Whether the channel has a frame's message in hand. -/
def sending (id : OperationId) (p : Outbound → Bool) : Frame → Bool
  | .inside (.send m) => m.id = id && p m
  | _ => false

/-- A channel keeps the message that it is handed, or none. -/
theorem sent_reply (channel : RecordingChannel) (u : Upcall) :
    (reply channel u).2.sent = channel.sent ∨
      ∃ m, u = .send m ∧ (reply channel u).1 = .sent (.ok ()) ∧
        (reply channel u).2.sent = channel.sent ++ [m] := by
  cases u with
  | send m =>
    rcases channel.send_cases m with hsend | ⟨e, hsend⟩
    · exact Or.inr ⟨m, rfl, by rw [reply, hsend], by rw [reply, hsend]⟩
    · exact Or.inl (by rw [reply, hsend])
  | _ => exact Or.inl rfl

/-- A task puts into the channel's hands what it hands over. -/
theorem countP_sending (c : Client) (t : Task) (id : OperationId) (p : Outbound → Bool) :
    (c.perform t).frames.countP (sending id p) =
      (t.departing.filter (·.id = id)).countP p := by
  cases t with
  | raise u =>
    cases u with
    | send m =>
      by_cases hid : m.id = id <;>
        simp [Client.perform, sending, Client.Task.departing, hid, List.countP_cons]
    | _ => rfl
  | _ =>
    refine List.countP_eq_zero.mpr fun f hf => ?_
    cases f with
    | todo t => exact Bool.false_ne_true
    | inside u => cases c.perform_leaves _ _ hf

theorem sending_resume {u : Upcall} {frames : List Frame} (h : u.Resumes frames) (id : OperationId)
    (p : Outbound → Bool) : frames.countP (sending id p) = 0 := by
  cases h <;> rfl

theorem countP_reply (channel : RecordingChannel) (u : Upcall) (id : OperationId)
    (p : Outbound → Bool) :
    ((reply channel u).2.sent.filter (·.id = id)).countP p ≤
      (channel.sent.filter (·.id = id)).countP p + [Frame.inside u].countP (sending id p) := by
  rcases sent_reply channel u with hsame | ⟨m, rfl, _, hmore⟩
  · rw [hsame]
    exact Nat.le_add_right _ _
  · rw [hmore, List.filter_append, List.countP_append]
    by_cases hid : m.id = id <;> simp [sending, hid, List.countP_cons]

/-- The channel kept, and has in hand, no more than the client handed over. -/
def Counted (b : RecordingClient) (id : OperationId) (p : Outbound → Bool) : Prop :=
  (b.sent id).countP p + b.stack.countP (sending id p) ≤ (b.clientThreads.sends id).countP p

theorem counted_take {b : RecordingClient} {id : OperationId} {p : Outbound → Bool} (h : Counted b id p)
    (hidle : b.stack = []) (a : Action) : Counted (b.take a) id p := by
  have hchannel : (b.take a).sent id = b.sent id := by cases a <;> rfl
  have hstack : (b.take a).stack.countP (sending id p) = 0 := by
    rw [stack_take hidle]
    rcases b.request? a with _ | r
    · rfl
    · cases r <;> rfl
  rw [Counted, hchannel, hstack]
  exact Nat.le_trans (Nat.add_le_add_left (Nat.zero_le _) _) h

/-- A task that hands a message over puts it into the channel's hands. -/
theorem counted_perform {b : RecordingClient} {id : OperationId} {p : Outbound → Bool} (h : Counted b id p)
    {t : Task} {rest : List Frame} (hstack : b.stack = .todo t :: rest) :
    Counted (b.move habit) id p := by
  have hpast : (b.move habit).past = b.past ++ b.client.marks t := by rw [move_todo hstack]
  have hsent : (b.move habit).sent id = b.sent id := by rw [move_todo hstack]; rfl
  have hstack' : (b.move habit).stack =
      wishes habit b.client t ++ (b.client.perform t).frames ++ rest := by rw [move_todo hstack]
  have hsends : (b.move habit).clientThreads.sends id =
      b.clientThreads.sends id ++ t.departing.filter (·.id = id) := by
    rw [← ClientThreads.sends_marks b.client t id]
    simp only [ClientThreads.sends, ClientThreads.begun, clientThreads, hpast, List.flatMap_append,
      List.filterMap_append]
  have hwishes : (wishes habit b.client t).countP (sending id p) = 0 := by
    rw [wishes]
    cases wish? habit b.client t <;> rfl
  have hframes := countP_sending b.client t id p
  rw [Counted, hstack, List.countP_cons] at h
  rw [Counted, hsent, hsends, hstack']
  simp only [List.countP_append, hframes, hwishes]
  omega

/-- A channel that answers keeps what it had in hand, or lets go of it. -/
theorem counted_answer {b : RecordingClient} {id : OperationId} {p : Outbound → Bool} (h : Counted b id p)
    {u : Upcall} {rest : List Frame} (hstack : b.stack = .inside u :: rest) :
    Counted (b.move habit) id p := by
  have hpast : (b.move habit).past = b.past ++ [.answered u (reply b.channel u).1] := by
    rw [move_inside hstack]
  have hstack' : (b.move habit).stack = u.resume (reply b.channel u).1 ++ rest := by
    rw [move_inside hstack]
  have hsends : (b.move habit).clientThreads.sends id = b.clientThreads.sends id := by
    simp [ClientThreads.sends, ClientThreads.begun, clientThreads, hpast, Mark.begun]
  have hreply := countP_reply b.channel u id p
  have hresume := sending_resume (u.resumes (reply b.channel u).1) id p
  have hsent : (b.move habit).sent id = (reply b.channel u).2.sent.filter (·.id = id) := by
    rw [move_inside hstack]
    rfl
  rw [Counted, sent, hstack, ← List.singleton_append, List.countP_append] at h
  rw [Counted, hsends, hsent, hstack', List.countP_append, hresume]
  omega

theorem Visited.counted {config : Config} {b : RecordingClient} (h : Visited habit config b)
    (id : OperationId) (p : Outbound → Bool) : Counted b id p := by
  induction h with
  | fresh => exact Nat.le_refl _
  | @taken b h hidle a ih => exact counted_take ih hidle a
  | @moved b h ih =>
    rcases hstack : b.stack with _ | ⟨t | u, rest⟩
    · rw [move_nil hstack]
      exact ih
    · exact counted_perform ih hstack
    · exact counted_answer ih hstack

/-- The channel keeps no more of an operation than the client may hand over. -/
theorem Visited.sparing {config : Config} {b : RecordingClient} (h : Visited habit config b)
    (hgiven : b.clientThreads.given.length < 2 ^ 64 - 1) (id : OperationId) :
    (b.sent id).countP (fun m => !m.isDecision) +
        b.stack.countP (sending id fun m => !m.isDecision) ≤ 1 ∧
      (b.sent id).countP Outbound.isDecision ≤ 1 ∧
      (0 < (b.sent id).countP Outbound.isDecision → b.client.handles.get? id ≠ none) := by
  have hsubmissions := h.counted id fun m => !m.isDecision
  have hdecisions := h.counted id Outbound.isDecision
  rw [Counted] at hsubmissions hdecisions
  have hsparing : b.clientThreads.Sparing id := by
    obtain ⟨schedule, hschedule⟩ := reachable_clientThreads h
    rw [hschedule] at hgiven ⊢
    exact ClientThreads.sparing_run config schedule id hgiven
  refine ⟨Nat.le_trans hsubmissions hsparing.submissions, ?_, fun hpositive => ?_⟩
  · have hle := hsparing.decisions
    omega
  · obtain ⟨result, hresult⟩ := hsparing.prepared (by omega)
    rcases h.books hgiven id with hblank | ⟨_, _, accounted⟩
    · have hqueued : b.clientThreads.queued id = [] := congrArg OperationShare.queued hblank
      rw [hqueued] at hresult
      contradiction
    · exact accounted.handed result hresult

/-! ## The submission comes first -/

end RecordingClient

/-- Whether a frame belongs to a submission that the channel did not take, or may yet not take. -/
def Client.Frame.unsent (id : OperationId) : Frame → Bool
  | .todo (.raise u) | .inside u => u.executes id
  | .todo (.submissionSent i (.error _)) => i = id
  | _ => false

namespace RecordingClient

variable {habit : Listener → OperationId → Value → Policy}

/-- The first message about an operation that the channel took is its submission. -/
def Submitted (b : RecordingClient) (id : OperationId) : Prop :=
  ∃ payload rest, b.sent id = .execute id payload :: rest

/-- What the channel must have taken, by what the client knows of an operation. -/
structure Recorded (b : RecordingClient) (id : OperationId) : Prop where
  /-- A pending operation was submitted, or is being submitted. -/
  pending : b.client.pending.get? id ≠ none →
    (∃ f ∈ b.stack, f.unsent id = true) ∨ b.Submitted id
  /-- An operation that has a handle was submitted. -/
  handled : b.client.handles.get? id ≠ none → b.Submitted id

theorem sent_move (b : RecordingClient) (id : OperationId) : b.sent id <+: (b.move habit).sent id := by
  rcases hstack : b.stack with _ | ⟨t | u, rest⟩
  · exact ⟨[], by rw [move_nil hstack, List.append_nil]⟩
  · exact ⟨[], by rw [move_todo hstack, List.append_nil]; rfl⟩
  · rw [move_inside hstack]
    rcases sent_reply b.channel u with hsame | ⟨m, _, _, hmore⟩
    · exact ⟨[], by rw [sent, sent, hsame, List.append_nil]⟩
    · rw [sent, sent, hmore, List.filter_append]
      exact List.prefix_append _ _

theorem Submitted.move {b : RecordingClient} {id : OperationId} (h : b.Submitted id) :
    (b.move habit).Submitted id := by
  obtain ⟨payload, rest, hsent⟩ := h
  obtain ⟨more, hmore⟩ := @sent_move habit b id
  exact ⟨payload, rest ++ more, by rw [← hmore, hsent, List.cons_append]⟩

/-- Only the news that an operation is prepared brings a handle, and it finds the operation pending. -/
theorem handle_touch {id : OperationId} {v v' : View} {t : Task} {y : Yield}
    (touch : Touch id v t v' y) (h : v'.handle ≠ none) :
    v.handle ≠ none ∨ v.entry ≠ none ∧ ∃ result, t = .accept id result := by
  cases touch with
  | @accepted entry result hentry hphase => exact Or.inr ⟨by simp [hentry], result, rfl⟩
  | asked hhandle hasked => exact Or.inl (by simp [hhandle])
  | _ => exact Or.inl h

/-- A submission is begun, or it moves on, unless it takes its operation out of the table. -/
theorem unsent_touch {id : OperationId} {v v' : View} {t : Task} {y : Yield}
    (touch : Touch id v t v' y) (h : Frame.unsent id (.todo t) = true ∨ y.enlisted = true)
    (hpending : v'.entry ≠ none) : ∃ f ∈ y.frames, f.unsent id = true := by
  cases touch with
  | enlisted listener operation payload =>
    exact ⟨_, List.mem_cons_self, by simp [Frame.unsent, Upcall.executes]⟩
  | raised hu =>
    rcases h with h | h
    · exact ⟨_, List.mem_cons_self, h⟩
    · contradiction
  | withdrawn hentry => exact absurd rfl hpending
  | @admitted result hresult =>
    rcases hresult with rfl | hentry
    · simp [Frame.unsent] at h
    · exact absurd hentry hpending
  | aside hframe hcause =>
    have habout : Frame.unsent id (.todo t) = true → (Frame.todo t).about id = true := by
      intro hunsent
      cases t with
      | submissionSent i result => cases result <;> simp_all [Frame.unsent, Frame.about]
      | raise u =>
        cases u with
        | send m => cases m <;> simp_all [Frame.unsent, Frame.about, Upcall.executes, Upcall.about]
        | _ => contradiction
      | _ => contradiction
    rcases h with h | h
    · cases hframe.symm.trans (habout h)
    · contradiction
  | _ => simp [Frame.unsent] at h

theorem recorded_todo {config : Config} {b : RecordingClient} (h : Visited habit config b) {t : Task}
    {rest : List Frame} (hstack : b.stack = .todo t :: rest) {id : OperationId}
    (recorded : Recorded b id) : Recorded (b.move habit) id := by
  have touch := b.client.perform_touch id t
  have hclient : (b.move habit).client = (b.client.perform t).client := by rw [move_todo hstack]
  have hmoved : (b.move habit).stack =
      wishes habit b.client t ++ (b.client.perform t).frames ++ rest := by rw [move_todo hstack]
  refine ⟨fun hpending => ?_, fun hhandle => ?_⟩
  · rw [hclient] at hpending
    have hnew (hbegun : Frame.unsent id (.todo t) = true ∨
        (b.client.yield t id).enlisted = true) : ∃ f ∈ (b.move habit).stack, f.unsent id = true := by
      obtain ⟨f, hf, hunsent⟩ := unsent_touch touch hbegun hpending
      refine ⟨f, ?_, hunsent⟩
      rw [hmoved]
      exact List.mem_append_left _ (List.mem_append_right _ (List.mem_filter.mp hf).1)
    rcases touch.pending hpending with hentry | henlisted
    · rcases recorded.pending hentry with ⟨f, hf, hunsent⟩ | hsubmitted
      · rw [hstack] at hf
        rcases List.mem_cons.mp hf with rfl | hf
        · exact Or.inl (hnew (Or.inl hunsent))
        · refine Or.inl ⟨f, ?_, hunsent⟩
          rw [hmoved]
          exact List.mem_append_right _ hf
      · exact Or.inr hsubmitted.move
    · exact Or.inl (hnew (Or.inr henlisted))
  · rw [hclient] at hhandle
    rcases handle_touch touch hhandle with hbefore | ⟨hentry, result, rfl⟩
    · exact (recorded.handled hbefore).move
    · rcases recorded.pending hentry with ⟨f, hf, hunsent⟩ | hsubmitted
      · -- nothing is being submitted while a message is taken in
        have halone := h.tidy.opening (.todo (.accept id result)) (by simp [hstack]) rfl
        rw [halone, List.mem_singleton] at hf
        rw [hf] at hunsent
        contradiction
      · exact hsubmitted.move

/-- While an operation is being submitted the channel has nothing of it, so its submission comes
first. -/
theorem submitted_reply {config : Config} {b : RecordingClient} (h : Visited habit config b)
    (hgiven : b.clientThreads.given.length < 2 ^ 64 - 1) {id : OperationId} {payload : List UInt8}
    {rest : List Frame} (hstack : b.stack = .inside (.send (.execute id payload)) :: rest)
    (recorded : Recorded b id) : b.sent id = [] := by
  obtain ⟨hsubmissions, _, hhandle⟩ := h.sparing hgiven id
  rw [hstack, List.countP_cons, if_pos (by simp [sending, Outbound.isDecision])] at hsubmissions
  -- what is in hand is not kept yet, so nothing but decisions could be
  have hnone : ∀ m ∈ b.sent id, m.isDecision = true := by
    have hzero : (b.sent id).countP (fun m => !m.isDecision) = 0 := by omega
    simpa using hzero
  rw [List.eq_nil_iff_forall_not_mem]
  intro m hm
  obtain ⟨other, more, hsent⟩ := recorded.handled
    (hhandle (List.countP_pos_iff.mpr ⟨m, hm, hnone m hm⟩))
  cases hnone (.execute id other) (by rw [hsent]; exact List.mem_cons_self)

theorem recorded_inside {config : Config} {b : RecordingClient} (h : Visited habit config b)
    (hgiven : b.clientThreads.given.length < 2 ^ 64 - 1) {u : Upcall} {rest : List Frame}
    (hstack : b.stack = .inside u :: rest) {id : OperationId} (recorded : Recorded b id) :
    Recorded (b.move habit) id := by
  have hclient : (b.move habit).client = b.client := by rw [move_inside hstack]
  have hmoved : (b.move habit).stack = u.resume (reply b.channel u).1 ++ rest := by
    rw [move_inside hstack]
  have hkept : (b.move habit).sent id = (reply b.channel u).2.sent.filter (·.id = id) := by
    rw [move_inside hstack]
    rfl
  refine ⟨fun hpending => ?_, fun hhandle => ?_⟩
  · rw [hclient] at hpending
    rcases recorded.pending hpending with ⟨f, hf, hunsent⟩ | hsubmitted
    · rw [hstack] at hf
      rcases List.mem_cons.mp hf with rfl | hf
      · obtain ⟨payload, rfl⟩ : ∃ payload, u = .send (.execute id payload) := by
          rcases u with o | m | _ | _
          · contradiction
          · cases m <;> simp_all [Frame.unsent, Upcall.executes]
          · contradiction
          · contradiction
        -- the channel took the submission, or its caller will learn that it did not
        rcases b.channel.send_cases (.execute id payload) with hsend | ⟨e, hsend⟩
        · refine Or.inr ⟨payload, [], ?_⟩
          have hempty := submitted_reply h hgiven hstack recorded
          rw [sent] at hempty
          rw [hkept, reply, hsend, List.filter_append, hempty]
          simp
        · refine Or.inl ⟨.todo (.submissionSent id (.error e)), ?_, by simp [Frame.unsent]⟩
          rw [hmoved]
          simp [reply, hsend, Upcall.resume]
      · refine Or.inl ⟨f, ?_, hunsent⟩
        rw [hmoved]
        exact List.mem_append_right _ hf
    · exact Or.inr hsubmitted.move
  · rw [hclient] at hhandle
    exact (recorded.handled hhandle).move

theorem Visited.recorded {config : Config} {b : RecordingClient} (h : Visited habit config b)
    (hgiven : b.clientThreads.given.length < 2 ^ 64 - 1) (id : OperationId) : Recorded b id := by
  refine h.induction (P := fun b => Recorded b id) ⟨fun h => absurd rfl h, fun h => absurd rfl h⟩
    (fun b a h hidle ih => ?_) (fun b h hgiven' ih => ?_) hgiven
  · have hsent : (b.take a).sent id = b.sent id := by cases a <;> rfl
    refine ⟨fun hpending => ?_, fun hhandle => ?_⟩
    · rcases ih.pending hpending with ⟨f, hf, _⟩ | ⟨payload, rest, hsubmitted⟩
      · rw [hidle] at hf
        contradiction
      · exact Or.inr ⟨payload, rest, hsent.trans hsubmitted⟩
    · obtain ⟨payload, rest, hsubmitted⟩ := ih.handled hhandle
      exact ⟨payload, rest, hsent.trans hsubmitted⟩
  · rcases hstack : b.stack with _ | ⟨t | u, rest⟩
    · rw [move_nil hstack]
      exact ih
    · exact recorded_todo h hstack ih
    · exact recorded_inside h (Nat.lt_of_le_of_lt (given_le_move b) hgiven') hstack ih

theorem eq_decide {m : Outbound} (h : m.isDecision = true) : ∃ d, m = .decide m.id d := by
  cases m with
  | execute id payload => contradiction
  | commit id => exact ⟨.commit, rfl⟩
  | rollback id => exact ⟨.rollback, rfl⟩

theorem eq_execute {m : Outbound} (h : m.isDecision = false) :
    ∃ payload, m = .execute m.id payload := by
  cases m with
  | execute id payload => exact ⟨payload, rfl⟩
  | commit id => contradiction
  | rollback id => contradiction

/-- **What the channel keeps of an operation is its submission and one decision at most**, in this
order. -/
theorem Visited.sent_in_order {config : Config} {b : RecordingClient} (h : Visited habit config b)
    (hgiven : b.clientThreads.given.length < 2 ^ 64 - 1) (id : OperationId) :
    ∃ payload d, b.sent id <+: [.execute id payload, .decide id d] := by
  obtain ⟨hsubmissions, hdecisions, hhandle⟩ := h.sparing hgiven id
  have hid : ∀ m ∈ b.sent id, m.id = id := fun m hm => of_decide_eq_true (List.mem_filter.mp hm).2
  have recorded := h.recorded hgiven id
  by_cases hnone : (b.sent id).countP Outbound.isDecision = 0
  · -- submissions only, and one at most
    have hlength : (b.sent id).length ≤ 1 := by
      have hsum := @List.length_eq_countP_add_countP _ Outbound.isDecision (b.sent id)
      simp only [Bool.not_eq_true, Bool.decide_eq_false] at hsum
      omega
    rcases hsent : b.sent id with _ | ⟨m, _ | ⟨other, rest⟩⟩
    · exact ⟨[], .commit, List.nil_prefix⟩
    · rw [hsent] at hnone hid
      obtain ⟨payload, hm⟩ := @eq_execute m (by simpa using hnone)
      rw [hid m List.mem_cons_self] at hm
      exact ⟨payload, .commit, by rw [hm]; exact List.prefix_append [_] [_]⟩
    · rw [hsent] at hlength
      exact absurd hlength (by simp)
  · -- a decision was kept, so there is a handle, and the submission came first
    obtain ⟨payload, rest, hsent⟩ := recorded.handled (hhandle (by omega))
    rw [hsent] at hsubmissions hdecisions hid hnone ⊢
    have hfirst : (Outbound.execute id payload).isDecision = false := rfl
    simp only [List.countP_cons, hfirst, Bool.not_false, if_true] at hsubmissions
    simp only [List.countP_cons, hfirst, Bool.false_eq_true, if_false, Nat.add_zero]
      at hdecisions hnone
    have hrest : ∀ m ∈ rest, m.isDecision = true := by
      have hzero : rest.countP (fun m => !m.isDecision) = 0 := by omega
      simpa using hzero
    have hlength : rest.length ≤ 1 := by
      rw [← List.countP_eq_length.mpr hrest]
      exact hdecisions
    rcases rest with _ | ⟨m, _ | ⟨other, more⟩⟩
    · exact ⟨payload, .commit, List.prefix_append [_] [_]⟩
    · obtain ⟨d, hm⟩ := eq_decide (hrest m List.mem_cons_self)
      rw [hid m (by simp)] at hm
      exact ⟨payload, d, [], by rw [hm]; rfl⟩
    · exact absurd hlength (by simp)

/-- **A move records one message at most, and a decision only of a prepared operation.** -/
theorem Visited.records {config : Config} {b : RecordingClient} (h : Visited habit config b) :
    (b.move habit).channel.sent = b.channel.sent ∨
      ∃ m, (b.move habit).channel.sent = b.channel.sent ++ [m] ∧
        (m.isDecision = true → b.client.phaseOf m.id = some .prepared) := by
  rcases hstack : b.stack with _ | ⟨t | u, rest⟩
  · exact Or.inl (by rw [move_nil hstack])
  · exact Or.inl (by rw [move_todo hstack])
  · rw [move_inside hstack]
    refine (sent_reply b.channel u).imp_right ?_
    rintro ⟨m, rfl, -, hmore⟩
    refine ⟨m, hmore, fun hdecision => ?_⟩
    refine h.poised (.inside (.send m)) (by simp [hstack]) m.id ?_
    cases m <;> first | exact decide_eq_true rfl | contradiction

end RecordingClient

end TwoPhase
