import TwoPhase.Proofs.Loopback.Legs
/-
Decisions that are granted.

Whoever asks for a decision is told in the end whether it was taken. From the moment when the channel
hands a decision to the participant until the caller is told, a frame stands for that grant, and nobody
else is told meanwhile of another decision before it. So the decisions that were granted, with those
that stand on the stack, change only where one more is handed over (`grants_move`).
-/

set_option autoImplicit false

namespace TwoPhase

open Client (Task Event)

/-! ## What the client grants -/

/-- The decision that an event grants to whoever asked for it. -/
def Client.Event.grant? : Event → Option (OperationId × Decision)
  | .decision id d (.ok ()) => some (id, d)
  | _ => none

/-- The decision that a frame of the client is about to grant. -/
def Client.Frame.grant? : Client.Frame → Option (OperationId × Decision)
  | .todo (.decisionSent id d (.ok ())) | .todo (.decided id d (.ok ())) => some (id, d)
  | _ => none

/-- The decisions that were granted at some point of the past. -/
def Mark.granted : Mark → List (OperationId × Decision)
  | .moved _ shown => shown.filterMap Event.grant?
  | _ => []

namespace Client

variable (c : Client)

attribute [local simp] perform refuse drop count marks allots Mark.granted Event.grant? Frame.grant?
  List.filterMap_cons

@[simp] theorem grant_drainIf (id : OperationId) (owed : Bool) :
    (drainIf id owed).filterMap Frame.grant? = [] := by
  cases owed <;> rfl

/-- A sweep grants nothing, and leaves nothing that would. -/
theorem grants_sweep : c.sweep.events.filterMap Event.grant? = [] ∧
    c.sweep.frames.filterMap Frame.grant? = [] := by
  refine ⟨?_, ?_⟩
  · rw [sweep_events_filterMap c Event.grant? fun _ => rfl]
    exact List.filterMap_eq_nil_iff.mpr fun _ _ => rfl
  · rw [List.filterMap_eq_nil_iff]
    intro f hf
    simp only [sweep, List.mem_append, List.mem_flatMap] at hf
    rcases hf with hf | ⟨⟨id, mine⟩, -, hf⟩
    · cases hclosed : c.closed <;> simp [hclosed] at hf
      rw [hf]
      rfl
    · rcases List.mem_cons.mp hf with rfl | hf
      · rfl
      · exact List.filterMap_eq_nil_iff.mp (grant_drainIf id mine) f hf

/-- **A decision that is about to be granted is granted next**, or still about to be, and no other is. -/
theorem grants_perform (t : Task) :
    (c.marks t).flatMap Mark.granted ++ (c.perform t).frames.filterMap Frame.grant? =
      (Frame.todo t).grant?.toList := by
  -- only the answer to a decision has to do with grants; the other tasks are followed as far as it takes
  -- to see that none of them leaves such an answer
  cases t with
  | submit channelOpen listener operation =>
    cases channelOpen with
    | false => simp
    | true =>
      cases hencode : operation.payload.encode c.config.maxFrameBytes.toNat <;> simp [hencode]
  | enlist listener operation payload =>
    by_cases hclosed : c.closed = true <;> simp [enlist, hclosed]
  | submissionSent id result =>
    rcases result with e | ok
    · by_cases hin : c.pending.contains id = true <;> simp [submissionSent, hin]
    · simp [submissionSent]
  | decide id d =>
    cases hhandle : c.handles.get? id with
    | none => simp [decide, hhandle]
    | some handle => cases hasked : handle.asked <;> simp [decide, hhandle, hasked]
  | claim id d =>
    cases hentry : c.pending.get? id with
    | none => simp [claim, hentry]
    | some entry =>
      by_cases hopen : entry.phase = .prepared ∧ entry.decision = none <;>
        simp [claim, hentry, hopen]
  | decisionSent id d result => rcases result with e | ok <;> simp [decisionSent]
  | decided id d result => rcases result with e | ok <;> simp
  | dispatch m => cases m <;> simp [taskOf]
  | accept id result =>
    cases hentry : c.pending.get? id with
    | none => by_cases hlate : id < c.nextId <;> simp [accept, hentry, hlate]
    | some entry =>
      by_cases hallows : entry.phase.allows .prepared = true <;> simp [accept, hentry, hallows]
  | finish id outcome kind =>
    cases hentry : c.pending.get? id with
    | none => by_cases hlate : id < c.nextId <;> simp [finish, hentry, hlate]
    | some entry =>
      by_cases hallows : entry.phase.allows (finalPhase outcome) = true <;>
        simp [finish, hentry, hallows]
  | report id severity text =>
    by_cases hin : c.pending.contains id = true <;> simp [report, hin]
  | sweep => simp [grants_sweep]
  | drain id =>
    cases hdelivery : c.deliveries.get? id with
    | none => simp [drain, hdelivery]
    | some d =>
      rcases hpop : d.mailbox.pop with ⟨_ | callback, mailbox⟩ <;> simp [drain, hdelivery, hpop]
  | called id callback panicked =>
    cases houtcome : callback.outcome? <;> cases panicked <;> simp [called, houtcome]
  | resolve id outcome =>
    cases hdelivery : c.deliveries.get? id <;> simp [resolve, hdelivery, List.filterMap_map]
  | subscribe id tag =>
    cases hdelivery : c.deliveries.get? id with
    | none => simp [subscribe, hdelivery]
    | some d =>
      cases hknown : (d.outcome.subscribe tag).2 <;> simp [subscribe, hdelivery, hknown]
  | announce o => simp
  | raise u => simp

end Client

/-- The decision that a message carries. -/
def Outbound.decision? : Outbound → Option (OperationId × Decision)
  | .execute .. => none
  | .commit id => some (id, .commit)
  | .rollback id => some (id, .rollback)

/-- A message that carries a decision is the one by which that decision is handed over. -/
theorem Outbound.eq_decide {m : Outbound} {id : OperationId} {d : Decision}
    (h : m.decision? = some (id, d)) : m = .decide id d := by
  cases m with
  | execute i payload => contradiction
  | commit i | rollback i =>
    obtain ⟨rfl, rfl⟩ := Prod.mk.inj (Option.some.inj h)
    rfl

namespace Loopback

/-- The decision that a frame is about to grant. -/
def Frame.grant? : Frame → Option (OperationId × Decision)
  | .client f => f.grant?
  | .returning m => m.decision?
  | _ => none

variable {σ : Type} {S : Setting σ} {c : Loopback σ} {rest : List Frame}

/-- The decisions that were granted, first to last. -/
def granted (c : Loopback σ) : List (OperationId × Decision) := c.past.flatMap Mark.granted

/-- The decisions that some frames are about to grant. -/
def granting (stack : List Frame) : List (OperationId × Decision) := stack.filterMap Frame.grant?

/-- The decisions that were granted and those that are about to be. -/
def grants (c : Loopback σ) : List (OperationId × Decision) := c.granted ++ granting c.stack

@[simp] theorem granting_nil : granting [] = [] := rfl

@[simp] theorem granting_cons (f : Frame) (rest : List Frame) :
    granting (f :: rest) = f.grant?.toList ++ granting rest := filterMap_cons_toList _ f rest

@[simp] theorem granting_append (first rest : List Frame) :
    granting (first ++ rest) = granting first ++ granting rest := List.filterMap_append

@[simp] theorem granting_map_client (frames : List Client.Frame) :
    granting (frames.map Frame.client) = frames.filterMap Client.Frame.grant? := by
  rw [granting, List.filterMap_map]
  rfl

/-- Nothing that the participant is about to do grants a decision. -/
@[simp] theorem granting_map_far {α : Type} (l : List α) (f : α → Endpoint.Frame) :
    granting (l.map fun x => Frame.endpoint (f x)) = [] := filterMap_map_of_none (fun _ => rfl) l

@[simp] theorem granting_map_endpoint (frames : List Endpoint.Frame) :
    granting (frames.map Frame.endpoint) = [] := granting_map_far frames id

/-- The channel hands a message over, and will grant the decision in it. -/
theorem grants_handed {m : Outbound} (hstack : c.stack = .client (.inside (.send m)) :: rest)
    (hopen : c.isOpen = true) :
    (c.move S).grants = c.granted ++ (m.decision?.toList ++ granting rest) := by
  rw [move_cons hstack]
  simp [step, call, hopen, grants, granted, Frame.grant?]

/-- No task of the client makes a difference: what a listener wishes for is not granted yet. -/
theorem grants_performed {t : Task} (hstack : c.stack = .client (.todo t) :: rest) :
    (c.move S).grants = c.grants := by
  have hwishes : (RecordingClient.wishes S.habit c.client t).filterMap Client.Frame.grant? = [] := by
    refine List.filterMap_eq_nil_iff.mpr fun f hf => ?_
    obtain ⟨id, decision, -, rfl⟩ := RecordingClient.mem_wishes hf
    rfl
  have hperform := c.client.grants_perform t
  rw [move_cons hstack]
  simp only [step, grants, granted, hstack, List.flatMap_append, granting_append,
    granting_map_client, List.filterMap_append, hwishes, List.nil_append, granting_cons,
    Frame.grant?, ← hperform, List.append_assoc]

/-- An answer from outside grants nothing by itself. What it leaves on the stack may be about to. -/
theorem grants_answer (c : Loopback σ) (u : Client.Upcall) (a : Client.Answer) (rest : List Frame) :
    (c.answer u a rest).grants =
      c.granted ++ ((u.resume a).filterMap Client.Frame.grant? ++ granting rest) := by
  simp [answer, grants, granted, Mark.granted]

/-- **Apart from that, decisions are granted as they stand on the stack.** -/
theorem grants_kept (h : ∀ m rest, c.stack = .client (.inside (.send m)) :: rest → c.isOpen = false) :
    (c.move S).grants = c.grants := by
  rcases hstack : c.stack with _ | ⟨f, rest⟩
  · rw [move_nil hstack]
  cases f with
  | client f =>
    cases f with
    | todo t => exact grants_performed hstack
    | inside u =>
      have hnone : c.grants = c.granted ++ granting rest := by
        rw [grants, hstack]
        rfl
      rw [move_cons hstack, hnone]
      cases u with
      | send m =>
        -- a closed channel refuses the message, which grants nothing
        simp only [step, call, h m rest hstack, Bool.false_eq_true, if_false, grants_answer]
        cases m <;> rfl
      | _ =>
        simp only [step, call, grants_answer]
        rfl
  -- the decision goes over from the return of the send to the frame that is returned to
  | returning m =>
    have hgrant : c.grants = c.granted ++ (m.decision?.toList ++ granting rest) := by
      rw [grants, hstack, granting_cons]
      rfl
    rw [move_cons hstack, hgrant]
    simp only [step, grants_answer]
    cases m <;> rfl
  | conclude i p =>
    rw [move_cons hstack]
    simp [step, grants, granted, hstack, Frame.grant?]
  | endpoint f =>
    have hnone : c.grants = c.granted ++ granting rest := by
      rw [grants, hstack]
      rfl
    rw [move_cons hstack, hnone]
    cases f with
    | todo t => simp [step, grants, granted]
    | inside u => cases u <;> simp [step, serve, grants, granted, Frame.grant?, Client.Frame.grant?]

end Loopback

end TwoPhase
