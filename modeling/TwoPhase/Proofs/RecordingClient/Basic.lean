import Mathlib.Logic.Function.Iterate
import TwoPhase.Channel.Recording
import TwoPhase.Proofs.ClientThreads.Frames
import TwoPhase.Proofs.ClientThreads.Outcomes
import TwoPhase.Rehearsal.Script
/-
A recording client: one client over a channel that keeps what is sent, with one thread around it.

Somebody takes one action after the other: submits operations, decides them through their handles,
delivers messages, makes sends fail, closes the channel or the client. Listeners keep the handle of an
operation that got prepared, or decide it from inside the callback. Everything else that is called just
returns. So a recording client moves on its own, and it is a client with a single thread
(`reachable_clientThreads`): what holds under every interleaving holds here, and some things hold here
only.
-/

set_option autoImplicit false

namespace TwoPhase

open Client (Task Frame Upcall Answer Event)

/-- A client, its channel, the thread that uses them, and what happened so far. -/
structure RecordingClient where
  client : Client
  channel : RecordingChannel
  stack : List Frame
  past : List Mark

namespace RecordingClient

/-- What somebody does at a recording client. -/
inductive Action where
  /-- Submits an operation for a listener. -/
  | execute (listener : Listener) (operation : Operation)
  /-- Decides an operation, through any copy of its handle. -/
  | decide (id : OperationId) (decision : Decision)
  /-- Subscribes to the outcome of an operation. -/
  | subscribe (id : OperationId) (tag : String)
  /-- Delivers a message, whoever made it up. -/
  | deliver (m : Inbound)
  /-- Makes sends fail, or succeed again. -/
  | refuseSends (on : Bool)
  /-- Closes the channel, which tells the client. -/
  | closeChannel
  /-- Closes the client. -/
  | closeClient

/-- A client and a channel that nobody used yet. -/
def fresh (config : Config) : RecordingClient := ⟨.fresh config, .fresh, [], []⟩

/-- The channel after an action. -/
def Action.tune : Action → RecordingChannel → RecordingChannel
  | .refuseSends on, channel => { channel with refusing := on }
  | .closeChannel, channel => { channel with isOpen := false }
  | _, channel => channel

/-- What an action asks of the client. An operation can be decided once there is a handle. -/
def request? (b : RecordingClient) : Action → Option Request
  | .execute listener operation => some (.submit b.channel.isOpen listener operation)
  | .decide id decision =>
    if b.client.handles.contains id then some (.decide id decision) else none
  | .subscribe id tag => some (.subscribe id tag)
  | .deliver m => some (.deliver m)
  | .refuseSends _ => none
  | .closeChannel => some (.deliver .channelClosed)
  | .closeClient => some .close

/-- An action is begun. -/
def take (b : RecordingClient) (a : Action) : RecordingClient :=
  { b with
    channel := a.tune b.channel
    stack := ((b.request? a).map fun r => Frame.todo r.task).toList ++ b.stack }

/-- What foreign code answers, and the channel afterwards. -/
def reply (channel : RecordingChannel) : Upcall → Answer × RecordingChannel
  | .send m => (.sent (channel.send m).1, (channel.send m).2)
  | _ => (.returned, channel)

variable (habit : Listener → OperationId → Value → Policy)

/-- What a listener decides from inside the callback that a task makes. -/
def wish? (c : Client) : Task → Option (OperationId × Decision)
  | .raise (.notify id (.prepared result)) =>
    (c.deliveries.get? id).bind fun d => (habit d.listener id result).decision?.map (id, ·)
  | _ => none

/-- The frame of a listener that decides. -/
def wishes (c : Client) (t : Task) : List Frame :=
  ((wish? habit c t).map fun (id, decision) => Frame.todo (.decide id decision)).toList

/-- The topmost frame makes its move; without frames nothing happens any more. -/
def move (b : RecordingClient) : RecordingClient :=
  match b.stack with
  | [] => b
  | .todo t :: rest =>
    { b with
      client := (b.client.perform t).client
      stack := wishes habit b.client t ++ (b.client.perform t).frames ++ rest
      past := b.past ++ b.client.marks t }
  | .inside u :: rest =>
    { b with
      channel := (reply b.channel u).2
      stack := u.resume (reply b.channel u).1 ++ rest
      past := b.past ++ [.answered u (reply b.channel u).1] }

/-- The recording clients that somebody may come to see, also in the middle of an action. -/
inductive Visited (config : Config) : RecordingClient → Prop
  | fresh : Visited config (fresh config)
  | taken {b : RecordingClient} (h : Visited config b) (hidle : b.stack = []) (a : Action) :
      Visited config (b.take a)
  | moved {b : RecordingClient} (h : Visited config b) : Visited config (b.move habit)

/-- A recording client, with its only thread. -/
def clientThreads (b : RecordingClient) : ClientThreads := ⟨b.client, [b.stack], b.past⟩

/-! ## Moves -/

section

variable {habit : Listener → OperationId → Value → Policy} {b : RecordingClient}

theorem move_nil (h : b.stack = []) : b.move habit = b := by
  rw [move, h]

/-- A task on top is performed, and what the listener that it calls wishes for comes above what it
leaves. -/
theorem move_todo {t : Task} {rest : List Frame} (h : b.stack = .todo t :: rest) :
    b.move habit =
      { b with
        client := (b.client.perform t).client
        stack := wishes habit b.client t ++ (b.client.perform t).frames ++ rest
        past := b.past ++ b.client.marks t } := by
  rw [move, h]

/-- A call out on top is answered by the channel, or returns. -/
theorem move_inside {u : Upcall} {rest : List Frame} (h : b.stack = .inside u :: rest) :
    b.move habit =
      { b with
        channel := (reply b.channel u).2
        stack := u.resume (reply b.channel u).1 ++ rest
        past := b.past ++ [.answered u (reply b.channel u).1] } := by
  rw [move, h]

theorem iterate_move_nil (h : b.stack = []) (n : Nat) : (move habit)^[n] b = b :=
  Function.iterate_fixed (move_nil h) n

/-- Only a listener that is called about an operation that got prepared wishes for anything. -/
theorem wish_eq_some {c : Client} {t : Task} {id : OperationId} {decision : Decision}
    (h : wish? habit c t = some (id, decision)) :
    ∃ result, t = .raise (.notify id (.prepared result)) := by
  rw [wish?.eq_def] at h
  split at h
  · rename_i i result
    obtain ⟨d, _, hd⟩ := Option.bind_eq_some_iff.mp h
    obtain ⟨_, _, hpair⟩ := Option.map_eq_some_iff.mp hd
    obtain ⟨rfl, rfl⟩ := Prod.mk.inj hpair
    exact ⟨result, rfl⟩
  · contradiction

/-- Listeners wish for decisions and for nothing else. -/
theorem mem_wishes {c : Client} {t : Task} {f : Frame} (h : f ∈ wishes habit c t) :
    ∃ id decision, wish? habit c t = some (id, decision) ∧ f = .todo (.decide id decision) := by
  rw [wishes, Option.mem_toList, Option.map_eq_some_iff] at h
  obtain ⟨⟨id, decision⟩, hwish, hf⟩ := h
  exact ⟨id, decision, hwish, hf.symm⟩

end

/-! ## A recording client among all clients -/

/-- An action puts its request on a stack that is empty. -/
theorem stack_take {b : RecordingClient} (hidle : b.stack = []) (a : Action) :
    (b.take a).stack = ((b.request? a).map fun r => Frame.todo r.task).toList := by
  rw [take, hidle, List.append_nil]

/-- An action is a choice, if it asks for anything. -/
theorem clientThreads_take {b : RecordingClient} (hidle : b.stack = []) (a : Action) :
    (b.take a).clientThreads = b.clientThreads ∨
      ∃ choice, (b.take a).clientThreads = b.clientThreads.act choice := by
  have hstack := stack_take hidle a
  cases hr : b.request? a with
  | none =>
    rw [hr] at hstack
    refine Or.inl ?_
    rw [clientThreads, hstack, clientThreads, hidle]
    rfl
  | some r =>
    rw [hr] at hstack
    refine Or.inr ⟨.ask 0 r, ?_⟩
    rw [clientThreads, hstack]
    simp [clientThreads, ClientThreads.act, hidle, isAway, take]

/-- The threads of which a recording client is one. -/
def among (b : RecordingClient) (before after : List (List Frame)) : ClientThreads :=
  ⟨b.client, before ++ b.stack :: after, b.past⟩

variable {habit}

/-- A move is one choice, or two where a listener is called that decides. -/
theorem among_move (b : RecordingClient) (before after : List (List Frame)) : ∃ choices : List Choice,
    (b.move habit).among before after = choices.foldl ClientThreads.act (b.among before after) := by
  rcases hstack : b.stack with _ | ⟨t | u, rest⟩
  · exact ⟨[], by rw [move_nil hstack]; rfl⟩
  · rw [move_todo hstack]
    cases hwish : wish? habit b.client t with
    | none =>
      refine ⟨[.move before.length], ?_⟩
      simp [among, ClientThreads.act, hstack, wishes, hwish]
    | some wish =>
      obtain ⟨result, rfl⟩ := wish_eq_some hwish
      refine ⟨[.move before.length, .ask before.length (.decide wish.1 wish.2)], ?_⟩
      simp [among, ClientThreads.act, hstack, wishes, hwish, Client.perform, isAway, Request.task]
  · rw [move_inside hstack]
    exact ⟨[.answer before.length (reply b.channel u).1], by simp [among, ClientThreads.act, hstack]⟩

/-- A move of a recording client is a step or two of the one thread that it has. -/
theorem clientThreads_move (b : RecordingClient) : ∃ choices : List Choice,
    (b.move habit).clientThreads = choices.foldl ClientThreads.act b.clientThreads := b.among_move [] []

/-- **A recording client is a client with a single thread.** -/
theorem reachable_clientThreads {config : Config} {b : RecordingClient} (h : Visited habit config b) :
    ∃ schedule, b.clientThreads = ClientThreads.run config schedule := by
  induction h with
  | fresh => exact ⟨[.join], rfl⟩
  | taken h hidle a ih =>
    rcases clientThreads_take hidle a with hsame | ⟨choice, hchoice⟩
    · rw [hsame]
      exact ih
    · rw [hchoice]
      exact ClientThreads.reached_act ih choice
  | @moved b h ih =>
    obtain ⟨choices, hchoices⟩ := @clientThreads_move habit b
    obtain ⟨schedule, hschedule⟩ := ih
    exact ⟨schedule ++ choices, by rw [hchoices, hschedule, ClientThreads.run_append]⟩

/-- What survives every step of all threads survives every move of a recording client. -/
theorem clientThreads_move_keeps {P : ClientThreads → Prop}
    (hstep : ∀ s s', ClientThreads.Step s s' → P s → P s') {b : RecordingClient}
    (h : P b.clientThreads) : P (b.move habit).clientThreads := by
  obtain ⟨choices, hchoices⟩ := @clientThreads_move habit b
  rw [hchoices]
  -- the choices follow on each other, so the induction is about any threads
  clear hchoices
  generalize b.clientThreads = s at h
  induction choices generalizing s with
  | nil => exact h
  | cons choice rest ih =>
    refine ih (s.act choice) ?_
    rcases ClientThreads.act_step s choice with hsame | hact
    · rw [hsame]
      exact h
    · exact hstep _ _ hact h

/-- Identifiers are not taken back. -/
theorem given_le_move (b : RecordingClient) :
    b.clientThreads.given.length ≤ (b.move habit).clientThreads.given.length :=
  clientThreads_move_keeps (P := fun s => b.clientThreads.given.length ≤ s.given.length)
    (fun _ _ step h => Nat.le_trans h step.given_le) (Nat.le_refl _)

theorem Visited.iterate {config : Config} {b : RecordingClient} (h : Visited habit config b) (n : Nat) :
    Visited habit config ((move habit)^[n] b) := by
  induction n with
  | zero => exact h
  | succ n ih =>
    rw [Function.iterate_succ_apply']
    exact ih.moved

end RecordingClient

/-! ## The stack of a recording client

With one thread there is nothing that could get in between a request and what it leads to. So what is
about to be done at once stands on top, and a message is taken in while nothing else is going on. -/

namespace Client.Frame

/-- Whether a frame stands on top of its stack for as long as it is there. -/
def isFleeting : Frame → Bool
  | .todo (.submit ..) | .todo (.enlist ..) | .todo (.decide ..) | .todo (.claim ..)
  | .todo (.decisionSent ..) | .todo (.dispatch _) | .todo (.accept ..) | .todo (.finish ..) => true
  | .todo (.raise (.send (.commit _))) | .todo (.raise (.send (.rollback _))) => true
  | .inside (.send _) => true
  | _ => false

/-- Whether a frame stands alone on its stack. -/
def isOpening : Frame → Bool
  | .todo (.submit ..) | .todo (.enlist ..) | .todo (.dispatch _) | .todo (.accept ..) => true
  | _ => false

theorem fleeting_of_opening {f : Frame} (h : f.isOpening = true) : f.isFleeting = true := by
  cases f with
  | inside u => contradiction
  | todo t => cases t <;> first | rfl | contradiction

end Client.Frame

/-- Only the topmost frame is about to do something at once, and some frames are all there is. -/
structure RecordingClient.Tidy (stack : List Frame) : Prop where
  fleeting : ∀ f ∈ stack.tail, f.isFleeting = false
  opening : ∀ f ∈ stack, f.isOpening = true → stack = [f]

namespace RecordingClient

/-- What a move leaves to be done at once is its first frame. -/
theorem fleeting_perform (c : Client) (t : Task) :
    ∀ f ∈ (c.perform t).frames.tail, f.isFleeting = false := by
  intro f hf
  -- where something is to be done at once, nothing else is left
  cases c.perform_leaves t f (List.mem_of_mem_tail hf) with
  | @encoded channelOpen listener operation payload =>
    cases channelOpen with
    | false => simp [Client.perform, Client.refuse] at hf
    | true =>
      cases hencode : operation.payload.encode c.config.maxFrameBytes.toNat <;>
        simp [Client.perform, hencode, Client.refuse] at hf
  | @claiming id d =>
    cases hhandle : c.handles.get? id with
    | none => simp [Client.perform, Client.decide, hhandle] at hf
    | some handle =>
      cases hasked : handle.asked <;> simp [Client.perform, Client.decide, hhandle, hasked] at hf
  | @deciding id d =>
    cases hentry : c.pending.get? id with
    | none => simp [Client.perform, Client.claim, hentry] at hf
    | some entry =>
      by_cases hopen : entry.phase = .prepared ∧ entry.decision = none <;>
        simp [Client.perform, Client.claim, hentry, hopen] at hf
  | failing => simp [Client.perform, Client.decisionSent] at hf
  | inbound => contradiction
  | entering => contradiction
  | _ => rfl

/-- No call out leaves a frame that has to stand alone. -/
theorem opening_resume {u : Upcall} {frames : List Frame} (h : u.Resumes frames) :
    ∀ f ∈ frames, f.isOpening = false := by
  cases h <;> simp [Frame.isOpening]

theorem tidy_nil : Tidy [] := ⟨(fun _ hf => by contradiction), (fun _ hf => by contradiction)⟩

theorem tidy_ask (r : Request) : Tidy [.todo r.task] where
  fleeting _ hf := by contradiction
  opening f hf _ := by rw [List.mem_singleton.mp hf]

namespace Tidy

variable {stack : List Frame} {f : Frame} {rest : List Frame}

/-- Below the topmost frame nothing is alone on the stack. -/
theorem opening_below (h : Tidy (f :: rest)) : ∀ g ∈ rest, g.isOpening = false := by
  intro g hg
  by_contra hopening
  have hfleeting := h.fleeting g hg
  rw [Frame.fleeting_of_opening (by simpa using hopening)] at hfleeting
  contradiction

variable {habit : Listener → OperationId → Value → Policy} {c : Client} {t : Task}

/-- A task leaves frames that are tidy, and those below it stay. -/
theorem perform (h : Tidy (.todo t :: rest)) :
    Tidy (wishes habit c t ++ (c.perform t).frames ++ rest) := by
  have hbelow : ∀ g ∈ rest, g.isFleeting = false := h.fleeting
  refine ⟨fun f hf => ?_, fun f hf hopening => ?_⟩
  · cases hwish : wish? habit c t with
    | none =>
      rw [wishes, hwish] at hf
      rcases mem_tail_append hf with hf | hf
      · exact fleeting_perform c t f hf
      · exact hbelow f hf
    | some wish =>
      -- a listener decides above the call that it is in
      obtain ⟨result, rfl⟩ := wish_eq_some hwish
      rw [wishes, hwish] at hf
      rcases List.mem_cons.mp hf with rfl | hf
      · rfl
      · exact hbelow f hf
  · simp only [List.mem_append] at hf
    rcases hf with (hf | hf) | hf
    · obtain ⟨id, decision, -, rfl⟩ := mem_wishes hf
      contradiction
    · cases c.perform_leaves t f hf with
      | @encoded channelOpen listener operation payload =>
        have halone := h.opening _ List.mem_cons_self rfl
        obtain rfl : rest = [] := List.cons.inj halone |>.2
        have hone : (c.perform (.submit channelOpen listener operation)).frames =
            [.todo (.enlist listener operation payload)] := by
          cases channelOpen with
          | false => contradiction
          | true =>
            cases hencode : operation.payload.encode c.config.maxFrameBytes.toNat with
            | error e => simp [Client.perform, hencode, Client.refuse] at hf
            | ok encoded => simpa [Client.perform, hencode, eq_comm] using hf
        rw [hone]
        rfl
      | inbound =>
        have halone := h.opening _ List.mem_cons_self rfl
        obtain rfl : rest = [] := List.cons.inj halone |>.2
        rfl
      | _ => contradiction
    · rw [h.opening_below f hf] at hopening
      contradiction

/-- So does a call out that returns. -/
theorem resume {u : Upcall} (h : Tidy (.inside u :: rest)) (a : Answer) :
    Tidy (u.resume a ++ rest) := by
  refine ⟨fun f hf => ?_, fun f hf hopening => ?_⟩
  · rcases mem_tail_append hf with hf | hf
    · rw [(u.resumes a).tail] at hf
      contradiction
    · exact h.fleeting f hf
  · rcases List.mem_append.mp hf with hf | hf
    · rw [opening_resume (u.resumes a) f hf] at hopening
      contradiction
    · rw [h.opening_below f hf] at hopening
      contradiction

end Tidy

variable {habit : Listener → OperationId → Value → Policy}

/-- **The stack of a recording client is tidy.** -/
theorem Visited.tidy {config : Config} {b : RecordingClient} (h : Visited habit config b) :
    Tidy b.stack := by
  induction h with
  | fresh => exact tidy_nil
  | @taken b h hidle a ih =>
    rw [stack_take hidle]
    cases b.request? a with
    | none => exact tidy_nil
    | some r => exact tidy_ask r
  | @moved b h ih =>
    rcases hstack : b.stack with _ | ⟨t | u, rest⟩
    · rw [move_nil hstack]
      exact ih
    · rw [move_todo hstack]
      rw [hstack] at ih
      exact ih.perform
    · rw [move_inside hstack]
      rw [hstack] at ih
      exact ih.resume _

end RecordingClient

end TwoPhase
