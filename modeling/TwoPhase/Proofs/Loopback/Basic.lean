import TwoPhase.Participant.KeyValue
import TwoPhase.Proofs.Agreement.MessageHandling
import TwoPhase.Proofs.RecordingClient.Basic
/-
A loopback: a client and a participant in one process, with a channel between them that calls straight
through.

What the client sends is handled by the participant before the send returns, on the same thread, and what
the participant replies reaches the client in the middle of that; so one stack holds frames of both ends,
and a listener that decides from inside its callback does so while the participant is still inside of its
reply. Somebody takes one action after the other, each of which is let come to its end. Seen from the
client a loopback is a client with a single thread (`reachable_clientThreads`): the frames of the far end
stand above a send that has not returned yet.
-/

set_option autoImplicit false

namespace TwoPhase

open Client (Task)

namespace Loopback

/-- A frame of the one thread. -/
inductive Frame where
  | client (f : Client.Frame)
  | endpoint (f : Endpoint.Frame)
  /-- The handler has made its reports and is about to prepare a request. -/
  | conclude (id : OperationId) (p : Payload)
  /-- The channel is about to return from a send: the far end is done with the message. -/
  | returning (m : Outbound)

end Loopback

/-- What is fixed about a loopback: how requests are handled and from which state on, what listeners do
when their operation is prepared, the time, and the client's configuration. -/
structure Setting (σ : Type) where
  handler : Handler σ
  store : σ
  habit : Listener → OperationId → Value → Policy
  clock : Nat → UInt64
  config : Config

/-- A client, the channel, the participant behind it with its journal and the state of its handler, the
thread that uses them all, and what happened so far at either end. -/
structure Loopback (σ : Type) where
  client : Client
  isOpen : Bool
  endpoint : Endpoint
  journal : Journal
  store : σ
  stack : List Loopback.Frame
  past : List Mark
  handlerCalls : List HandlerCall
  age : Nat

namespace Loopback

variable {σ : Type}

/-- What somebody does with a loopback. -/
inductive Action where
  /-- Submits an operation for a listener. -/
  | execute (listener : Listener) (operation : Operation)
  /-- Decides an operation, through any copy of its handle. -/
  | decide (id : OperationId) (decision : Decision)
  /-- Subscribes to the outcome of an operation. -/
  | subscribe (id : OperationId) (tag : String)
  /-- Closes the channel, which tells the client. -/
  | closeChannel
  /-- Closes the client. -/
  | closeClient

/-- Whether an action closes the channel or the client. -/
def Action.closes : Action → Bool
  | .closeChannel | .closeClient => true
  | _ => false

/-- What an action asks of the client. An operation can be decided once there is a handle. -/
def request? (c : Loopback σ) : Action → Option Request
  | .execute listener operation => some (.submit c.isOpen listener operation)
  | .decide id decision =>
    if c.client.handles.contains id then some (.decide id decision) else none
  | .subscribe id tag => some (.subscribe id tag)
  | .closeChannel => some (.deliver .channelClosed)
  | .closeClient => some .close

/-- Whether the channel is open after an action. -/
def Action.tune : Action → Bool → Bool
  | .closeChannel, _ => false
  | _, isOpen => isOpen

/-- An action is begun. -/
def take (c : Loopback σ) (a : Action) : Loopback σ :=
  { c with
    isOpen := a.tune c.isOpen
    stack := ((c.request? a).map fun r => Frame.client (.todo r.task)).toList ++ c.stack }

/-! ## Moves -/

/-- Foreign code of the client has answered, above the given frames. -/
def answer (c : Loopback σ) (u : Client.Upcall) (a : Client.Answer) (rest : List Frame) : Loopback σ :=
  { c with stack := (u.resume a).map .client ++ rest, past := c.past ++ [.answered u a] }

/-- The client calls out. An open channel hands the message to the participant and returns when that is
done with it; a closed one refuses it. -/
def call (c : Loopback σ) (rest : List Frame) : Client.Upcall → Loopback σ
  | .send m =>
    if c.isOpen then { c with stack := .endpoint (.todo (.receive m)) :: .returning m :: rest }
    else c.answer (.send m) (.sent (.error .closed)) rest
  | u => c.answer u .returned rest

variable (S : Setting σ)

/-- The participant calls out: to the handler, to the journal in memory, or to the client. -/
def serve (c : Loopback σ) (rest : List Frame) : Endpoint.Upcall → Loopback σ
  | .prepare id p =>
    { c with
      stack := ((S.handler.reports c.store id p).map fun r =>
          .endpoint (.todo (.raise (.reply (.report id r.severity r.text))))) ++
        .conclude id p :: rest }
  | .finalize t decision =>
    { c with
      store := (S.handler.finalize c.store t.id decision).2
      stack := .endpoint (.todo
        (.finalized t decision (S.handler.finalize c.store t.id decision).1)) :: rest
      handlerCalls := c.handlerCalls ++
        [.finalized t.id decision (S.handler.finalize c.store t.id decision).1] }
  | .record id event =>
    { c with
      journal := (c.journal.append id event (S.clock c.age)).2
      stack := .endpoint (.todo
        (.recorded id (.ok (c.journal.append id event (S.clock c.age)).1))) :: rest }
  | .reply m => { c with stack := .client (.todo (.dispatch m)) :: rest }

/-- The move of a frame that stands above the given ones. -/
def step (c : Loopback σ) (rest : List Frame) : Frame → Loopback σ
  | .client (.todo t) =>
    { c with
      client := (c.client.perform t).client
      stack := (RecordingClient.wishes S.habit c.client t ++
        (c.client.perform t).frames).map .client ++ rest
      past := c.past ++ c.client.marks t }
  | .client (.inside u) => c.call rest u
  | .endpoint (.todo t) =>
    { c with
      endpoint := (c.endpoint.perform (S.clock c.age) t).endpoint
      stack := (c.endpoint.perform (S.clock c.age) t).frames.map .endpoint ++ rest }
  | .endpoint (.inside u) => c.serve S rest u
  | .conclude id p =>
    { c with
      store := (S.handler.prepare c.store id p).2
      stack := .endpoint (.todo (.prepared id (S.handler.prepare c.store id p).1)) :: rest
      handlerCalls := c.handlerCalls ++ [.prepared id p (S.handler.prepare c.store id p).1] }
  | .returning m => c.answer (.send m) (.sent (.ok ())) rest

/-- The topmost frame makes its move; without frames nothing happens any more. -/
def move (c : Loopback σ) : Loopback σ :=
  match c.stack with
  | [] => c
  | f :: rest => step S { c with age := c.age + 1 } rest f

/-- A loopback that nobody used yet. -/
def fresh : Loopback σ := ⟨.fresh S.config, true, .fresh, .empty, S.store, [], [], [], 0⟩

/-- The loopbacks that somebody may come to see, also in the middle of an action. -/
inductive Visited : Loopback σ → Prop
  | fresh : Visited (fresh S)
  | taken {c : Loopback σ} (h : Visited c) (hidle : c.stack = []) (a : Action) : Visited (c.take a)
  | moved {c : Loopback σ} (h : Visited c) : Visited (c.move S)

section

variable {S} {c : Loopback σ}

theorem move_nil (h : c.stack = []) : c.move S = c := by
  rw [move, h]

/-- The frame on top is what moves. -/
theorem move_cons {f : Frame} {rest : List Frame} (h : c.stack = f :: rest) :
    c.move S = step S { c with age := c.age + 1 } rest f := by
  rw [move, h]

/-- An action puts its request on a stack that is empty. -/
theorem stack_take (hidle : c.stack = []) (a : Action) :
    (c.take a).stack = ((c.request? a).map fun r => Frame.client (.todo r.task)).toList := by
  rw [take, hidle, List.append_nil]

/-- All calls out but that of the channel return at once. -/
theorem call_of_ne_send {u : Client.Upcall} (hu : ∀ m, u ≠ .send m) (rest : List Frame) :
    c.call rest u = c.answer u .returned rest := by
  cases u with
  | send m => exact absurd rfl (hu m)
  | _ => rfl

/-- What is not handed over is answered at once. -/
theorem call_answered {u : Client.Upcall} (hu : ∀ m, u = .send m → c.isOpen = false)
    (rest : List Frame) : ∃ a, c.call rest u = c.answer u a rest := by
  cases u with
  | send m => exact ⟨.sent (.error .closed), by simp [call, hu m rfl]⟩
  | _ => exact ⟨.returned, rfl⟩

/-- What a move does to the client, and what is remembered of it. -/
theorem client_move (c : Loopback σ) :
    (∃ t rest, c.stack = .client (.todo t) :: rest ∧
      (c.move S).client = (c.client.perform t).client ∧
      (c.move S).past = c.past ++ c.client.marks t) ∨
    ((c.move S).client = c.client ∧ ((c.move S).past = c.past ∨
      ∃ u a, (c.move S).past = c.past ++ [.answered u a])) := by
  rcases hstack : c.stack with _ | ⟨f, rest⟩
  · rw [move_nil hstack]
    exact Or.inr ⟨rfl, Or.inl rfl⟩
  rw [move_cons hstack]
  cases f with
  | client f =>
    cases f with
    | todo t => exact Or.inl ⟨t, rest, rfl, rfl, rfl⟩
    | inside u =>
      refine Or.inr ?_
      by_cases hsend : ∃ m, u = .send m ∧ c.isOpen = true
      · obtain ⟨m, rfl, hopen⟩ := hsend
        simp only [step, call, hopen, if_true]
        exact ⟨trivial, Or.inl trivial⟩
      · have hclosed : ∀ m, u = .send m → c.isOpen = false := fun m hm =>
          Bool.eq_false_iff.mpr fun hopen => hsend ⟨m, hm, hopen⟩
        obtain ⟨a, hanswer⟩ := call_answered (c := { c with age := c.age + 1 }) hclosed rest
        rw [step, hanswer]
        exact ⟨rfl, Or.inr ⟨u, a, rfl⟩⟩
  | returning m => exact Or.inr ⟨rfl, Or.inr ⟨_, _, rfl⟩⟩
  | conclude id p => exact Or.inr ⟨rfl, Or.inl rfl⟩
  | endpoint f =>
    cases f with
    | todo t => exact Or.inr ⟨rfl, Or.inl rfl⟩
    | inside u => cases u <;> exact Or.inr ⟨rfl, Or.inl rfl⟩

end

/-! ## The far end stands on a send -/

namespace Frame

/-- Whether a frame belongs to the far end. -/
def isFar : Frame → Bool
  | .endpoint _ | .conclude .. => true
  | _ => false

/-- Whether a frame may stand right below one of the far end. -/
def isBase : Frame → Bool
  | .client _ => false
  | _ => true

end Frame

/-- Below a frame of the far end there is another one, or the send that led there. -/
def Grounded : List Frame → Prop
  | [] => True
  | f :: rest => (f.isFar = true → ∃ g, rest.head? = some g ∧ g.isBase = true) ∧ Grounded rest

namespace Grounded

variable {stack rest frames : List Frame} {f : Frame}

/-- Frames that have nothing to do with the far end may stand on top of any stack that is grounded. -/
theorem near (hframes : ∀ f ∈ frames, f.isFar = false) (h : Grounded rest) :
    Grounded (frames ++ rest) := by
  induction frames with
  | nil => exact h
  | cons f frames ih =>
    refine ⟨fun hfar => ?_, ih fun g hg => hframes g (List.mem_cons_of_mem f hg)⟩
    rw [hframes f List.mem_cons_self] at hfar
    contradiction

/-- Frames of the far end may be put above one that can carry them. -/
theorem far {g : Frame} (hframes : ∀ f ∈ frames, f.isBase = true) (hg : g.isBase = true)
    (h : Grounded (g :: rest)) : Grounded (frames ++ g :: rest) := by
  induction frames with
  | nil => exact h
  | cons f frames ih =>
    refine ⟨fun _ => ?_, ih fun g hg => hframes g (List.mem_cons_of_mem f hg)⟩
    cases frames with
    | nil => exact ⟨g, rfl, hg⟩
    | cons f' frames => exact ⟨f', rfl, hframes f' (by simp)⟩

/-- Frames of the far end may take the place of one of its frames. -/
theorem replace (frames : List Frame) (hfar : f.isFar = true) (hframes : ∀ f ∈ frames, f.isBase = true)
    (h : Grounded (f :: rest)) : Grounded (frames ++ rest) := by
  obtain ⟨hbelow, hrest⟩ := h
  obtain ⟨g, hhead, hg⟩ := hbelow hfar
  obtain ⟨below, rfl⟩ : ∃ below, rest = g :: below := List.head?_eq_some_iff.mp hhead
  exact far hframes hg hrest

end Grounded

variable {S} in
/-- What a frame is replaced by stands on what it stood on. -/
theorem grounded_step {c : Loopback σ} {f : Frame} {rest : List Frame}
    (h : Grounded (f :: rest)) : Grounded (step S c rest f).stack := by
  -- the client's frames may stand anywhere; those of the far end replace one of their own
  have hnear (frames : List Client.Frame) : Grounded (frames.map Frame.client ++ rest) := by
    refine Grounded.near (fun f hf => ?_) h.2
    obtain ⟨g, -, rfl⟩ := List.mem_map.mp hf
    rfl
  cases f with
  | client f =>
    cases f with
    | todo t => exact hnear _
    | inside u =>
      by_cases hu : ∃ m, u = .send m
      · obtain ⟨m, rfl⟩ := hu
        cases hopen : c.isOpen with
        | true =>
          simp only [step, call, hopen, if_true]
          exact ⟨fun _ => ⟨_, rfl, rfl⟩, nofun, h.2⟩
        | false =>
          simp only [step, call, hopen, Bool.false_eq_true, if_false]
          exact hnear _
      · simp only [step, call_of_ne_send fun m hm => hu ⟨m, hm⟩]
        exact hnear _
  | returning m => exact hnear _
  | conclude id p =>
    exact Grounded.replace [_] rfl (by simp [Frame.isBase]) h
  | endpoint f =>
    cases f with
    | todo t =>
      refine Grounded.replace _ rfl (fun f hf => ?_) h
      obtain ⟨g, -, rfl⟩ := List.mem_map.mp hf
      rfl
    | inside u =>
      cases u with
      | prepare id p =>
        have hconclude : Grounded (.conclude id p :: rest) :=
          Grounded.replace [_] rfl (by simp [Frame.isBase]) h
        refine Grounded.far (fun f hf => ?_) rfl hconclude
        obtain ⟨r, -, rfl⟩ := List.mem_map.mp hf
        rfl
      | finalize t d => exact Grounded.replace [_] rfl (by simp [Frame.isBase]) h
      | record id event => exact Grounded.replace [_] rfl (by simp [Frame.isBase]) h
      | reply m => exact hnear [.todo (.dispatch m)]

variable {S}

/-- **The far end stands on sends.** -/
theorem Visited.grounded {c : Loopback σ} (h : Visited S c) : Grounded c.stack := by
  induction h with
  | fresh => exact trivial
  | @taken c h hidle a ih =>
    rw [stack_take hidle]
    cases c.request? a with
    | none => exact trivial
    | some r => exact ⟨nofun, trivial⟩
  | @moved c h ih =>
    rcases hstack : c.stack with _ | ⟨f, rest⟩
    · rw [move_nil hstack]
      exact ih
    · rw [move_cons hstack]
      rw [hstack] at ih
      exact grounded_step ih

/-! ## The client of a loopback -/

/-- What a frame is to the client: the far end works while a send has not returned. -/
def Frame.shadow : Frame → Option Client.Frame
  | .client f => some f
  | .returning m => some (.inside (.send m))
  | _ => none

/-- What a stack is to the client. -/
def shadows (stack : List Frame) : List Client.Frame := stack.filterMap Frame.shadow

@[simp] theorem shadows_nil : shadows [] = [] := rfl

@[simp] theorem shadows_client (f : Client.Frame) (rest : List Frame) :
    shadows (.client f :: rest) = f :: shadows rest := rfl

@[simp] theorem shadows_returning (m : Outbound) (rest : List Frame) :
    shadows (.returning m :: rest) = .inside (.send m) :: shadows rest := rfl

@[simp] theorem shadows_endpoint (f : Endpoint.Frame) (rest : List Frame) :
    shadows (.endpoint f :: rest) = shadows rest := rfl

@[simp] theorem shadows_conclude (id : OperationId) (p : Payload) (rest : List Frame) :
    shadows (.conclude id p :: rest) = shadows rest := rfl

/-- The client sees its own part of a stack. -/
@[simp] theorem shadows_append (first rest : List Frame) :
    shadows (first ++ rest) = shadows first ++ shadows rest := List.filterMap_append

@[simp] theorem shadows_map_client (frames : List Client.Frame) :
    shadows (frames.map Frame.client) = frames := by
  rw [shadows, List.filterMap_map]
  exact List.filterMap_some

@[simp] theorem shadows_map_far {α : Type} (l : List α) (f : α → Endpoint.Frame) :
    shadows (l.map fun x => Frame.endpoint (f x)) = [] := filterMap_map_of_none (fun _ => rfl) l

@[simp] theorem shadows_map_endpoint (frames : List Endpoint.Frame) :
    shadows (frames.map Frame.endpoint) = [] := shadows_map_far frames id

/-- The client of a loopback, with its only thread. -/
def clientThreads (c : Loopback σ) : ClientThreads := ⟨c.client, [shadows c.stack], c.past⟩

/-- Below the far end the client is away. -/
theorem away_of_far {f : Frame} {rest : List Frame} (hfar : f.isFar = true)
    (h : Grounded (f :: rest)) : isAway (shadows rest) = true := by
  induction rest generalizing f with
  | nil => rfl
  | cons g rest ih =>
    obtain ⟨hbelow, hrest⟩ := h
    obtain ⟨_, hhead, hg⟩ := hbelow hfar
    obtain rfl := Option.some.inj hhead
    cases g with
    | client f => contradiction
    | returning m => rfl
    | endpoint f => exact ih rfl hrest
    | conclude id p => exact ih rfl hrest

/-- An action is a request of the one thread that a loopback has, or nothing to the client. -/
theorem clientThreads_take {c : Loopback σ} (hidle : c.stack = []) (a : Action) :
    (c.take a).clientThreads = c.clientThreads ∨
      ∃ choice, (c.take a).clientThreads = c.clientThreads.act choice := by
  have hstack := stack_take hidle a
  cases hr : c.request? a with
  | none =>
    rw [hr] at hstack
    refine Or.inl ?_
    rw [clientThreads, hstack, clientThreads, hidle]
    rfl
  | some r =>
    rw [hr] at hstack
    refine Or.inr ⟨.ask 0 r, ?_⟩
    rw [clientThreads, hstack]
    simp [clientThreads, ClientThreads.act, hidle, isAway, take]

/-- An answer at the loopback is an answer to that thread. -/
theorem clientThreads_answer {c : Loopback σ} (u : Client.Upcall) (a : Client.Answer) {f : Frame}
    {rest : List Frame} (hstack : c.stack = f :: rest) (hf : f.shadow = some (.inside u)) :
    (c.answer u a rest).clientThreads = c.clientThreads.act (.answer 0 a) := by
  have hthread : c.clientThreads.threads[0]? = some (.inside u :: shadows rest) := by
    rw [clientThreads, hstack, shadows, List.filterMap_cons_some hf]
    rfl
  rw [ClientThreads.act, hthread]
  simp [clientThreads, answer]

/-- A move is a few choices of the one thread, and none where only the far end moves. -/
theorem clientThreads_move {c : Loopback σ} (h : Grounded c.stack) : ∃ choices : List Choice,
    (c.move S).clientThreads = choices.foldl ClientThreads.act c.clientThreads := by
  rcases hstack : c.stack with _ | ⟨f, rest⟩
  · exact ⟨[], by rw [move_nil hstack]; rfl⟩
  rw [move_cons hstack]
  rw [hstack] at h
  cases f with
  | client f =>
    cases f with
    | todo t =>
      cases hwish : RecordingClient.wish? S.habit c.client t with
      | none =>
        refine ⟨[.move 0], ?_⟩
        simp [step, clientThreads, ClientThreads.act, hstack, RecordingClient.wishes, hwish,
          -List.map_append]
      | some wish =>
        obtain ⟨result, rfl⟩ := RecordingClient.wish_eq_some hwish
        refine ⟨[.move 0, .ask 0 (.decide wish.1 wish.2)], ?_⟩
        simp [step, clientThreads, ClientThreads.act, hstack, RecordingClient.wishes, hwish,
          Client.perform, isAway, Request.task]
    | inside u =>
      by_cases hu : ∃ m, u = .send m
      · obtain ⟨m, rfl⟩ := hu
        cases hopen : c.isOpen with
        | true =>
          -- to the client nothing has happened yet
          refine ⟨[], ?_⟩
          simp [step, call, clientThreads, hstack]
        | false =>
          refine ⟨[.answer 0 (.sent (.error .closed))], ?_⟩
          simp only [step, call, Bool.false_eq_true, if_false]
          exact clientThreads_answer _ _ hstack rfl
      · refine ⟨[.answer 0 .returned], ?_⟩
        simp only [step, call_of_ne_send fun m hm => hu ⟨m, hm⟩]
        exact clientThreads_answer _ _ hstack rfl
  | returning m =>
    refine ⟨[.answer 0 (.sent (.ok ()))], ?_⟩
    exact clientThreads_answer (c := { c with age := c.age + 1 }) _ _ hstack rfl
  | conclude id p =>
    refine ⟨[], ?_⟩
    simp [step, clientThreads, hstack]
  | endpoint f =>
    cases f with
    | todo t =>
      refine ⟨[], ?_⟩
      simp [step, clientThreads, hstack]
    | inside u =>
      cases u with
      | reply m =>
        have haway := away_of_far rfl h
        refine ⟨[.ask 0 (.deliver m)], ?_⟩
        simp [step, serve, clientThreads, ClientThreads.act, hstack, haway, Request.task]
      | _ =>
        refine ⟨[], ?_⟩
        simp [step, serve, clientThreads, hstack]

/-- **The client of a loopback is one with a single thread.** -/
theorem reachable_clientThreads {c : Loopback σ} (h : Visited S c) :
    ∃ schedule, c.clientThreads = ClientThreads.run S.config schedule := by
  induction h with
  | fresh => exact ⟨[.join], rfl⟩
  | taken h hidle a ih =>
    rcases clientThreads_take hidle a with hsame | ⟨choice, hchoice⟩
    · rw [hsame]
      exact ih
    · rw [hchoice]
      exact ClientThreads.reached_act ih choice
  | moved h ih =>
    obtain ⟨choices, hchoices⟩ := clientThreads_move (S := S) h.grounded
    obtain ⟨schedule, hschedule⟩ := ih
    exact ⟨schedule ++ choices, by rw [hchoices, hschedule, ClientThreads.run_append]⟩

end Loopback

end TwoPhase
