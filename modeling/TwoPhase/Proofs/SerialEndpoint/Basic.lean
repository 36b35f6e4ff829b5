import Mathlib.Logic.Function.Iterate
import TwoPhase.Participant.Handler
import TwoPhase.Proofs.EndpointThreads.Discipline
import TwoPhase.Proofs.EndpointThreads.Handling
/-
Serial endpoints: a participant with its handler and its journal, where one thread handles messages.

The handler is any deterministic one: what it reports, answers and keeps is a function of its state. The
journal is any other state that answers every append with a number or with a failure, as it likes. One
message is handled after the other, except that whoever gets a reply, and the handler while it prepares,
may hand in further ones. So a plan says which messages come and how many moves are made in between, and
what holds after every plan holds after every message, and at every reply as well.

A serial endpoint is an endpoint with a single thread (`exists_endpointThreads`), so its table is in
order; and whatever is in hand can be brought to its end (`exists_rest`).
-/

set_option autoImplicit false

namespace TwoPhase

open Endpoint (Task Upcall Answer)

/-! ## Serial endpoints -/

/-- A journal by what an append to it answers and leaves behind, and the state in which it is found. -/
structure Archive (κ : Type) where
  append : κ → OperationId → JournalEvent → UInt64 → Except JournalError UInt64 × κ
  start : κ

namespace SerialEndpoint

/-- A frame of the one thread. -/
inductive Frame where
  | endpoint (f : Endpoint.Frame)
  /-- The handler prepares a request, and these reports are still to be made. -/
  | preparing (id : OperationId) (p : Payload) (left : List Report)

/-- What a participant lets the world around it see, its journal apart. -/
inductive Sign where
  /-- The handler is called to prepare a request. -/
  | prepare (id : OperationId) (p : Payload)
  /-- The handler returns from that call. -/
  | prepared (id : OperationId) (p : Payload) (result : Except Failure Value)
  /-- The handler is called to carry a decision out, and returns. -/
  | finalized (id : OperationId) (decision : Decision) (result : Except Failure Value)
  /-- A reply is sent. -/
  | replied (m : Inbound)

/-- What is fixed about a serial endpoint: the handler and the state it starts from, the journal, and the
time. -/
structure Setting (σ κ : Type) where
  handler : Handler σ
  store : σ
  archive : Archive κ
  clock : Nat → UInt64

/-- What a plan may pick. -/
inductive Choice where
  /-- A message is to be handled. -/
  | hand (m : Outbound)
  /-- The thread makes its next move. -/
  | go

end SerialEndpoint

/-- An endpoint, the state of its handler and of its journal, the thread in it, what was seen of it, and
what its journal was asked to record. -/
structure SerialEndpoint (σ κ : Type) where
  endpoint : Endpoint
  store : σ
  journal : κ
  stack : List SerialEndpoint.Frame
  past : List SerialEndpoint.Sign
  events : List (OperationId × JournalEvent)
  age : Nat

namespace SerialEndpoint

variable {σ κ : Type}

/-- What is seen of a move: the sending of a reply. -/
def signs : Task → List Sign
  | .raise (.reply m) => [.replied m]
  | _ => []

variable (S : Setting σ κ)

/-- The participant calls out: to the handler, to the journal, or to whoever gets the replies. -/
def serve (d : SerialEndpoint σ κ) (rest : List Frame) : Upcall → SerialEndpoint σ κ
  | .prepare id p =>
    { d with
      stack := .preparing id p (S.handler.reports d.store id p) :: rest
      past := d.past ++ [.prepare id p] }
  | .finalize t decision =>
    { d with
      store := (S.handler.finalize d.store t.id decision).2
      stack := .endpoint (.todo
        (.finalized t decision (S.handler.finalize d.store t.id decision).1)) :: rest
      past := d.past ++
        [.finalized t.id decision (S.handler.finalize d.store t.id decision).1] }
  | .record id event =>
    { d with
      journal := (S.archive.append d.journal id event (S.clock d.age)).2
      stack := .endpoint (.todo
        (.recorded id (S.archive.append d.journal id event (S.clock d.age)).1)) :: rest
      events := d.events ++ [(id, event)] }
  | .reply _ => { d with stack := rest }

/-- The move of a frame that stands above the given ones. -/
def step (d : SerialEndpoint σ κ) (rest : List Frame) : Frame → SerialEndpoint σ κ
  | .endpoint (.todo t) =>
    { d with
      endpoint := (d.endpoint.perform (S.clock d.age) t).endpoint
      stack := (d.endpoint.perform (S.clock d.age) t).frames.map .endpoint ++ rest
      past := d.past ++ signs t }
  | .endpoint (.inside u) => d.serve S rest u
  | .preparing id p (r :: left) =>
    { d with
      stack := .endpoint (.todo (.raise (.reply (.report id r.severity r.text)))) ::
        .preparing id p left :: rest }
  | .preparing id p [] =>
    { d with
      store := (S.handler.prepare d.store id p).2
      stack := .endpoint (.todo (.prepared id (S.handler.prepare d.store id p).1)) :: rest
      past := d.past ++ [.prepared id p (S.handler.prepare d.store id p).1] }

/-- The topmost frame makes its move; without frames nothing happens any more. -/
def move (d : SerialEndpoint σ κ) : SerialEndpoint σ κ :=
  match d.stack with
  | [] => d
  | f :: rest => step S { d with age := d.age + 1 } rest f

/-- Whether a thread can be handed a message: between two messages, while the handler prepares, and while
a reply is delivered. -/
def isFree : List Frame → Bool
  | [] | .preparing .. :: _ | .endpoint (.inside (.reply _)) :: _ => true
  | _ => false

/-- A message is put on top of what is in hand. -/
def hand (d : SerialEndpoint σ κ) (m : Outbound) : SerialEndpoint σ κ :=
  { d with stack := .endpoint (.todo (.receive m)) :: d.stack }

/-- What a choice leads to. A message that cannot be handed in changes nothing. -/
def act (d : SerialEndpoint σ κ) : Choice → SerialEndpoint σ κ
  | .hand m => if isFree d.stack then d.hand m else d
  | .go => d.move S

/-- A serial endpoint at which nothing was handled yet. -/
def fresh : SerialEndpoint σ κ := ⟨.fresh, S.store, S.archive.start, [], [], [], 0⟩

/-- The serial endpoint after a plan. -/
def run (plan : List Choice) : SerialEndpoint σ κ := plan.foldl (act S) (fresh S)

section

variable {S} {d : SerialEndpoint σ κ} {f : Frame} {rest : List Frame}

theorem move_nil (h : d.stack = []) : d.move S = d := by
  rw [move, h]

theorem move_cons (h : d.stack = f :: rest) :
    d.move S = step S { d with age := d.age + 1 } rest f := by
  rw [move, h]

theorem run_append (plan later : List Choice) :
    run S (plan ++ later) = later.foldl (act S) (run S plan) := List.foldl_append

theorem run_concat (plan : List Choice) (choice : Choice) :
    run S (plan ++ [choice]) = (run S plan).act S choice := run_append plan [choice]

/-- So many moves, and nothing handed in. -/
theorem run_goes (plan : List Choice) (n : Nat) :
    run S (plan ++ List.replicate n .go) = (move S)^[n] (run S plan) := by
  induction n with
  | zero => rw [List.replicate_zero, List.append_nil, Function.iterate_zero_apply]
  | succ n ih =>
    rw [List.replicate_succ', ← List.append_assoc, run_concat, ih, Function.iterate_succ_apply']
    rfl

end

/-! ## A single thread -/

/-- What a frame is to the endpoint: reports are made from inside the handler. -/
def Frame.plain : Frame → Endpoint.Frame
  | .endpoint f => f
  | .preparing id p _ => .inside (.prepare id p)

/-- The endpoint with its only thread. -/
def endpointThreads (d : SerialEndpoint σ κ) (past : List (Nat × Incident)) : EndpointThreads :=
  ⟨d.endpoint, [d.stack.map Frame.plain], past⟩

variable {S}

theorem map_plain_endpoint (frames : List Endpoint.Frame) :
    (frames.map Frame.endpoint).map Frame.plain = frames := by
  rw [List.map_map]
  exact List.map_id frames

/-- A move is one of the threads', or none where the handler is entered. -/
theorem endpointThreads_move (d : SerialEndpoint σ κ) (past : List (Nat × Incident)) :
    ∃ (choices : List EndpointThreads.Choice) (past' : List (Nat × Incident)),
      choices.foldl EndpointThreads.act (d.endpointThreads past) = (d.move S).endpointThreads past' := by
  obtain ⟨e, store, journal, stack, seen, events, age⟩ := d
  rcases stack with _ | ⟨f, rest⟩
  · exact ⟨[], past, rfl⟩
  cases f with
  | endpoint f =>
    cases f with
    | todo t =>
      refine ⟨[.move 0 (S.clock (age + 1))],
        past ++ (e.incident (S.clock (age + 1)) t).toList.map (0, ·), ?_⟩
      simp only [endpointThreads, move, step, Frame.plain, List.map_cons, List.map_append,
        map_plain_endpoint]
      rfl
    | inside u =>
      cases u with
      -- to the threads the call of the handler and its reports are one stay in foreign code
      | prepare id p => exact ⟨[], past, rfl⟩
      | finalize t decision =>
        exact ⟨[.answer 0 (.handled (S.handler.finalize store t.id decision).1)], _, rfl⟩
      | record id event =>
        exact ⟨[.answer 0 (.journaled (S.archive.append journal id event (S.clock (age + 1))).1)],
          _, rfl⟩
      | reply m => exact ⟨[.answer 0 .returned], _, rfl⟩
  | preparing id p left =>
    cases left with
    | nil => exact ⟨[.answer 0 (.handled (S.handler.prepare store id p).1)], _, rfl⟩
    | cons r left => exact ⟨[.report 0 r.severity r.text], past, rfl⟩

/-- Whatever is done here, the threads of an endpoint could have done. -/
theorem exists_endpointThreads (plan : List Choice) :
    ∃ schedule past, EndpointThreads.run schedule = (run S plan).endpointThreads past := by
  induction plan using List.reverseRecOn with
  | nil => exact ⟨[.join], [], rfl⟩
  | append_singleton plan choice ih =>
    obtain ⟨schedule, past, hschedule⟩ := ih
    rw [run_concat]
    cases choice with
    | go =>
      obtain ⟨choices, past', hchoices⟩ := endpointThreads_move (S := S) (run S plan) past
      refine ⟨schedule ++ choices, past', ?_⟩
      rw [EndpointThreads.run, List.foldl_append, ← EndpointThreads.run, hschedule, hchoices]
      rfl
    | hand m =>
      cases hfree : isFree (run S plan).stack with
      | false =>
        refine ⟨schedule, past, ?_⟩
        rw [hschedule]
        simp [act, hfree]
      | true =>
        refine ⟨schedule ++ [.hand 0 m], past, ?_⟩
        -- where the serial endpoint is free, so is its only thread
        have hendpointThreads : EndpointThreads.isFree ((run S plan).stack.map Frame.plain) = true := by
          unfold isFree at hfree
          split at hfree
          · rename_i hstack
            rw [hstack]
            rfl
          · rename_i hstack
            rw [hstack]
            rfl
          · rename_i hstack
            rw [hstack]
            rfl
          · contradiction
        rw [EndpointThreads.run, List.foldl_append, ← EndpointThreads.run, hschedule]
        simp [endpointThreads, EndpointThreads.act, act, hfree, hendpointThreads, hand, Frame.plain]

/-- Every transaction is filed under its own operation. -/
theorem keyed_run (plan : List Choice) : (run S plan).endpoint.Keyed := by
  obtain ⟨schedule, past, hschedule⟩ := exists_endpointThreads (S := S) plan
  have horder := EndpointThreads.inOrder schedule ⟨0⟩
  rw [hschedule] at horder
  exact horder.keyed

/-- While a submission is gone on with, the table holds its entry. -/
theorem owned_run (plan : List Choice) {id : OperationId} {f : Frame} (hf : f ∈ (run S plan).stack)
    (howns : f.plain.owns id = true) :
    ∃ now, (run S plan).endpoint.transactions.get? id = some (.received ⟨id, now⟩) := by
  obtain ⟨schedule, past, hschedule⟩ := exists_endpointThreads (S := S) plan
  have horder := EndpointThreads.inOrder schedule id
  rw [hschedule] at horder
  have hthread : ((run S plan).endpointThreads past).threads[0]? =
      some ((run S plan).stack.map Frame.plain) := rfl
  obtain ⟨now, hheld, -⟩ := horder.owned hthread (List.mem_map_of_mem hf) howns
  exact ⟨now, hheld⟩

/-! ## That everything comes to its end -/

/-- A frame comes to its end, with all that follows from it, and leaves those below it alone. -/
def Ends (S : Setting σ κ) (f : Frame) : Prop :=
  ∀ (d : SerialEndpoint σ κ) (rest : List Frame), d.stack = f :: rest → ∃ n, ((move S)^[n] d).stack = rest

theorem Ends.all {frames : List Frame} (h : ∀ f ∈ frames, Ends S f) (d : SerialEndpoint σ κ)
    (rest : List Frame) (hstack : d.stack = frames ++ rest) :
    ∃ n, ((move S)^[n] d).stack = rest := by
  induction frames generalizing d with
  | nil => exact ⟨0, hstack⟩
  | cons f frames ih =>
    obtain ⟨n, hn⟩ := h f List.mem_cons_self d (frames ++ rest) hstack
    obtain ⟨k, hk⟩ := ih (fun g hg => h g (List.mem_cons_of_mem f hg)) _ hn
    refine ⟨k + n, ?_⟩
    rw [Function.iterate_add_apply]
    exact hk

/-- What the first move leaves behind comes to its end, and so does the frame. -/
theorem Ends.of_move {f : Frame}
    (h : ∀ (d : SerialEndpoint σ κ) (rest : List Frame), d.stack = f :: rest →
      ∃ frames, (d.move S).stack = frames ++ rest ∧ ∀ g ∈ frames, Ends S g) : Ends S f := by
  intro d rest hstack
  obtain ⟨frames, hframes, hends⟩ := h d rest hstack
  obtain ⟨n, hn⟩ := Ends.all hends (d.move S) rest hframes
  exact ⟨n + 1, hn⟩

/-- A frame is part of the weight of those it stands among. -/
theorem weight_le_of_mem {f : Endpoint.Frame} {frames : List Endpoint.Frame} (hf : f ∈ frames) :
    Endpoint.weight [f] ≤ Endpoint.weight frames := by
  obtain ⟨before, after, rfl⟩ := List.append_of_mem hf
  have hsplit : before ++ f :: after = before ++ ([f] ++ after) := rfl
  rw [hsplit, Endpoint.weight_append before, Endpoint.weight_append [f]]
  omega

/-- **Every frame comes to its end.** By induction on what is left to do, where the reports of the handler
are counted apart: how many there are is known only when it is called. -/
theorem ends (f : Frame) : Ends S f := by
  generalize hweight : Endpoint.weight [f.plain] = w
  induction w using Nat.strongRecOn generalizing f with
  | _ w ih =>
    have hafter (frames : List Endpoint.Frame) (hless : Endpoint.weight frames < w) :
        ∀ g ∈ frames.map Frame.endpoint, Ends S g := by
      intro g hg
      obtain ⟨inner, hinner, rfl⟩ := List.mem_map.mp hg
      exact ih _ (lt_of_le_of_lt (weight_le_of_mem hinner) hless) (.endpoint inner) rfl
    -- the weight does not know of the reports that are left, so they are gone through on their own
    have hpreparing (id : OperationId) (p : Payload) (hw : w = 8) (left : List Report) :
        Ends S (.preparing id p left) := by
      induction left with
      | nil =>
        apply Ends.of_move
        intro d rest hstack
        refine ⟨[_], by rw [move_cons hstack]; rfl, hafter [_] ?_⟩
        simp only [hw, Endpoint.weight, Task.weight]
        omega
      | cons r left ihleft =>
        apply Ends.of_move
        intro d rest hstack
        refine ⟨[_, _], by rw [move_cons hstack]; rfl, ?_⟩
        intro g hg
        rcases List.mem_cons.mp hg with rfl | hg
        · refine hafter [_] ?_ _ List.mem_cons_self
          simp only [hw, Endpoint.weight, Task.weight, Upcall.weight]
          omega
        · rw [List.mem_singleton.mp hg]
          exact ihleft
    cases f with
    | preparing id p left => exact hpreparing id p hweight.symm left
    | endpoint f =>
      apply Ends.of_move
      intro d rest hstack
      rw [move_cons hstack]
      cases f with
      | todo t =>
        refine ⟨_, rfl, hafter _ ?_⟩
        have := Endpoint.weight_perform d.endpoint (S.clock (d.age + 1)) t
        simp only [Frame.plain, Endpoint.weight] at hweight
        show Endpoint.weight (d.endpoint.perform (S.clock (d.age + 1)) t).frames < w
        omega
      | inside u =>
        cases u with
        | prepare id p =>
          refine ⟨[_], rfl, ?_⟩
          intro g hg
          rw [List.mem_singleton.mp hg]
          exact hpreparing id p hweight.symm _
        | finalize t decision =>
          refine ⟨[_], rfl, hafter [_] ?_⟩
          simp only [← hweight, Frame.plain, Endpoint.weight, Task.weight, Upcall.weight]
          omega
        | record id event =>
          refine ⟨[_], rfl, hafter [_] ?_⟩
          simp only [← hweight, Frame.plain, Endpoint.weight, Task.weight, Upcall.weight]
          omega
        | reply m => exact ⟨[], rfl, fun g hg => absurd hg List.not_mem_nil⟩

/-- Whatever is in hand is brought to its end by so many moves. -/
theorem exists_rest (d : SerialEndpoint σ κ) : ∃ n, ((move S)^[n] d).stack = [] :=
  Ends.all (fun f _ => ends f) d [] (List.append_nil d.stack).symm

end SerialEndpoint

end TwoPhase
