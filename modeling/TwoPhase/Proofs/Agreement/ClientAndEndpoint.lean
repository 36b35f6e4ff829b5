import TwoPhase.Proofs.Agreement.MessageHandling
import TwoPhase.Proofs.ClientThreads.Frames
import TwoPhase.Proofs.ClientThreads.Sends
/-
A client and a participant, and two bags of messages between them.

The client has any number of threads, under any interleaving. The participant handles one message at a
time. A message goes into a bag when it is handed over and may be taken out at any time, in any order, or
never. What a channel says about a message that it was handed is left to the schedule: even one that it
refuses may arrive. The bags, the client's threads and the participant also keep a history, which
only statements look at.
-/

set_option autoImplicit false

namespace TwoPhase

open Client (Task Frame Upcall Answer Event)

/-! ## Client and endpoint, and what they do -/

/-- The message that a choice hands to the channel, if it hands over one. -/
def ClientThreads.departing (s : ClientThreads) : Choice → List Outbound
  | .move n =>
    match s.threads[n]? with
    | some (.todo t :: _) => t.departing
    | _ => []
  | _ => []

/-- Whether a choice makes a message up. Only the close of the channel needs no participant. -/
def Choice.invents : Choice → Bool
  | .ask _ (.deliver .channelClosed) => false
  | .ask _ (.deliver _) => true
  | _ => false

/-- A client with its threads, a participant with its handler's state, and what is between them. -/
structure ClientAndEndpoint (σ : Type) where
  clientThreads : ClientThreads
  endpoint : Endpoint
  store : σ
  /-- The messages that the participant may still get. -/
  outbound : List Outbound
  /-- The messages that the client may still get. -/
  inbound : List Inbound
  /-- The messages that the participant has handled. -/
  handled : List Outbound
  /-- The messages that the participant has sent. -/
  replied : List Inbound
  /-- What the handler was made to do. -/
  handlerCalls : List HandlerCall
  /-- What the participant has noted. -/
  notes : List Note

/-- What a schedule may pick. -/
inductive ClientAndEndpoint.Choice where
  /-- Something happens at the client. -/
  | client (choice : TwoPhase.Choice)
  /-- A thread of the client delivers a message of the participant. -/
  | deliver (thread message : Nat)
  /-- The participant handles a message of the client. -/
  | handle (message : Nat) (now : UInt64) (journal : JournalEvent → Except JournalError UInt64)

namespace ClientAndEndpoint

variable {σ : Type}

/-- A client and a participant that nobody used yet. -/
def fresh (config : Config) (store : σ) : ClientAndEndpoint σ :=
  ⟨.fresh config, .fresh, store, [], [], [], [], [], []⟩

/-- What a choice leads to. A message that is delivered to a thread that cannot take it is lost. -/
def act (h : Handler σ) (s : ClientAndEndpoint σ) : Choice → ClientAndEndpoint σ
  | .client choice =>
    if choice.invents then s
    else
      { s with
        clientThreads := s.clientThreads.act choice
        outbound := s.outbound ++ s.clientThreads.departing choice }
  | .deliver n k =>
    match s.inbound[k]? with
    | some m =>
      { s with clientThreads := s.clientThreads.act (.ask n (.deliver m)), inbound := s.inbound.eraseIdx k }
    | none => s
  | .handle k now journal =>
    match s.outbound[k]? with
    | some m =>
      let x := MessageHandling.serve h now journal s.endpoint s.store m
      { s with
        endpoint := x.endpoint
        store := x.store
        outbound := s.outbound.eraseIdx k
        inbound := s.inbound ++ x.replies
        handled := s.handled ++ [m]
        replied := s.replied ++ x.replies
        handlerCalls := s.handlerCalls ++ x.handlerCalls
        notes := s.notes ++ x.notes }
    | none => s

/-- Both ends after a schedule. -/
def run (h : Handler σ) (config : Config) (store : σ) (schedule : List Choice) : ClientAndEndpoint σ :=
  schedule.foldl (act h) (fresh config store)

end ClientAndEndpoint

/-! ## What the client was told

Whatever the client does with an operation goes back to a message that it was given. -/

/-- A task of a client is backed by what the participant has sent. -/
def Client.Task.Backed (replied : List Inbound) : Task → Prop
  | .dispatch m => m ∈ replied ∨ m = .channelClosed
  | .accept id result => .prepared id result ∈ replied
  | .finish id (.completed result) _ => .completed id result ∈ replied
  | .finish id (.failed f) kind => kind = "failed" → .failed id f ∈ replied
  | _ => True

/-- A frame of a client is backed if the task in it is. -/
def Client.Frame.Backed (replied : List Inbound) : Frame → Prop
  | .todo t => t.Backed replied
  | .inside _ => True

/-- Every frame and every move of the past is backed. -/
structure ClientThreads.Backed (s : ClientThreads) (replied : List Inbound) : Prop where
  frames : ∀ f ∈ s.frames, f.Backed replied
  past : ∀ t shown, .moved t shown ∈ s.past → t.Backed replied

section

variable {replied : List Inbound}

/-- What is backed stays so when more replies are sent. -/
theorem Client.Task.Backed.mono {t : Task} (h : t.Backed replied) (more : List Inbound) :
    t.Backed (replied ++ more) := by
  cases t with
  | dispatch m => exact h.imp_left (List.mem_append_left more)
  | accept id result => exact List.mem_append_left more h
  | finish id outcome kind =>
    cases outcome with
    | completed result => exact List.mem_append_left more h
    | failed f => exact fun hkind => List.mem_append_left more (h hkind)
  | _ => trivial

theorem Client.Frame.Backed.mono {f : Frame} (h : f.Backed replied) (more : List Inbound) :
    f.Backed (replied ++ more) := by
  cases f with
  | todo t => exact Task.Backed.mono h more
  | inside u => trivial

/-- What the client is to do about a message is backed by it. -/
theorem backed_taskOf {m : Inbound} (h : m ∈ replied ∨ m = .channelClosed) :
    (Client.taskOf m).Backed replied := by
  rcases h with h | rfl
  · cases m with
    | failed id f => exact fun _ => h
    | prepared id result => exact h
    | completed id result => exact h
    | _ => trivial
  · trivial

/-- A move of a backed task leads to backed frames: the only tasks that need backing come from a
message, or from a decision that could not be sent. -/
theorem backed_perform (c : Client) {t : Task} (h : t.Backed replied) :
    ∀ f ∈ (c.perform t).frames, f.Backed replied := by
  intro f hf
  cases c.perform_leaves t f hf with
  | inbound => exact backed_taskOf h
  | failing => exact fun hkind => absurd hkind (by decide)
  | _ => trivial

/-- Going on after a call out needs no backing. -/
theorem backed_resume {u : Upcall} {frames : List Frame} (h : u.Resumes frames) :
    ∀ f ∈ frames, f.Backed replied := by
  cases h <;> simp [Frame.Backed, Task.Backed]

namespace ClientThreads

theorem Backed.mono {s : ClientThreads} (h : s.Backed replied) (more : List Inbound) :
    s.Backed (replied ++ more) :=
  ⟨fun f hf => (h.frames f hf).mono more, fun t shown ht => (h.past t shown ht).mono more⟩

/-- Where one thread changes into backed frames, everything stays backed. -/
theorem Backed.replace {c c' : Client} {past more : List Mark} {before after : List (List Frame)}
    {f : Frame} {rest new : List Frame}
    (h : Backed ⟨c, before ++ (f :: rest) :: after, past⟩ replied)
    (hnew : ∀ g ∈ new, g.Backed replied)
    (hmore : ∀ t shown, .moved t shown ∈ more → t.Backed replied) :
    Backed ⟨c', before ++ (new ++ rest) :: after, past ++ more⟩ replied := by
  refine ⟨fun g hg => ?_, fun t shown ht => ?_⟩
  · simp only [ClientThreads.frames, List.mem_flatten, List.mem_append, List.mem_cons] at hg
    obtain ⟨stack, hstack | rfl | hstack, hg⟩ := hg
    · exact h.frames g (List.mem_flatten.mpr ⟨stack, by simp [hstack], hg⟩)
    · rcases List.mem_append.mp hg with hg | hg
      · exact hnew g hg
      · exact h.frames g (List.mem_flatten.mpr ⟨f :: rest, by simp, by simp [hg]⟩)
    · exact h.frames g (List.mem_flatten.mpr ⟨stack, by simp [hstack], hg⟩)
  · rcases List.mem_append.mp ht with ht | ht
    · exact h.past t shown ht
    · exact hmore t shown ht

/-- A choice keeps everything backed, if what it asks for is. -/
theorem Backed.act {s : ClientThreads} (h : s.Backed replied) {choice : Choice}
    (hask : ∀ n r, choice = .ask n r → r.task.Backed replied) : (s.act choice).Backed replied := by
  obtain ⟨c, threads, past⟩ := s
  cases choice with
  | join => exact ⟨by simpa [ClientThreads.act, ClientThreads.frames] using h.frames, h.past⟩
  | ask n r =>
    cases hn : threads[n]? with
    | none => simpa only [ClientThreads.act, hn] using h
    | some stack =>
      by_cases haway : isAway stack = true
      · obtain ⟨before, after, -, rfl, hset⟩ := around hn
        simp only [ClientThreads.act, hn, if_pos haway, hset]
        refine ⟨fun f hf => ?_, h.past⟩
        simp only [ClientThreads.frames, List.flatten_append, List.flatten_cons, List.mem_append,
          List.mem_cons] at hf
        rcases hf with hf | (rfl | hf) | hf
        · exact h.frames f (by simp [ClientThreads.frames, hf])
        · exact hask n r rfl
        · exact h.frames f (by simp [ClientThreads.frames, hf])
        · exact h.frames f (by simp [ClientThreads.frames, hf])
      · simpa only [ClientThreads.act, hn, if_neg haway] using h
  | move n =>
    rcases hn : threads[n]? with _ | _ | ⟨t | u, rest⟩
    · simpa only [ClientThreads.act, hn] using h
    · simpa only [ClientThreads.act, hn] using h
    · obtain ⟨before, after, -, rfl, hset⟩ := around hn
      have ht : t.Backed replied := h.frames (.todo t) (by simp [ClientThreads.frames])
      simp only [ClientThreads.act, hn, hset]
      -- what the task leaves is backed because the task was
      refine h.replace (backed_perform c ht) fun t' shown ht' => ?_
      obtain ⟨rfl, -⟩ : t' = t ∧ shown = (c.perform t).events := by
        simpa [Client.marks] using ht'
      exact ht
    · simpa only [ClientThreads.act, hn] using h
  | answer n a =>
    rcases hn : threads[n]? with _ | _ | ⟨t | u, rest⟩
    · simpa only [ClientThreads.act, hn] using h
    · simpa only [ClientThreads.act, hn] using h
    · simpa only [ClientThreads.act, hn] using h
    · obtain ⟨before, after, -, rfl, hset⟩ := around hn
      simp only [ClientThreads.act, hn, hset]
      exact h.replace (backed_resume (u.resumes a)) (by simp)

end ClientThreads

end

/-! ## Where a callback comes from -/

/-- A task queues a callback for an operation, if it queues any. -/
def Client.Task.Queues (id : OperationId) : Task → Callback → Prop
  | .accept i result, callback => i = id ∧ callback = .prepared result
  | .finish i outcome _, callback => i = id ∧ callback = outcome.callback
  | .report i severity text, callback => i = id ∧ callback = .report severity text
  | .sweep, callback => callback = .failed .channelClosed
  | _, _ => False

/-- What is queued for a listener is what its task says. -/
theorem Touch.queues {id : OperationId} {v v' : View} {t : Task} {y : Yield}
    (touch : Touch id v t v' y) : ∀ callback ∈ y.queued, t.Queues id callback := by
  cases touch <;> simp [Task.Queues]

namespace ClientThreads

/-- Whatever was queued was queued by a task of the past. -/
theorem queued_source (config : Config) (schedule : List Choice) (id : OperationId) :
    ∀ callback ∈ (run config schedule).queued id,
      ∃ t shown, .moved t shown ∈ (run config schedule).past ∧ t.Queues id callback := by
  refine run_induction (P := fun s => ∀ callback ∈ s.queued id,
    ∃ t shown, .moved t shown ∈ s.past ∧ t.Queues id callback) (fun _ h => by contradiction)
    (fun s s' h step => ?_) schedule
  cases step with
  | join => exact h
  | ask r haway => exact h
  | answer u a =>
    intro callback hcallback
    obtain ⟨t, shown, ht, hqueues⟩ := h callback (by simpa [queued, Mark.queued] using hcallback)
    exact ⟨t, shown, List.mem_append_left _ ht, hqueues⟩
  | @move c past before after rest t =>
    intro callback hcallback
    simp only [queued, List.flatMap_append, (marks_digest c t id).2.1] at hcallback
    rcases List.mem_append.mp hcallback with hold | hnew
    · obtain ⟨t', shown, ht', hqueues⟩ := h callback hold
      exact ⟨t', shown, List.mem_append_left _ ht', hqueues⟩
    · exact ⟨t, (c.perform t).events, by simp [Client.marks],
        (c.perform_touch id t).queues callback hnew⟩

end ClientThreads

end TwoPhase
