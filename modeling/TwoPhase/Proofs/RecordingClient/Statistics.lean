import TwoPhase.Proofs.RecordingClient.Labor
import TwoPhase.Proofs.ClientThreads.Laws
/-
The statistics of a client at a recording client add up.

Between two actions nothing is owed to the books, so the laws of all clients become equations between
counters. One equation is a matter of the recording client: a submission that the channel refuses is always
withdrawn (`Visited.refused`), because nothing but the observer is called between an operation's place
in the table and its send, and at a recording client the observer keeps still (`Submitting`).
-/

set_option autoImplicit false

namespace TwoPhase

open Client (Task Frame Upcall Answer Event)

/-! ## An operation on its way to the channel -/

namespace RecordingClient

/-- The stacks on which an operation is being submitted: nothing else goes on meanwhile. -/
inductive Submitting (id : OperationId) : List Frame → Prop
  | announcing {payload : List UInt8} : Submitting id
      [.todo (.announce (.submitted id)), .todo (.raise (.send (.execute id payload)))]
  | calling {o : Observation} {payload : List UInt8} : Submitting id
      [.todo (.raise (.observe o)), .todo (.raise (.send (.execute id payload)))]
  | observed {o : Observation} {payload : List UInt8} : Submitting id
      [.inside (.observe o), .todo (.raise (.send (.execute id payload)))]
  | raising {payload : List UInt8} : Submitting id [.todo (.raise (.send (.execute id payload)))]
  | sending {payload : List UInt8} : Submitting id [.inside (.send (.execute id payload))]
  | sent {result : Except ChannelError Unit} : Submitting id [.todo (.submissionSent id result)]

/-- What is being submitted is pending, and nothing else goes on. -/
def Submits (b : RecordingClient) : Prop :=
  ∀ f ∈ b.stack, ∀ id, f.submits id = true → Submitting id b.stack ∧ b.client.pending.get? id ≠ none

variable {habit : Listener → OperationId → Value → Policy} {config : Config} {b : RecordingClient}

theorem submits_take (hidle : b.stack = []) (a : Action) : Submits (b.take a) := by
  intro f hf id hsubmits
  rw [stack_take hidle] at hf
  obtain ⟨r, _, rfl⟩ : ∃ r, b.request? a = some r ∧ Frame.todo r.task = f := by simpa using hf
  cases r <;> contradiction

/-- An enlistment has the stack to itself. -/
theorem submitting_enlist {listener : Listener} {operation : Operation} {payload : List UInt8}
    {rest : List Frame} {c : Client} {f : Frame} {id : OperationId}
    (htidy : Tidy (.todo (.enlist listener operation payload) :: rest))
    (hf : f ∈ (c.enlist listener operation payload).frames) (hsubmits : f.submits id = true) :
    Submitting id ((c.enlist listener operation payload).frames ++ rest) ∧
      (c.enlist listener operation payload).client.pending.get? id ≠ none := by
  obtain rfl : rest = [] := (List.cons.inj (htidy.opening _ List.mem_cons_self rfl)).2
  cases hclosed : c.closed with
  | true => simp [Client.enlist, hclosed, Client.refuse] at hf
  | false =>
    obtain rfl | rfl : f = _ ∨ f = _ := by simpa [Client.enlist, hclosed] using hf
    · contradiction
    · obtain rfl : c.nextId = id := of_decide_eq_true hsubmits
      simp only [Client.enlist, hclosed, Table.get?_insert, Bool.false_eq_true, if_false, if_true]
      exact ⟨.announcing, Option.some_ne_none _⟩

/-- Above an operation that is being submitted only the observer is told. -/
theorem submits_move_below {f g : Frame} {rest : List Frame} (hstack : b.stack = g :: rest)
    (hf : f ∈ rest) {id : OperationId} (hsubmits : f.submits id = true) (h : Submits b) :
    Submitting id (b.move habit).stack ∧ (b.move habit).client.pending.get? id ≠ none := by
  obtain ⟨hsubmitting, hpending⟩ := h f (by simp [hstack, hf]) id hsubmits
  rw [hstack] at hsubmitting
  cases hsubmitting with
  | announcing =>
    rw [move_todo hstack]
    exact ⟨.calling, hpending⟩
  | calling =>
    rw [move_todo hstack]
    exact ⟨.observed, hpending⟩
  | observed =>
    rw [move_inside hstack]
    exact ⟨.raising, hpending⟩
  | _ => contradiction

theorem submits_move (htidy : Tidy b.stack) (h : Submits b) : Submits (b.move habit) := by
  intro f hf id hsubmits
  rcases hstack : b.stack with _ | ⟨t | u, rest⟩
  · rw [move_nil hstack] at hf ⊢
    exact h f hf id hsubmits
  · by_cases hrest : f ∈ rest
    · exact submits_move_below hstack hrest hsubmits h
    rw [move_todo hstack] at hf ⊢
    rw [hstack] at htidy
    simp only [List.mem_append, hrest, or_false] at hf
    rcases hf with hf | hf
    · obtain ⟨i, decision, -, rfl⟩ := mem_wishes hf
      contradiction
    · cases b.client.perform_leaves t f hf with
      | submitting => exact submitting_enlist htidy hf hsubmits
      | @entering u =>
        -- the send is entered, with nothing below it
        obtain ⟨hsubmitting, hpending⟩ := h (.todo (.raise u)) (by simp [hstack]) id hsubmits
        rw [hstack] at hsubmitting
        cases hsubmitting with
        | raising => exact ⟨.sending, hpending⟩
        | calling => contradiction
      | @inbound m => cases m <;> contradiction
      | @deciding i d => cases d <;> contradiction
      | _ => contradiction
  · by_cases hrest : f ∈ rest
    · exact submits_move_below hstack hrest hsubmits h
    rw [move_inside hstack] at hf ⊢
    simp only [List.mem_append, hrest, or_false] at hf
    have hresumes := u.resumes (reply b.channel u).1
    generalize (reply b.channel u).1 = answer at hresumes hf ⊢
    generalize u.resume answer = frames at hresumes hf ⊢
    cases hresumes with
    | @submitted i payload result =>
      rw [List.mem_singleton] at hf
      subst hf
      obtain ⟨hsubmitting, hpending⟩ := h (.inside (.send (.execute i payload)))
        (by simp [hstack]) id hsubmits
      rw [hstack] at hsubmitting
      cases hsubmitting with
      | sending => exact ⟨.sent, hpending⟩
    | decided =>
      rw [List.mem_singleton] at hf
      subst hf
      contradiction
    | called =>
      rw [List.mem_singleton] at hf
      subst hf
      contradiction
    | _ => contradiction

/-- **Nothing comes between an operation and its submission.** -/
theorem Visited.submits (h : Visited habit config b) : Submits b := by
  induction h with
  | fresh =>
    intro f hf
    contradiction
  | taken h hidle a ih => exact submits_take hidle a
  | moved h ih => exact submits_move h.tidy ih

/-! ## The books of a recording client -/

/-- How often something was posted. -/
def booked (b : RecordingClient) (p : Post) : Nat := b.clientThreads.posts.count p

/-- What a counter shows. -/
def counter (b : RecordingClient) (k : Counter) : Nat := (b.client.stats.get k).toNat

/-- **A submission that was refused was withdrawn.** -/
theorem Visited.refused (h : Visited habit config b) : b.booked .refused = b.booked .withdrawn := by
  induction h with
  | fresh => rfl
  | taken h hidle a ih => exact ih
  | @moved b h ih =>
    rcases hstack : b.stack with _ | ⟨t | u, rest⟩
    · rw [move_nil hstack]
      exact ih
    · have hmarks : ((b.client.marks t).flatMap Mark.posts).count .refused =
          ((b.client.marks t).flatMap Mark.posts).count .withdrawn := by
        by_cases hmem : .refused ∈ (b.client.marks t).flatMap Mark.posts
        · obtain ⟨id, e, rfl⟩ := Client.of_refused_mem hmem
          have hpending := (h.submits (.todo (.submissionSent id (.error e))) (by simp [hstack]) id
            (by simp [Frame.submits])).2
          have hin : (b.client.pending.get? id).isSome = true :=
            Option.isSome_iff_ne_none.mpr hpending
          simp [Client.marks, Client.allots, Client.perform, Client.submissionSent,
            Table.contains, Client.count, hin, Mark.posts, Client.Task.posts, Client.Event.posts]
        · have posting := b.client.posting t
          rw [Client.Posts] at posting
          generalize (b.client.perform t).client.books = after,
            (Frame.todo t).debt?.toList = held, debts (b.client.perform t).frames = debt at posting
          generalize (b.client.marks t).flatMap Mark.posts = posts at hmem posting ⊢
          cases posting with
          | withdrawn hentry => simp at hmem
          | overtaken hentry => simp at hmem
          | swept => simp [List.count_replicate]
          | _ => rfl
      rw [move_todo hstack]
      simp only [booked, clientThreads, ClientThreads.posts, List.flatMap_append, List.count_append] at ih ⊢
      rw [ih, hmarks]
    · rw [move_inside hstack]
      simpa [booked, clientThreads, ClientThreads.posts, Mark.posts] using ih

/-! ## What the statistics say -/

/-- The statistics of a client at a recording client, set against what happened there. -/
structure Conserved (b : RecordingClient) : Prop where
  /-- Every identifier counts as a submission. -/
  submitted : b.counter .submitted = b.clientThreads.given.length
  /-- What was submitted has ended, is pending, or was refused by the channel. -/
  operations : b.clientThreads.given.length =
    b.counter .completed + b.counter .failed + b.client.pending.size + b.booked .refused
  /-- Sends that failed are submissions that were refused, and decisions that could not be sent. -/
  sendFailures : b.counter .sendFailures = b.booked .refused + b.booked .undecided
  /-- All news that came in are accounted for. Operations also fail without any news: when they are
  swept, and when their decision cannot be sent. -/
  notifications : (b.booked .received : ℤ) =
    b.counter .prepared + b.counter .completed +
      (b.counter .failed - b.booked .swept - b.booked .undecided) +
      b.counter .duplicates + b.counter .violations
  completions : b.counter .completed ≤ b.counter .prepared
  decisions : b.counter .commits + b.counter .rollbacks ≤ b.counter .prepared
  sweeps : b.counter .sweeps = if b.client.closed then 1 else 0
  /-- The observer was told as often as the counters say. -/
  observed : ∀ k, k ≠ .sendFailures → k ≠ .duplicates → b.booked (.told k) = b.counter k

/-- Where nothing is owed, a law is about what was posted. -/
theorem obeyed_of_idle {P : Law} {schedule : List Choice}
    (hschedule : b.clientThreads = ClientThreads.run config schedule) (hidle : b.stack = [])
    (h : (ClientThreads.run config schedule).Obeys P) : P b.client.books (fun _ => 0) b.booked := by
  rw [← hschedule, ClientThreads.Obeys] at h
  have hframes : b.clientThreads.frames = [] := by
    rw [ClientThreads.frames, clientThreads, hidle]
    rfl
  rw [hframes] at h
  exact h

/-- **The statistics add up** between two actions, as long as no counter has wrapped. -/
theorem conserved (config : Config) (actions : List Action)
    (hcounts : ∀ k, (run habit config actions).booked (.counted k) < 2 ^ 64) :
    Conserved (run habit config actions) := by
  obtain ⟨hvisited, hidle⟩ := @visited_run habit config actions
  generalize run habit config actions = b at hcounts hvisited hidle ⊢
  obtain ⟨schedule, hschedule⟩ := reachable_clientThreads hvisited
  have free {P : Law} (hkept : P.Kept fun _ => True) (hfresh : (ClientThreads.fresh config).Obeys P) :
      P b.client.books (fun _ => 0) b.booked :=
    obeyed_of_idle hschedule hidle (Law.obeyed hkept hfresh schedule)
  -- identifiers last as long as the counter of submissions does
  have hsubmissions := free Law.submissions_kept rfl
  have hgivens : b.booked .given = b.clientThreads.given.length := b.clientThreads.count_given
  simp only [Law.submissions, Law.raised] at hsubmissions
  have hgiven : (ClientThreads.run config schedule).given.length < 2 ^ 64 := by
    have hlt := hcounts .submitted
    rw [← hschedule]
    omega
  have tabled {P : Law} (hkept : P.Kept Law.unused) (hfresh : (ClientThreads.fresh config).Obeys P) :
      P b.client.books (fun _ => 0) b.booked :=
    obeyed_of_idle hschedule hidle (Law.obeyed_of_given hkept hfresh schedule hgiven)
  have hcounter (k : Counter) : b.counter k = b.booked (.counted k) := by
    have hfaithful := free (Law.faithful_kept k) (by cases k <;> rfl)
    rw [Law.faithful] at hfaithful
    rw [counter]
    exact (congrArg UInt64.toNat hfaithful).trans (by
      rw [UInt64.toNat_ofNat', Nat.mod_eq_of_lt (hcounts k)])
  have hoperations := tabled Law.operations_kept rfl
  have hcompletions := tabled Law.completions_kept (Nat.le_refl 0)
  have hdecisions := tabled Law.decisions_kept (Nat.le_refl 0)
  have hrefusals := free Law.refusals_kept rfl
  have hverdicts := free Law.verdicts_kept rfl
  have hclosings := free Law.closings_kept rfl
  have hrefused := hvisited.refused
  have hsize : b.client.pending.size = b.client.books.table.total fun _ => 1 := by
    rw [Table.total_const, Nat.one_mul]
    rfl
  simp only [Law.operations, Law.completions, Law.decisions, Law.refusals, Law.verdicts,
    Law.closings, Law.raised] at hoperations hcompletions hdecisions hrefusals hverdicts hclosings
  constructor
  · rw [hcounter]
    omega
  · rw [hcounter, hcounter, hsize]
    omega
  · rw [hcounter]
    omega
  · simp only [hcounter]
    omega
  · rw [hcounter, hcounter]
    omega
  · rw [hcounter, hcounter, hcounter]
    omega
  · rw [hcounter]
    cases hclosed : b.client.closed <;> simp [Client.books, hclosed] at hclosings ⊢ <;> omega
  · intro k hsend hdup
    rw [hcounter]
    exact free (Law.observed_kept k) (by intro _ _; rfl) hsend hdup

/-- Two operations, of which the channel refuses one, late news, a decision that cannot be sent and a
close: whatever the statistics keep apart happens. -/
def eventful : List Action :=
  [.execute (.recorder "") ⟨.undefined, [], .discard⟩, .deliver (.prepared ⟨1⟩ .undefined),
    .deliver (.completed ⟨1⟩ .undefined), .deliver (.completed ⟨1⟩ .undefined), .refuseSends true,
    .execute (.recorder "") ⟨.undefined, [], .discard⟩, .refuseSends false,
    .execute (.recorder "") ⟨.undefined, [], .discard⟩, .deliver (.completed ⟨3⟩ .undefined),
    .refuseSends true, .deliver (.prepared ⟨3⟩ .undefined), .refuseSends false,
    .execute (.recorder "") ⟨.undefined, [], .discard⟩, .closeChannel]

theorem conserved_of_eventful :
    (∀ k, (run (fun _ _ _ => .commit) {} eventful).booked (.counted k) < 2 ^ 64) ∧
      (run (fun _ _ _ => .commit) {} eventful).client.stats =
        { submitted := 4, prepared := 2, completed := 1, failed := 2, commits := 1,
          sendFailures := 2, violations := 1, duplicates := 1, sweeps := 1 } ∧
      Conserved (run (fun _ _ _ => .commit) {} eventful) := by
  have hcounts (k : Counter) :
      (run (fun _ _ _ => .commit) {} eventful).booked (.counted k) < 2 ^ 64 := by
    cases k <;> decide +kernel
  exact ⟨hcounts, by decide +kernel, conserved {} eventful hcounts⟩

end RecordingClient

end TwoPhase
