import TwoPhase.Proofs.ClientThreads.Outcomes
import TwoPhase.Proofs.Totals
/-
The books of a client.

What a client counts is set against what happened to it. The past is posted (`Mark.posts`): an
operation was given its identifier, a notification came in, a counter was raised, the observer was told.
Frames owe entries that are still to be posted (`Frame.debt?`), and the table holds the operations that
are open. `Posting` lists what one move does to all three, and `Client.posting` says that the list is
complete. A law of the books is then a case analysis on `Posting`, and holds under every interleaving
(`Law.run`).
-/

set_option autoImplicit false

namespace TwoPhase

open Client (Task Frame Upcall Answer Event)

/-! ## Entries -/

/-- The value of a counter. -/
def Stats.get (s : Stats) : Counter → UInt64
  | .submitted => s.submitted
  | .prepared => s.prepared
  | .completed => s.completed
  | .failed => s.failed
  | .commits => s.commits
  | .rollbacks => s.rollbacks
  | .sendFailures => s.sendFailures
  | .violations => s.violations
  | .duplicates => s.duplicates
  | .sweeps => s.sweeps

/-- To count raises the counter in question by one and leaves all others. -/
theorem Stats.get_count (s : Stats) (k l : Counter) :
    (s.count k).get l = s.get l + if k = l then 1 else 0 := by
  by_cases hkl : k = l
  · subst hkl
    rw [if_pos rfl]
    cases k <;> rfl
  · rw [if_neg hkl, UInt64.add_zero]
    cases k <;> cases l <;> first | rfl | exact absurd rfl hkl

/-- Statistics are what their counters show. -/
theorem Stats.ext_get {s s' : Stats} (h : ∀ k, s.get k = s'.get k) : s = s' := by
  cases s
  cases s'
  rw [Stats.mk.injEq]
  exact ⟨h .submitted, h .prepared, h .completed, h .failed, h .commits, h .rollbacks,
    h .sendFailures, h .violations, h .duplicates, h .sweeps⟩

/-- Something that happened and that the books of a client know. -/
inductive Post where
  /-- An operation was given its identifier. -/
  | given
  /-- A counter was raised. -/
  | counted (k : Counter)
  /-- The observer was told something that a counter keeps the tally of. -/
  | told (k : Counter)
  /-- News about an operation came in: that it is prepared, completed or has failed. -/
  | received
  /-- A submission learned that the channel refused it. -/
  | refused
  /-- A submitter was told that the operation, which has an identifier, was not submitted. -/
  | withdrawn
  /-- Whoever decided was told that the decision could not be sent. -/
  | undecided
  /-- A pending operation was swept. -/
  | swept
  deriving DecidableEq

/-- What a task that moves posts by itself. -/
def Client.Task.posts : Task → List Post
  | .announce o => [.counted o.counter]
  | .submissionSent _ (.error _) => [.counted .sendFailures, .refused]
  | .decisionSent _ _ (.error _) => [.counted .sendFailures]
  | .dispatch m => (m.news?.map fun _ => Post.received).toList
  | _ => []

/-- What an event posts. -/
def Client.Event.posts : Event → List Post
  | .noted (.late ..) | .noted (.preparedAgain ..) => [.counted .duplicates]
  | .submission (some _) (.error _) => [.withdrawn]
  | .decision _ _ (.error (.sendFailed ..)) => [.undecided]
  | .began (.observe o) => [.told o.counter]
  | _ => []

/-- Whether an event queues a callback. -/
def Client.Event.isQueued : Event → Bool
  | .queued .. => true
  | _ => false

/-- The posts of what is remembered. A sweep queues one callback for each operation that it ends. -/
def Mark.posts : Mark → List Post
  | .enlisted _ => [.given]
  | .moved .sweep shown => List.replicate (shown.countP Event.isQueued) .swept
  | .moved t shown => t.posts ++ shown.flatMap Event.posts
  | .answered .. => []

/-- Everything that was posted. -/
def ClientThreads.posts (s : ClientThreads) : List Post := s.past.flatMap Mark.posts

/-- What a move shows posts neither a gift nor a refusal. -/
theorem Client.Event.mem_posts {events : List Event} {p : Post}
    (h : p ∈ events.flatMap Event.posts) : p ≠ .given ∧ p ≠ .refused := by
  obtain ⟨event, -, hmem⟩ := List.mem_flatMap.mp h
  unfold Event.posts at hmem
  split at hmem <;> simp at hmem <;> subst hmem <;> exact ⟨nofun, nofun⟩

/-- No task posts that an identifier was given: that is remembered beside it. -/
theorem Client.Task.given_not_mem_posts (t : Task) : .given ∉ t.posts := by
  unfold Task.posts
  split <;> simp

/-- Only a submission that was refused posts a refusal. -/
theorem Client.Task.of_refused_mem {t : Task} (h : .refused ∈ t.posts) :
    ∃ id e, t = .submissionSent id (.error e) := by
  unfold Task.posts at h
  split at h
  · simp at h
  · exact ⟨_, _, rfl⟩
  all_goals simp at h

/-- The posts of a move are those of its task and of what it showed; a sweep has its own. -/
theorem Mark.mem_posts {t : Task} {shown : List Event} {p : Post}
    (h : p ∈ (Mark.moved t shown).posts) :
    p = .swept ∨ p ∈ t.posts ∨ p ∈ shown.flatMap Event.posts := by
  unfold Mark.posts at h
  split at h
  · contradiction
  · exact Or.inl (List.eq_of_mem_replicate h)
  · rename_i heq
    obtain ⟨rfl, rfl⟩ := Mark.moved.inj heq
    exact Or.inr (List.mem_append.mp h)
  · contradiction

/-- A move that posts a refusal is of a submission that the channel refused. -/
theorem Client.of_refused_mem {c : Client} {t : Task}
    (h : .refused ∈ (c.marks t).flatMap Mark.posts) : ∃ id e, t = .submissionSent id (.error e) := by
  obtain ⟨mark, hmark, hmem⟩ := List.mem_flatMap.mp h
  simp only [Client.marks, List.mem_cons, Option.mem_toList, Option.map_eq_some_iff] at hmark
  rcases hmark with rfl | ⟨id, -, rfl⟩
  · rcases Mark.mem_posts hmem with hswept | htask | hshown
    · contradiction
    · exact Task.of_refused_mem htask
    · exact absurd rfl (Event.mem_posts hshown).2
  · simp [Mark.posts] at hmem

/-- Every identifier that was given was posted once. -/
theorem ClientThreads.count_given (s : ClientThreads) : s.posts.count .given = s.given.length := by
  have hmark (mark : Mark) : mark.posts.count .given = mark.given.length := by
    cases mark with
    | enlisted id => rfl
    | answered u a => rfl
    | moved t shown =>
      refine List.count_eq_zero.mpr fun hmem => ?_
      rcases Mark.mem_posts hmem with hswept | htask | hshown
      · contradiction
      · exact t.given_not_mem_posts htask
      · exact (Client.Event.mem_posts hshown).1 rfl
  rw [posts, given]
  induction s.past with
  | nil => rfl
  | cons mark rest ih => rw [List.flatMap_cons, List.flatMap_cons, List.count_append,
      List.length_append, hmark, ih]

/-! ## What is still to be posted -/

/-- What a frame still owes to the books. -/
inductive Debt where
  /-- To count something, and then to tell the observer. -/
  | announcement (k : Counter)
  /-- To tell the observer what was counted. -/
  | call (k : Counter)
  /-- To find out what news, or a decision that was not sent, do to their operation. -/
  | verdict
  /-- To learn whether the channel takes a decision. -/
  | decision
  /-- To tell a caller that the decision was not sent. -/
  | apology
  deriving DecidableEq

/-- What a frame owes. -/
def Client.Frame.debt? : Frame → Option Debt
  | .todo (.announce o) => some (.announcement o.counter)
  | .todo (.raise (.observe o)) => some (.call o.counter)
  | .todo (.accept ..) | .todo (.finish ..) => some .verdict
  | .todo (.raise (.send (.commit _))) | .todo (.raise (.send (.rollback _))) => some .decision
  | .inside (.send (.commit _)) | .inside (.send (.rollback _)) => some .decision
  | .todo (.decisionSent ..) => some .decision
  | .todo (.decided _ _ (.error (.sendFailed ..))) => some .apology
  | _ => none

/-- What some frames owe. -/
def debts (frames : List Frame) : List Debt := frames.filterMap Frame.debt?

@[simp] theorem debts_nil : debts [] = [] := rfl

@[simp] theorem debts_cons (f : Frame) (rest : List Frame) :
    debts (f :: rest) = f.debt?.toList ++ debts rest := by
  rw [debts, List.filterMap_cons]
  cases f.debt? <;> rfl

@[simp] theorem debts_append (first rest : List Frame) :
    debts (first ++ rest) = debts first ++ debts rest := List.filterMap_append

@[simp] theorem debts_drainIf (id : OperationId) (owed : Bool) :
    debts (Client.drainIf id owed) = [] := by
  cases owed <;> rfl

/-- Where a callback was queued, only its announcement is owed. -/
theorem debts_announced (o : Observation) (id : OperationId) (owed : Bool) :
    debts (.todo (.announce o) :: Client.drainIf id owed) = [.announcement o.counter] := by
  rw [debts_cons, debts_drainIf]
  rfl

/-- Nothing is owed for what is merely asked. -/
theorem Request.debt_task (r : Request) : (Frame.todo r.task).debt? = none := by
  cases r <;> rfl

/-- A call out hands over what it owes when it returns. -/
theorem Client.Upcall.debts_resumes {u : Upcall} {frames : List Frame} (h : u.Resumes frames) :
    debts frames = (Frame.inside u).debt?.toList := by
  cases h with
  | @decided id d result => cases d <;> rfl
  | _ => rfl

/-! ## What one move does to the books -/

/-- The part of a client that its books are about. -/
structure Books where
  table : Table Pending
  closed : Bool
  nextId : OperationId
  stats : Stats

/-- The books of a client. -/
def Client.books (c : Client) : Books := ⟨c.pending, c.closed, c.nextId, c.stats⟩

namespace Books

/-- Books in which one counter was raised. -/
def count (b : Books) (k : Counter) : Books := { b with stats := b.stats.count k }

/-- Books with another table. -/
def withTable (b : Books) (table : Table Pending) : Books := { b with table := table }

end Books

/-- Everything that a move can do to the books: what its task owed, the books after it, what its frames
owe, and what is posted. -/
inductive Posting (b : Books) : List Debt → Books → List Debt → List Post → Prop
  | aside (held : List Debt) : Posting b held b held []
  | enlisted (operation : Operation) (hopen : b.closed = false) :
      Posting b []
        { b with nextId := b.nextId.next, table := b.table.insert b.nextId ⟨operation, .submitted, none⟩ }
        [.announcement .submitted] [.given]
  | withdrawn {id : OperationId} {entry : Pending} (hentry : b.table.get? id = some entry) :
      Posting b [] ((b.count .sendFailures).withTable (b.table.erase id)) []
        [.counted .sendFailures, .refused, .withdrawn]
  | overtaken {id : OperationId} (hentry : b.table.get? id = none) :
      Posting b [] (b.count .sendFailures) [] [.counted .sendFailures, .refused]
  | claimed {id : OperationId} {entry : Pending} (d : Decision)
      (hentry : b.table.get? id = some entry) (hphase : entry.phase = .prepared)
      (hdecision : entry.decision = none) :
      Posting b [] (b.withTable (b.table.insert id { entry with decision := some d })) [.decision] []
  | committed : Posting b [.decision] b [.announcement .commits] []
  | rolledBack : Posting b [.decision] b [.announcement .rollbacks] []
  | untaken : Posting b [.decision] (b.count .sendFailures) [.verdict, .apology] [.counted .sendFailures]
  | undecided : Posting b [.apology] b [] [.undecided]
  | received : Posting b [] b [.verdict] [.received]
  | late : Posting b [.verdict] (b.count .duplicates) [] [.counted .duplicates]
  | violating : Posting b [.verdict] b [.announcement .violations] []
  | accepted {id : OperationId} {entry : Pending} (hentry : b.table.get? id = some entry)
      (hphase : entry.phase = .submitted) :
      Posting b [.verdict] (b.withTable (b.table.insert id { entry with phase := .prepared }))
        [.announcement .prepared] []
  | completed {id : OperationId} {entry : Pending} (hentry : b.table.get? id = some entry)
      (hphase : entry.phase = .prepared) :
      Posting b [.verdict] (b.withTable (b.table.erase id)) [.announcement .completed] []
  | failed {id : OperationId} {entry : Pending} (hentry : b.table.get? id = some entry) :
      Posting b [.verdict] (b.withTable (b.table.erase id)) [.announcement .failed] []
  | swept :
      Posting b [] { b with table := .empty, closed := true }
        (List.replicate (!b.closed).toNat (.announcement .sweeps) ++
          List.replicate b.table.size (.announcement .failed))
        (List.replicate b.table.size .swept)
  | counted (k : Counter) : Posting b [.announcement k] (b.count k) [.call k] [.counted k]
  | told (k : Counter) : Posting b [.call k] b [] [.told k]

/-! ### Task by task -/

namespace Client

variable (c : Client)

/-- What a move does to the books. -/
def Posts (t : Task) : Prop :=
  Posting c.books (Frame.todo t).debt?.toList (c.perform t).client.books (debts (c.perform t).frames)
    ((c.marks t).flatMap Mark.posts)

/-- The mailboxes are not in the books. -/
theorem books_enqueue (id : OperationId) (callback : Callback) :
    (c.enqueue id callback).1.books = c.books := by
  obtain ⟨deliveries, h⟩ := c.enqueue_frame id callback
  rw [h]
  rfl

/-- The moves that are none of the books' business. -/
theorem posts_aside {t : Task} (hdebt : (Frame.todo t).debt? = none)
    (hbooks : (c.perform t).client.books = c.books) (hdebts : debts (c.perform t).frames = [])
    (hposts : (c.marks t).flatMap Mark.posts = []) : c.Posts t := by
  rw [Posts, hbooks, hdebts, hposts, hdebt]
  exact .aside []

theorem posts_submit (channelOpen : Bool) (listener : Listener) (operation : Operation) :
    c.Posts (.submit channelOpen listener operation) := by
  cases channelOpen with
  | false => exact c.posts_aside rfl rfl rfl rfl
  | true =>
    cases hencode : operation.payload.encode c.config.maxFrameBytes.toNat <;>
      refine c.posts_aside rfl ?_ ?_ ?_ <;>
      simp [perform, hencode, refuse, marks, allots, Mark.posts, Task.posts, Event.posts,
        Frame.debt?]

/-- A submission that is entered gets the next identifier, and its announcement is owed. -/
theorem posts_enlist (listener : Listener) (operation : Operation) (payload : List UInt8) :
    c.Posts (.enlist listener operation payload) := by
  cases hclosed : c.closed with
  | true =>
    refine c.posts_aside rfl ?_ ?_ ?_ <;>
      simp [perform, enlist, hclosed, refuse, marks, allots, Mark.posts, Task.posts, Event.posts]
  | false =>
    have h : Posting c.books [] _ _ _ := .enlisted operation hclosed
    simpa [Posts, perform, enlist, hclosed, marks, allots, Mark.posts, Task.posts, Frame.debt?,
      books, Observation.counter] using h

/-- A refusal withdraws the operation if its entry is still there, and is counted either way. -/
theorem posts_submissionSent (id : OperationId) (result : Except ChannelError Unit) :
    c.Posts (.submissionSent id result) := by
  rcases result with e | ok
  · cases hentry : c.pending.get? id with
    | none =>
      have h : Posting c.books [] _ _ _ := .overtaken hentry
      simpa [Posts, perform, submissionSent, Table.contains, hentry, marks, allots, Mark.posts,
        Task.posts, Event.posts, Frame.debt?, Client.count, books, Books.count] using h
    | some entry =>
      have h : Posting c.books [] _ _ _ := .withdrawn hentry
      simpa [Posts, perform, submissionSent, Table.contains, hentry, marks, allots, Mark.posts,
        Task.posts, Event.posts, Frame.debt?, Client.count, books, Books.count, Books.withTable]
        using h
  · exact c.posts_aside rfl rfl rfl rfl

theorem posts_decide (id : OperationId) (d : Decision) : c.Posts (.decide id d) := by
  cases hhandle : c.handles.get? id with
  | none =>
    refine c.posts_aside rfl ?_ ?_ ?_ <;>
      simp [perform, decide, hhandle, marks, allots, Mark.posts, Task.posts, Frame.debt?]
  | some handle =>
    cases hasked : handle.asked <;>
      refine c.posts_aside rfl ?_ ?_ ?_ <;>
      simp [perform, decide, hhandle, hasked, marks, allots, Mark.posts, Task.posts, Event.posts,
        Frame.debt?, books]

/-- A claim that is granted owes a decision to the books. Others leave them alone. -/
theorem posts_claim (id : OperationId) (d : Decision) : c.Posts (.claim id d) := by
  cases hentry : c.pending.get? id with
  | none =>
    refine c.posts_aside rfl ?_ ?_ ?_ <;>
      simp [perform, claim, hentry, marks, allots, Mark.posts, Task.posts, Frame.debt?]
  | some entry =>
    by_cases hopen : entry.phase = .prepared ∧ entry.decision = none
    · have h : Posting c.books [] _ _ _ := .claimed d hentry hopen.1 hopen.2
      cases d <;>
        simpa [Posts, perform, claim, hentry, hopen, marks, allots, Mark.posts, Task.posts,
          Frame.debt?, Outbound.decide, books, Books.withTable] using h
    · refine c.posts_aside rfl ?_ ?_ ?_ <;>
        simp [perform, claim, hentry, hopen, marks, allots, Mark.posts, Task.posts, Frame.debt?]

/-- What was owed for a decision turns into its announcement, or into a verdict and an apology. -/
theorem posts_decisionSent (id : OperationId) (d : Decision) (result : Except ChannelError Unit) :
    c.Posts (.decisionSent id d result) := by
  rcases result with e | ok
  · have h : Posting c.books [.decision] _ _ _ := .untaken
    simpa [Posts, perform, decisionSent, marks, allots, Mark.posts, Task.posts, Event.posts,
      Frame.debt?, Client.count, books, Books.count] using h
  · cases d with
    | commit => exact .committed
    | rollback => exact .rolledBack

theorem posts_decided (id : OperationId) (d : Decision) (result : Except ClientError Unit) :
    c.Posts (.decided id d result) := by
  rcases result with e | ok
  · cases e with
    | sendFailed i d' reason => exact .undecided
    | _ => exact c.posts_aside rfl rfl rfl rfl
  · exact c.posts_aside rfl rfl rfl rfl

/-- News that come in are owed a verdict. Reports and the close are not. -/
theorem posts_dispatch (m : Inbound) : c.Posts (.dispatch m) := by
  cases m with
  | prepared id result => exact .received
  | completed id result => exact .received
  | failed id failure => exact .received
  | report id severity text => exact c.posts_aside rfl rfl rfl rfl
  | channelClosed => exact c.posts_aside rfl rfl rfl rfl

/-- What finds no entry is late, or violates the protocol. -/
theorem posting_drop (id : OperationId) (kind : String) :
    Posting c.books [.verdict] (c.drop id kind).client.books (debts (c.drop id kind).frames)
      ((c.drop id kind).events.flatMap Event.posts) := by
  by_cases hlate : id < c.nextId
  · rw [drop, if_pos hlate]
    exact .late
  · rw [drop, if_neg hlate]
    exact .violating

/-- The verdict on a preparation: it takes effect, comes late, or violates the protocol. -/
theorem posts_accept (id : OperationId) (result : Value) : c.Posts (.accept id result) := by
  have hmarks : (c.marks (.accept id result)).flatMap Mark.posts =
      (c.accept id result).events.flatMap Event.posts := by
    simp [marks, allots, Mark.posts, Task.posts, perform]
  rw [Posts, hmarks]
  cases hentry : c.pending.get? id with
  | none =>
    have hdrop : c.accept id result = c.drop id "prepared" := by rw [accept, hentry]
    rw [perform, hdrop]
    exact c.posting_drop id "prepared"
  | some entry =>
    by_cases hallows : entry.phase.allows .prepared = true
    · have hphase : entry.phase = .submitted := by
        cases hphase : entry.phase <;> simp_all [Phase.allows]
      rw [perform, accept_of_allows hentry hallows, books_enqueue, debts_announced]
      exact .accepted hentry hphase
    · have h : Posting c.books [.verdict] _ _ _ := .late
      simpa [perform, accept, hentry, hallows, Frame.debt?, Client.count, books, Books.count,
        Event.posts] using h

/-- The verdict on an end: it takes effect, comes late or too early, or the operation is unknown. -/
theorem posts_finish (id : OperationId) (outcome : Outcome) (kind : String) :
    c.Posts (.finish id outcome kind) := by
  have hmarks : (c.marks (.finish id outcome kind)).flatMap Mark.posts =
      (c.finish id outcome kind).events.flatMap Event.posts := by
    simp [marks, allots, Mark.posts, Task.posts, perform]
  rw [Posts, hmarks]
  cases hentry : c.pending.get? id with
  | none =>
    have hdrop : c.finish id outcome kind = c.drop id kind := by rw [finish, hentry]
    rw [perform, hdrop]
    exact c.posting_drop id kind
  | some entry =>
    by_cases hallows : entry.phase.allows (finalPhase outcome) = true
    · cases outcome with
      | completed result =>
        have hphase : entry.phase = .prepared := by
          cases hphase : entry.phase <;> simp_all [Phase.allows, finalPhase]
        rw [perform, finish_of_allows hentry hallows, books_enqueue, debts_announced]
        exact .completed hentry hphase
      | failed failure =>
        rw [perform, finish_of_allows hentry hallows, books_enqueue, debts_announced]
        exact .failed hentry
    · have h : Posting c.books [.verdict] _ _ _ := .violating
      simpa [perform, finish, hentry, hallows, Frame.debt?, Event.posts,
        Observation.counter] using h

theorem posts_report (id : OperationId) (severity : Severity) (text : String) :
    c.Posts (.report id severity text) := by
  by_cases hin : c.pending.contains id = true
  · refine c.posts_aside rfl ?_ ?_ ?_ <;>
      simp [perform, report, hin, books_enqueue, marks, allots, Mark.posts, Task.posts,
        Event.posts]
  · refine c.posts_aside rfl ?_ ?_ ?_ <;>
      simp [perform, report, hin, marks, allots, Mark.posts, Task.posts, Event.posts]

/-- Each operation that a sweep ends is to be announced as failed. -/
theorem debts_failAll (ids : List OperationId) :
    debts ((c.failAll ids).2.flatMap fun mine =>
        Frame.todo (.announce (.failed mine.1 .channelClosed)) :: drainIf mine.1 mine.2) =
      List.replicate ids.length (.announcement .failed) := by
  induction ids generalizing c with
  | nil => rfl
  | cons id rest ih =>
    have hrest := ih (c.enqueue id (.failed .channelClosed)).1
    rw [failAll, List.length_cons, List.replicate_succ, ← hrest]
    simp [Frame.debt?, Observation.counter]

/-- A sweep fails all that is pending, and owes one announcement for each, after one for itself if it is
the first. -/
theorem posts_sweep : c.Posts .sweep := by
  obtain ⟨deliveries, hclient⟩ := c.sweep_frame
  have hfirst : debts (if c.closed then [] else
      [Frame.todo (.announce (.channelClosed c.pending.entries.length))]) =
      List.replicate (!c.closed).toNat (.announcement .sweeps) := by
    cases c.closed <;> rfl
  have hqueued : (c.perform .sweep).events.countP Event.isQueued = c.pending.size := by
    simp only [perform, sweep, List.countP_append, List.countP_map]
    have hnotes : c.pending.entries.countP (Event.isQueued ∘ fun e : OperationId × Pending =>
        Event.noted (.failingPending e.1 e.2.phase e.2.operation.request)) = 0 :=
      List.countP_eq_zero.mpr fun _ _ => Bool.false_ne_true
    have hall : c.pending.entries.countP (Event.isQueued ∘ fun e : OperationId × Pending =>
        Event.queued e.1 (.failed .channelClosed)) = c.pending.entries.length :=
      List.countP_eq_length.mpr fun _ _ => rfl
    exact (congrArg₂ (· + ·) hnotes hall).trans (Nat.zero_add _)
  have hdebts : debts (c.perform .sweep).frames =
      List.replicate (!c.closed).toNat (.announcement .sweeps) ++
        List.replicate c.pending.size (.announcement .failed) := by
    have hall := debts_failAll { c with closed := true, pending := .empty } c.pending.ids
    rw [Table.ids, List.length_map] at hall
    simp only [perform, sweep, debts_append, hfirst]
    exact congrArg _ hall
  have hposts : (c.marks .sweep).flatMap Mark.posts = List.replicate c.pending.size .swept := by
    simp [marks, allots, Mark.posts, hqueued]
  rw [Posts, hdebts, hposts, perform, hclient]
  exact .swept

/-- What goes on at a mailbox is not in the books. -/
theorem posts_drain (id : OperationId) : c.Posts (.drain id) := by
  cases hdelivery : c.deliveries.get? id with
  | none =>
    refine c.posts_aside rfl ?_ ?_ ?_ <;>
      simp [perform, drain, hdelivery, marks, allots, Mark.posts, Task.posts]
  | some d =>
    rcases hpop : d.mailbox.pop with ⟨_ | callback, mailbox⟩ <;>
      refine c.posts_aside rfl ?_ ?_ ?_ <;>
      simp [perform, drain, hdelivery, hpop, marks, allots, Mark.posts, Task.posts, Frame.debt?,
        books]

theorem posts_called (id : OperationId) (callback : Callback) (panicked : Bool) :
    c.Posts (.called id callback panicked) := by
  cases houtcome : callback.outcome? <;> cases panicked <;>
    refine c.posts_aside rfl ?_ ?_ ?_ <;>
    simp [perform, called, houtcome, marks, allots, Mark.posts, Task.posts, Event.posts, Frame.debt?]

theorem posts_resolve (id : OperationId) (outcome : Outcome) : c.Posts (.resolve id outcome) := by
  cases hdelivery : c.deliveries.get? id with
  | none =>
    refine c.posts_aside rfl ?_ ?_ ?_ <;>
      simp [perform, resolve, hdelivery, marks, allots, Mark.posts, Task.posts]
  | some d =>
    refine c.posts_aside rfl ?_ ?_ ?_
    · simp [perform, resolve, hdelivery, books]
    · refine List.filterMap_eq_nil_iff.mpr fun f hf => ?_
      obtain ⟨tag, _, rfl⟩ := by simpa [perform, resolve, hdelivery] using hf
      rfl
    · simp [perform, resolve, hdelivery, marks, allots, Mark.posts, Task.posts]

theorem posts_subscribe (id : OperationId) (tag : String) : c.Posts (.subscribe id tag) := by
  cases hdelivery : c.deliveries.get? id with
  | none =>
    refine c.posts_aside rfl ?_ ?_ ?_ <;>
      simp [perform, subscribe, hdelivery, marks, allots, Mark.posts, Task.posts]
  | some d =>
    cases hknown : (d.outcome.subscribe tag).2 <;>
      refine c.posts_aside rfl ?_ ?_ ?_ <;>
      simp [perform, subscribe, hdelivery, hknown, marks, allots, Mark.posts, Task.posts,
        Frame.debt?, books]

/-- An observation is counted first, and the observer is called afterwards. -/
theorem posts_announce (o : Observation) : c.Posts (.announce o) := by
  have h : Posting c.books [.announcement o.counter] _ _ _ := .counted o.counter
  simpa [Posts, perform, marks, allots, Mark.posts, Task.posts, Frame.debt?, Client.count, books,
    Books.count] using h

/-- The call to the observer settles what was owed to it. Other calls are none of the
books' business. -/
theorem posts_raise (u : Upcall) : c.Posts (.raise u) := by
  cases u with
  | observe o => exact .told o.counter
  | send m =>
    cases m with
    | execute id payload => exact c.posts_aside rfl rfl rfl rfl
    | commit id => exact .aside [.decision]
    | rollback id => exact .aside [.decision]
  | notify id callback => exact c.posts_aside rfl rfl rfl rfl
  | outcome id tag outcome => exact c.posts_aside rfl rfl rfl rfl

/-- **The list is complete.** -/
theorem posting (t : Task) : c.Posts t := by
  cases t with
  | submit channelOpen listener operation => exact c.posts_submit channelOpen listener operation
  | enlist listener operation payload => exact c.posts_enlist listener operation payload
  | submissionSent id result => exact c.posts_submissionSent id result
  | decide id d => exact c.posts_decide id d
  | claim id d => exact c.posts_claim id d
  | decisionSent id d result => exact c.posts_decisionSent id d result
  | decided id d result => exact c.posts_decided id d result
  | dispatch m => exact c.posts_dispatch m
  | accept id result => exact c.posts_accept id result
  | finish id outcome kind => exact c.posts_finish id outcome kind
  | report id severity text => exact c.posts_report id severity text
  | sweep => exact c.posts_sweep
  | announce o => exact c.posts_announce o
  | drain id => exact c.posts_drain id
  | called id callback panicked => exact c.posts_called id callback panicked
  | resolve id outcome => exact c.posts_resolve id outcome
  | subscribe id tag => exact c.posts_subscribe id tag
  | raise u => exact c.posts_raise u

end Client

end TwoPhase
