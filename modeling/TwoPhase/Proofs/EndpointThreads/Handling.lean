import TwoPhase.Proofs.EndpointThreads.Replies
/-
Every message is answered exactly once.

What every turn of a job keeps is said by `Job.Sound`. What was done, with whatever the frames that
are left bring about, is what the receipt of its message brings about; the moves and answers that it took
and those that it can still take are bounded; and its frames change the entry of no operation but its own.
Each is one lemma about a move and one about an answer.
-/

set_option autoImplicit false

namespace TwoPhase

open Endpoint (Task Frame Upcall Answer)

/-! ## That handling ends -/

namespace Endpoint

/-- The moves and answers it takes at most from inside a call to the end of what follows from it. -/
def Upcall.weight : Upcall → Nat
  | .prepare .. | .finalize .. => 8
  | .record .. => 2
  | .reply _ => 1

/-- The moves and answers that a task takes at most, with what follows from it. -/
def Task.weight : Task → Nat
  | .receive _ => 14
  | .decode .. => 10
  | .prepared .. | .finalized .. => 7
  | .recorded .. | .note _ => 1
  | .raise u => u.weight + 1

/-- The moves and answers that a stack of frames takes at most, reports apart. -/
def weight : List Frame → Nat
  | [] => 0
  | .todo t :: rest => t.weight + weight rest
  | .inside u :: rest => u.weight + weight rest

theorem weight_append (frames rest : List Frame) :
    weight (frames ++ rest) = weight frames + weight rest := by
  induction frames with
  | nil => simp [weight]
  | cons f frames ih =>
    cases f with
    | todo t => simp only [List.cons_append, weight, ih, Nat.add_assoc]
    | inside u => simp only [List.cons_append, weight, ih, Nat.add_assoc]

theorem weight_eq_zero {frames : List Frame} (h : weight frames = 0) : frames = [] := by
  rcases frames with _ | ⟨t | u, rest⟩
  · rfl
  · cases t <;> simp [weight, Task.weight] at h
  · cases u <;> simp [weight, Upcall.weight] at h

/-- Every move takes one off. -/
theorem weight_perform (e : Endpoint) (now : UInt64) (t : Task) :
    weight (e.perform now t).frames + 1 ≤ t.weight := by
  have htake (id : OperationId) (decision : Decision) : weight (e.take id decision).frames ≤ 9 := by
    unfold take
    split <;> simp [weight, Task.weight, Upcall.weight]
  cases t with
  | receive m =>
    cases m with
    | execute id payload =>
      simp only [perform, enter]
      split <;> simp [weight, Task.weight, Upcall.weight]
    | commit id =>
      have := htake id .commit
      simp only [perform, Task.weight]
      omega
    | rollback id =>
      have := htake id .rollback
      simp only [perform, Task.weight]
      omega
  | decode id payload =>
    simp only [perform, decode]
    split <;> simp [weight, Task.weight, Upcall.weight]
  | prepared id result => cases result <;> simp [perform, prepared, weight, Task.weight, Upcall.weight]
  | finalized t decision result =>
    cases result <;> simp [perform, finalized, weight, Task.weight, Upcall.weight]
  | recorded id result => cases result <;> simp [perform, weight, Task.weight]
  | note n => simp [perform, weight, Task.weight]
  | raise u => simp [perform, weight, Task.weight]

/-- So does every answer. -/
theorem weight_resume (u : Upcall) (a : Answer) : weight (u.resume a) + 1 ≤ u.weight := by
  cases u <;> cases a <;> simp [Upcall.resume, weight, Upcall.weight, Task.weight]

end Endpoint

/-- Whatever is left to do about a message can be brought to an end. -/
theorem Brings.of_frames (id : OperationId) (frames : List Frame) : ∃ record, Brings id frames record := by
  -- the first frame moves, or its call is answered, and less is left to do
  generalize hweight : Endpoint.weight frames = n
  induction n using Nat.strongRecOn generalizing frames with
  | _ n ih =>
    rcases frames with _ | ⟨t | u, rest⟩
    · exact ⟨[], .nil⟩
    · have hless : Endpoint.weight ((Endpoint.fresh.perform 0 t).frames ++ rest) < n := by
        have := Endpoint.weight_perform .fresh 0 t
        rw [Endpoint.weight_append]
        simp only [Endpoint.weight] at hweight
        omega
      obtain ⟨record, hrecord⟩ := ih _ hless _ rfl
      exact ⟨_, .move .fresh 0 Endpoint.keyed_fresh hrecord⟩
    · obtain ⟨a, ha⟩ := u.exists_fits
      have hless : Endpoint.weight (u.resume a ++ rest) < n := by
        have := Endpoint.weight_resume u a
        rw [Endpoint.weight_append]
        simp only [Endpoint.weight] at hweight
        omega
      obtain ⟨record, hrecord⟩ := ih _ hless _ rfl
      exact ⟨_, .answer ha hrecord⟩

/-! ## Whose entry can change -/

namespace Endpoint

/-- The operation whose entry a frame can change, or what follows from it. -/
def Frame.changes? : Frame → Option OperationId
  | .todo (.receive m) => some m.id
  | .todo (.decode id _) | .todo (.raise (.prepare id _)) | .inside (.prepare id _)
  | .todo (.prepared id _) => some id
  | _ => none

variable {e : Endpoint} {now : UInt64} {t : Task} {id : OperationId}

/-- What follows from a move can change what the move could. -/
theorem changes_perform {f : Frame} (hf : f ∈ (e.perform now t).frames) (h : f.changes? = some id) :
    (Frame.todo t).changes? = some id := by
  have htake (i : OperationId) (decision : Decision) (hf : f ∈ (e.take i decision).frames) :
      f.changes? = none := by
    unfold take at hf
    split at hf <;> rw [List.mem_singleton.mp hf] <;> rfl
  cases t with
  | receive m =>
    cases m with
    | execute i payload =>
      simp only [perform, enter] at hf
      split at hf
      · contradiction
      · simp only [List.mem_cons, List.not_mem_nil, or_false] at hf
        rcases hf with rfl | rfl
        · contradiction
        · exact h
    | commit i => simp [htake i .commit hf] at h
    | rollback i => simp [htake i .rollback hf] at h
  | decode i payload =>
    simp only [perform, decode] at hf
    split at hf <;> rw [List.mem_singleton.mp hf] at h <;> exact h
  | prepared i result =>
    cases result <;> simp [perform, prepared] at hf <;> rcases hf with rfl | rfl | rfl <;> contradiction
  | finalized t decision result =>
    cases result <;> simp [perform, finalized] at hf <;> rcases hf with rfl | rfl | rfl <;> contradiction
  | recorded i result => cases result <;> simp [perform] at hf
  | note n => simp [perform] at hf
  | raise u =>
    simp only [perform, List.mem_singleton] at hf
    subst hf
    cases u <;> exact h

theorem changes_resume {u : Upcall} {a : Answer} {f : Frame} (hf : f ∈ u.resume a)
    (h : f.changes? = some id) : (Frame.inside u).changes? = some id := by
  cases u <;> cases a <;> simp [Upcall.resume] at hf <;> subst hf <;> exact h

/-- A move changes the entry of no other operation. -/
theorem changes_of_ne (hkeyed : e.Keyed)
    (h : (e.perform now t).endpoint.transactions.get? id ≠ e.transactions.get? id) :
    (Frame.todo t).changes? = some id := by
  -- of all that a task can do to the operation only these five change its entry
  have haffects := affects now hkeyed id t
  unfold Affects at haffects
  generalize (e.perform now t).endpoint.transactions.get? id = entry at h haffects
  generalize e.transactions.get? id = held at h haffects
  generalize (e.perform now t).frames.filter (Frame.about id) = frames at haffects
  generalize (e.incident now t).toList.filter (·.id = id) = incidents at haffects
  cases haffects with
  | @taken t decision ht => cases decision <;> rfl
  | entered | published | misplaced | dismissed => rfl
  | _ => contradiction

end Endpoint

/-! ## What every turn keeps -/

namespace Job

/-- What holds of a job at all times. -/
structure Sound (job : Job) : Prop where
  /-- With what is left to do, what was done is all that its message asks for. -/
  brings : ∀ later, Brings job.id job.frames later →
    Brings job.id [.todo (.receive job.message)] (job.record ++ later)
  /-- The moves and answers, those that are left included, are bounded. -/
  spent : job.steps + Endpoint.weight job.frames ≤ 14 + 2 * (reportsIn job.record).length
  /-- Its frames change no other entry. -/
  own : ∀ f ∈ job.frames, ∀ id, f.changes? = some id → id = job.id
  /-- Where nothing was done, its message is about to be received. -/
  idle : job.record = [] → job = start job.message

theorem sound_start (m : Outbound) : (start m).Sound where
  brings := fun _ h => h
  spent := by simp [start, Endpoint.weight, Endpoint.Task.weight, reportsIn]
  own := by
    intro f hf id h
    rw [List.mem_singleton.mp hf] at h
    exact (Option.some.inj h).symm
  idle := fun _ => rfl

/-- A changed entry is filed. -/
theorem filed_doings {e : Endpoint} {id : OperationId} {now : UInt64} {t : Task}
    (hne : (e.perform now t).endpoint.transactions.get? id ≠ e.transactions.get? id) :
    .filed ((e.perform now t).endpoint.transactions.get? id) ∈ e.doings id now t := by
  unfold Endpoint.doings
  dsimp only
  rw [if_neg hne]
  split <;> simp

variable {e e' : Endpoint} {job job' : Job}

theorem Sound.turn (hkeyed : e.Keyed) (h : Sound job) (hturn : Turn e job e' job') :
    e'.Keyed ∧ Sound job' := by
  obtain ⟨hbrings, hspent, hown, hidle⟩ := h
  cases hturn with
  | @report m id payload rest steps record r =>
    refine ⟨hkeyed, fun later hlater => ?_, ?_, ?_, fun hnil => ?_⟩
    · rw [List.append_assoc]
      exact hbrings _ (.report r hlater)
    · simp only [Endpoint.weight, reportsIn, List.filterMap_append, List.length_append] at hspent ⊢
      simp only [Endpoint.Task.weight, Endpoint.Upcall.weight, Doing.report?, List.filterMap_cons,
        List.filterMap_nil, List.length_cons, List.length_nil] at hspent ⊢
      omega
    · rw [List.forall_mem_cons]
      exact ⟨fun id h => by contradiction, hown⟩
    · exact absurd hnil (by simp)
  | @move m t rest steps record now =>
    refine ⟨Endpoint.keyed_perform now hkeyed t, fun later hlater => ?_, ?_, ?_, fun hnil => ?_⟩
    · rw [List.append_assoc]
      exact hbrings _ (.move e now hkeyed hlater)
    · -- a move pays for what it does, and its frames weigh what is left
      have hmove := Endpoint.weight_perform e now t
      simp only [Endpoint.weight, Endpoint.weight_append, reportsIn, List.filterMap_append,
        List.length_append] at hspent ⊢
      omega
    · rw [List.forall_mem_cons] at hown
      rw [List.forall_mem_append]
      exact ⟨fun f hf id h => hown.1 id (Endpoint.changes_perform hf h), hown.2⟩
    · -- the first move is the receipt, and that is never without a trace
      obtain ⟨hrecord, hdoings⟩ := List.append_eq_nil_iff.mp hnil
      have hframes := congrArg Job.frames (hidle hrecord)
      obtain rfl : t = .receive m := Frame.todo.inj (List.cons.inj hframes).1
      contradiction
  | @answer m u rest steps record a hfits =>
    refine ⟨hkeyed, fun later hlater => ?_, ?_, ?_, fun hnil => ?_⟩
    · rw [List.append_assoc]
      exact hbrings _ (.answer hfits hlater)
    · have hanswer := Endpoint.weight_resume u a
      simp only [Endpoint.weight, Endpoint.weight_append, reportsIn, List.filterMap_append,
        List.length_append] at hspent ⊢
      omega
    · rw [List.forall_mem_cons] at hown
      rw [List.forall_mem_append]
      exact ⟨fun f hf id h => hown.1 id (Endpoint.changes_resume hf h), hown.2⟩
    · exact absurd hnil (by simp)

/-- What was done for a sound job is the beginning of what its message asks for. -/
theorem Sound.handled (h : Sound job) : ∃ later, Handled job.message (job.record ++ later) := by
  obtain ⟨later, hlater⟩ := Brings.of_frames job.id job.frames
  exact ⟨later, (h.brings later hlater).handled⟩

/-- Where nothing is left to do, it is all of it. -/
theorem Sound.finished (h : Sound job) (hover : job.frames = []) : Handled job.message job.record := by
  have hbrings := h.brings []
  rw [hover, List.append_nil] at hbrings
  exact (hbrings .nil).handled

/-- A turn that changes an entry changes that of the operation of the job, and keeps a record of it. -/
theorem Sound.filed (hkeyed : e.Keyed) (h : Sound job) (hturn : Turn e job e' job') {id : OperationId}
    (hne : e'.transactions.get? id ≠ e.transactions.get? id) :
    id = job.id ∧ .filed (e'.transactions.get? id) ∈ job'.record := by
  cases hturn with
  | report r => contradiction
  | answer hfits => contradiction
  | @move m t rest steps record now =>
    obtain rfl := h.own _ List.mem_cons_self id (Endpoint.changes_of_ne hkeyed hne)
    exact ⟨rfl, List.mem_append_right record (filed_doings hne)⟩

/-- What is found at the receipt of a message is what the table holds at that moment. -/
theorem Sound.found (h : Sound job) (hnil : job.record = []) {n : Nat} {now : UInt64}
    (hturn : job.turn e (.move n now) = some (e', job')) :
    job'.record.head? = some (.found (e.transactions.get? job.id)) := by
  obtain ⟨m, hstart⟩ : ∃ m, job = start m := ⟨_, h.idle hnil⟩
  subst hstart
  obtain ⟨-, rfl⟩ := Prod.mk.inj (Option.some.inj hturn)
  rfl

end Job

/-! ## Every message -/

namespace EndpointJobs

/-- **Every message is answered exactly once**: each message that was handed in has one job, and the
jobs do what their messages ask for. -/
structure AnsweredOnce (d : EndpointJobs) : Prop where
  /-- Every message that was handed in is handled once. -/
  handed : (d.jobs.map (·.message)).Perm d.handed
  /-- What is found at the receipt of a message is what the table holds at that moment. -/
  found : ∀ (n : Nat) (job : Job) (jobs : List Job) (now : UInt64) (e : Endpoint) (job' : Job),
    d.threads[n]? = some (job :: jobs) → job.record = [] →
      job.turn d.endpoint (.move n now) = some (e, job') →
        job'.record.head? = some (.found (d.endpoint.transactions.get? job.id))
  /-- A message whose handling is over was handled as it has to be. -/
  closed : ∀ job ∈ d.closed, Handled job.message job.record
  /-- What was done about a message in progress is the beginning of that. -/
  begun : ∀ jobs ∈ d.threads, ∀ job ∈ jobs, ∃ later, Handled job.message (job.record ++ later)
  /-- Its handling ends after so many moves and answers. -/
  ends : ∀ jobs ∈ d.threads, ∀ job ∈ jobs, job.steps < 14 + 2 * (reportsIn job.record).length
  /-- Until then the topmost job of a thread makes a move, or foreign code can answer it. -/
  goes : ∀ (n : Nat) (job : Job) (jobs : List Job), d.threads[n]? = some (job :: jobs) →
    ∃ (choice : EndpointThreads.Choice) (e : Endpoint) (job' : Job),
      ((∃ now, choice = .move n now) ∨ ∃ a, choice = .answer n a) ∧
      job.turn d.endpoint choice = some (e, job') ∧ job'.steps = job.steps + 1
  /-- An entry changes only where a message of its operation is handled, which keeps a record of it. -/
  own : ∀ (choice : EndpointThreads.Choice) (id : OperationId),
    (d.act choice).endpoint.transactions.get? id ≠ d.endpoint.transactions.get? id →
    ∃ (n : Nat) (job : Job) (jobs : List Job) (e : Endpoint) (job' : Job), choice.On n ∧
      d.threads[n]? = some (job :: jobs) ∧ job.turn d.endpoint choice = some (e, job') ∧
      (d.act choice).endpoint = e ∧ id = job.id ∧
      .filed (e.transactions.get? id) ∈ job'.record

/-- Only a turn of a topmost job changes the endpoint. -/
theorem turned_of_ne {d : EndpointJobs} {choice : EndpointThreads.Choice}
    (hne : (d.act choice).endpoint ≠ d.endpoint) :
    ∃ (n : Nat) (job : Job) (jobs : List Job) (e : Endpoint) (job' : Job), choice.On n ∧
      d.threads[n]? = some (job :: jobs) ∧ job.turn d.endpoint choice = some (e, job') ∧
      (d.act choice).endpoint = e := by
  have hturned (n : Nat) (hon : choice.On n) (h : (d.turn n choice).endpoint ≠ d.endpoint) :
      ∃ (job : Job) (jobs : List Job) (e : Endpoint) (job' : Job), choice.On n ∧
        d.threads[n]? = some (job :: jobs) ∧ job.turn d.endpoint choice = some (e, job') ∧
        (d.turn n choice).endpoint = e := by
    rcases d.turn_cases n choice with ⟨hsame, -⟩ | ⟨job, jobs, e, job', hn, hturn, hd⟩
    · exact absurd (by rw [hsame]) h
    · refine ⟨job, jobs, e, job', hon, hn, hturn, ?_⟩
      rw [hd]
      split <;> rfl
  cases choice with
  | join => contradiction
  | hand n m =>
    refine absurd ?_ hne
    simp only [act]
    split
    · split <;> rfl
    · rfl
  | report n severity text => exact ⟨n, hturned n rfl hne⟩
  | move n now => exact ⟨n, hturned n rfl hne⟩
  | answer n a => exact ⟨n, hturned n rfl hne⟩

/-- **The participant answers every message exactly once**, under every schedule. -/
theorem answered_once (schedule : List EndpointThreads.Choice) : AnsweredOnce (run schedule) := by
  have hsorted := sorted_run schedule
  obtain ⟨hkeyed, hsound⟩ : Keeps Endpoint.Keyed Job.Sound (run schedule) :=
    keeps_run Endpoint.keyed_fresh Job.sound_start
      (fun _ _ _ _ hkeyed hsound hturn => hsound.turn hkeyed hturn) schedule
  have hthread {jobs : List Job} {job : Job} (hjobs : jobs ∈ (run schedule).threads)
      (hjob : job ∈ jobs) : job.Sound :=
    hsound job (List.mem_append_right _ (List.mem_flatten_of_mem hjobs hjob))
  -- every field is read off what one job keeps (`hthread`) or off how the jobs are sorted
  constructor
  case handed => exact hsorted.handed
  case found =>
    intro n job jobs now e job' hn hnil hturn
    exact (hthread (List.mem_of_getElem? hn) List.mem_cons_self).found hnil hturn
  case closed =>
    intro job hjob
    exact (hsound job (List.mem_append_left _ hjob)).finished (hsorted.closed job hjob)
  case begun =>
    intro jobs hjobs job hjob
    exact (hthread hjobs hjob).handled
  case ends =>
    intro jobs hjobs job hjob
    have hspent := (hthread hjobs hjob).spent
    have hleft : Endpoint.weight job.frames ≠ 0 := fun hzero =>
      hsorted.progress jobs hjobs job hjob (Endpoint.weight_eq_zero hzero)
    omega
  case goes =>
    intro n job jobs hn
    exact Job.turn_possible _ n
      (hsorted.progress _ (List.mem_of_getElem? hn) job List.mem_cons_self)
  case own =>
    intro choice id hne
    have hchanged : ((run schedule).act choice).endpoint ≠ (run schedule).endpoint := fun hsame =>
      hne (by rw [hsame])
    obtain ⟨n, job, jobs, e, job', hon, hn, hturn, hact⟩ := turned_of_ne hchanged
    obtain ⟨hid, hfiled⟩ := (hthread (List.mem_of_getElem? hn) List.mem_cons_self).filed hkeyed
      (Job.turn_taken hturn) (by rw [← hact]; exact hne)
    exact ⟨n, job, jobs, e, job', hon, hn, hturn, hact, hid, hfiled⟩

/-- A decision that nobody awaits is refused. -/
example (id : OperationId) :
    (run [.join, .hand 0 (.commit id), .move 0 0, .move 0 0, .answer 0 .returned]).closed.map
        (·.record) =
      [[.found none, .called (.reply (.failed id (.rejected ("no prepared operation " ++ id.text)))),
        .answered (.reply (.failed id (.rejected ("no prepared operation " ++ id.text)))) .returned]] :=
  rfl

end EndpointJobs

end TwoPhase
