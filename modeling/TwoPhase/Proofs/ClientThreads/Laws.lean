import TwoPhase.Proofs.ClientThreads.Ledger
/-
The laws that the books of a client obey, under every interleaving.

A law compares three things: what the books say, what the frames of all threads still owe to them, and
what was posted. It is proved for one posting at a time, next to anything else that is owed and posted
(`Law.Kept`), and then holds after every schedule (`Law.run`). Most laws are equations, in which nothing
may get lost; two are bounds, since an operation can fail on its way.
-/

set_option autoImplicit false

namespace TwoPhase

open Client (Task Frame Upcall Answer Event)

/-! ## Laws -/

/-- A relation between the books, how often each thing is owed to them, and how often each was posted. -/
def Law : Type := Books → (Debt → Nat) → (Post → Nat) → Prop

/-- A law that survives every posting, whatever else is owed and was posted. The books may be assumed to
be in the given condition. -/
def Law.Kept (P : Law) (sound : Books → Prop) : Prop :=
  ∀ (b b' : Books) (held debt : List Debt) (posts : List Post), sound b →
    Posting b held b' debt posts → ∀ (owed : Debt → Nat) (posted : Post → Nat),
      P b (fun d => owed d + held.count d) posted →
        P b' (fun d => owed d + debt.count d) (fun p => posted p + posts.count p)

/-- A client whose books obey a law, whatever its threads do. -/
def ClientThreads.Obeys (s : ClientThreads) (P : Law) : Prop :=
  P s.client.books (fun d => (debts s.frames).count d) (fun p => s.posts.count p)

/-- A law that every posting keeps is kept by every step of the threads. Moves are postings, and the other
steps neither owe nor post anything new. -/
theorem Law.step {P : Law} {sound : Books → Prop} (hkept : P.Kept sound) {s s' : ClientThreads}
    (hsound : sound s.client.books) (step : ClientThreads.Step s s') (h : s.Obeys P) : s'.Obeys P := by
  cases step with
  | join => simpa [ClientThreads.Obeys, ClientThreads.frames, ClientThreads.posts] using h
  | ask r haway =>
    simpa [ClientThreads.Obeys, ClientThreads.frames, ClientThreads.posts, r.debt_task] using h
  | @answer c past before after rest u a =>
    have hresume := Client.Upcall.debts_resumes (u.resumes a)
    simpa [ClientThreads.Obeys, ClientThreads.frames, hresume, ClientThreads.posts, Mark.posts] using h
  | @move c past before after rest t =>
    -- the frames that do not move, and the past, are what else is owed and was posted
    have hmoved := hkept _ _ _ _ _ hsound (c.posting t)
      (fun d => (debts (before.flatten ++ rest ++ after.flatten)).count d)
      (fun p => (past.flatMap Mark.posts).count p)
    have hfun {f g : List Frame} : (fun d => (debts (before.flatten ++ (f ++ g) ++
        after.flatten)).count d) = fun d => (debts (before.flatten ++ g ++ after.flatten)).count d +
          (debts f).count d := by
      funext d
      simp only [debts_append, List.count_append]
      omega
    have hposts : (fun p => ((past ++ c.marks t).flatMap Mark.posts).count p) =
        fun p => (past.flatMap Mark.posts).count p + ((c.marks t).flatMap Mark.posts).count p := by
      funext p
      rw [List.flatMap_append, List.count_append]
    have hframes (stack : List Frame) :
        (before ++ stack :: after).flatten = before.flatten ++ stack ++ after.flatten := by simp
    simp only [ClientThreads.Obeys, ClientThreads.frames, ClientThreads.posts, hframes, hfun, hposts] at h ⊢
    refine hmoved ?_
    rw [← List.singleton_append, hfun] at h
    simpa using h

/-- What every posting keeps holds after every schedule. -/
theorem Law.run {P : Law} {sound : Books → Prop} (hkept : P.Kept sound) {config : Config}
    (hfresh : (ClientThreads.fresh config).Obeys P) (schedule : List Choice)
    (hsound : ∀ before after, schedule = before ++ after →
      sound (ClientThreads.run config before).client.books) :
    (ClientThreads.run config schedule).Obeys P := by
  induction schedule using List.reverseRecOn with
  | nil => exact hfresh
  | append_singleton schedule choice ih =>
    have hih := ih fun before after hsplit =>
      hsound before (after ++ [choice]) (by rw [hsplit, List.append_assoc])
    rw [ClientThreads.run_append]
    rcases ClientThreads.act_step (ClientThreads.run config schedule) choice with hsame | hstep
    · rw [List.foldl_cons, List.foldl_nil, hsame]
      exact hih
    · exact Law.step hkept (hsound schedule [choice] rfl) hstep hih

namespace ClientThreads

/-- Identifiers are not taken back. -/
theorem given_le_run (config : Config) (before after : List Choice) :
    (run config before).given.length ≤ (run config (before ++ after)).given.length := by
  induction after using List.reverseRecOn with
  | nil => rw [List.append_nil]
  | append_singleton after choice ih =>
    rw [← List.append_assoc, run_append config (before ++ after)]
    exact Nat.le_trans ih (given_le_act _ choice)

/-- What is pending was given its identifier. -/
theorem pending_given (config : Config) (schedule : List Choice) (id : OperationId)
    (hmem : id ∉ (run config schedule).given) :
    (run config schedule).client.pending.get? id = none := by
  revert hmem
  refine run_induction (P := fun s => id ∉ s.given → s.client.pending.get? id = none)
    (fun _ => rfl) (fun s s' h step hmem => ?_) schedule
  cases step with
  | join => exact h hmem
  | ask r haway => exact h hmem
  | answer u a => exact h (by simpa [given, Mark.given] using hmem)
  | @move c past before after rest t =>
    rw [given, List.flatMap_append, Client.flatMap_marks, List.mem_append, not_or] at hmem
    -- what was not pending can be pending only if it was given its identifier just now
    by_contra hpending
    rcases (c.perform_touch id t).pending hpending with hbefore | henlisted
    · exact hbefore (h hmem.1)
    · have hallots : c.allots t = some id := by simpa [Client.yield] using henlisted
      exact hmem.2 (by simp [hallots])

/-- Until they wrap, the next identifier was not given before. -/
theorem next_not_given (config : Config) (schedule : List Choice)
    (hgiven : (run config schedule).given.length < 2 ^ 64) :
    (run config schedule).client.nextId ∉ (run config schedule).given := by
  obtain ⟨hfirsts, hnext⟩ := given_run config schedule
  rw [hfirsts, hnext, OperationId.firsts, List.mem_map]
  rintro ⟨k, hk, heq⟩
  have hk' := List.mem_range.mp hk
  have hval : (UInt64.ofNat (k + 1)).toNat =
      (UInt64.ofNat ((run config schedule).given.length + 1)).toNat :=
    congrArg (fun id : OperationId => id.val.toNat) heq
  rw [UInt64.toNat_ofNat', UInt64.toNat_ofNat'] at hval
  omega

/-- So it is not in use. -/
theorem unused_run (config : Config) (schedule : List Choice)
    (hgiven : (run config schedule).given.length < 2 ^ 64) :
    (run config schedule).client.pending.get? (run config schedule).client.nextId = none :=
  pending_given config schedule _ (next_not_given config schedule hgiven)

end ClientThreads

namespace Law

variable (owed : Debt → Nat) (posted : Post → Nat)

/-- How often a counter was raised, or is about to be. -/
def raised (k : Counter) : Nat := posted (.counted k) + owed (.announcement k)

attribute [local simp] raised Books.count Books.withTable List.count_cons List.count_replicate

/-- Books in which the next identifier is not in use. -/
def unused (b : Books) : Prop := b.table.get? b.nextId = none

/-- A law that assumes nothing about the books holds after every schedule. -/
theorem obeyed {P : Law} (hkept : P.Kept fun _ => True) {config : Config}
    (hfresh : (ClientThreads.fresh config).Obeys P) (schedule : List Choice) :
    (ClientThreads.run config schedule).Obeys P :=
  Law.run hkept hfresh schedule fun _ _ _ => trivial

/-- A law of the table holds as long as identifiers last. -/
theorem obeyed_of_given {P : Law} (hkept : P.Kept unused) {config : Config}
    (hfresh : (ClientThreads.fresh config).Obeys P) (schedule : List Choice)
    (hgiven : (ClientThreads.run config schedule).given.length < 2 ^ 64) :
    (ClientThreads.run config schedule).Obeys P := by
  refine Law.run hkept hfresh schedule fun before after hsplit => ?_
  have hle := ClientThreads.given_le_run config before after
  rw [← hsplit] at hle
  exact ClientThreads.unused_run config before (by omega)

/-! ### What becomes of counters -/

/-- A counter shows how often it was raised. -/
def faithful (k : Counter) : Law := fun b _ posted =>
  b.stats.get k = UInt64.ofNat (posted (.counted k))

/-- Where something is posted as counted, its counter goes up by one. -/
theorem faithful_kept (k : Counter) : (faithful k).Kept fun _ => True := by
  intro b b' held debt posts _ posting owed posted h
  have hold : b.stats.get k = UInt64.ofNat (posted (.counted k)) := h
  have hcount (l : Counter) : (b.stats.count l).get k =
      UInt64.ofNat (posted (.counted k) + if l = k then 1 else 0) := by
    rw [Stats.get_count, hold, UInt64.ofNat_add]
    by_cases hlk : l = k <;> simp [hlk]
  cases posting <;> simp [faithful, hold, hcount]

/-- A counter that was raised some number of times before anything was posted. -/
def reckoned (before : Nat) (k : Counter) : Law := fun b owed posted =>
  faithful k b owed fun p => before + posted p

/-- It makes no difference where a counter started from. -/
theorem reckoned_kept (before : Nat) (k : Counter) : (reckoned before k).Kept fun _ => True := by
  intro b b' held debt posts hsound posting owed posted h
  have hfaithful := faithful_kept k b b' held debt posts hsound posting owed (fun p => before + posted p) h
  simpa only [reckoned, Nat.add_assoc] using hfaithful

/-- The observer is told whatever is counted, but for sends that failed and notifications that were
dropped in silence. -/
def observed (k : Counter) : Law := fun _ owed posted =>
  k ≠ .sendFailures → k ≠ .duplicates → posted (.told k) + owed (.call k) = posted (.counted k)

/-- An announcement becomes a count and a call, and the call is told. -/
theorem observed_kept (k : Counter) : (observed k).Kept fun _ => True := by
  intro b b' held debt posts _ posting owed posted h hsend hdup
  have hold := h hsend hdup
  cases posting <;> simp [Ne.symm hsend, Ne.symm hdup] at hold ⊢ <;> omega

/-! ### What becomes of operations -/

/-- Every identifier that was given is counted as a submission. -/
def submissions : Law := fun _ owed posted => raised owed posted .submitted = posted .given

/-- An announcement of a submission is owed with every identifier that is given. -/
theorem submissions_kept : submissions.Kept fun _ => True := by
  intro b b' held debt posts _ posting owed posted h
  cases posting <;> simp [submissions] at h ⊢ <;> omega

/-- What was given an identifier is open, has ended, or was withdrawn. -/
def operations : Law := fun b owed posted =>
  posted .given = raised owed posted .completed + raised owed posted .failed +
    b.table.total (fun _ => 1) + posted .withdrawn

/-- An operation is entered once, and the move that takes its entry away says what became of it. -/
theorem operations_kept : operations.Kept unused := by
  intro b b' held debt posts hunused posting owed posted h
  cases posting with
  | enlisted operation hopen =>
    have hnew := Table.total_insert_of_none hunused (fun _ => 1) ⟨operation, .submitted, none⟩
    simp [operations] at h hnew ⊢
    omega
  | @claimed id entry d hentry hphase hdecision =>
    have hinsert := Table.total_insert_of_some hentry (fun _ => 1) { entry with decision := some d }
    simp [operations] at h hinsert ⊢
    omega
  | @accepted id entry hentry hphase =>
    have hinsert := Table.total_insert_of_some hentry (fun _ => 1) { entry with phase := .prepared }
    simp [operations] at h hinsert ⊢
    omega
  | withdrawn hentry | failed hentry | completed hentry hphase =>
    have herase := Table.total_erase_of_some hentry fun _ => 1
    simp [operations] at h ⊢
    omega
  | swept =>
    have hsize := b.table.total_const 1
    simp [operations, Table.size] at h hsize ⊢
    omega
  | _ =>
    simp [operations] at h ⊢
    omega

/-- One for an operation that is prepared. -/
def ready (entry : Pending) : Nat := if entry.phase = .prepared then 1 else 0

/-- No more operations complete than were prepared: those that are prepared still may. -/
def completions : Law := fun b owed posted =>
  raised owed posted .completed + b.table.total ready ≤ raised owed posted .prepared

/-- An operation completes out of the phase that it came to when it was prepared. -/
theorem completions_kept : completions.Kept unused := by
  intro b b' held debt posts hunused posting owed posted h
  cases posting with
  | enlisted operation hopen =>
    have hnew := Table.total_insert_of_none hunused ready ⟨operation, .submitted, none⟩
    simp [completions, ready] at h hnew ⊢
    omega
  | @claimed id entry d hentry hphase hdecision =>
    have hinsert := Table.total_insert_of_some hentry ready { entry with decision := some d }
    simp [completions, ready] at h hinsert ⊢
    omega
  | @accepted id entry hentry hphase =>
    have hinsert := Table.total_insert_of_some hentry ready { entry with phase := .prepared }
    simp [completions, ready, hphase] at h hinsert ⊢
    omega
  | @completed id entry hentry hphase =>
    have herase := Table.total_erase_of_some hentry ready
    simp [completions, ready, hphase] at h herase ⊢
    omega
  | withdrawn hentry | failed hentry =>
    have herase := Table.total_erase_of_some hentry ready
    simp [completions] at h ⊢
    omega
  | _ =>
    simp [completions] at h ⊢
    omega

/-- One for an operation that can still be decided. -/
def undecided (entry : Pending) : Nat :=
  if entry.phase = .prepared ∧ entry.decision = none then 1 else 0

/-- No more decisions are sent than operations were prepared: those without a decision may still be
decided, and some decisions are on their way to the channel. -/
def decisions : Law := fun b owed posted =>
  raised owed posted .commits + raised owed posted .rollbacks + owed .decision +
    b.table.total undecided ≤ raised owed posted .prepared

/-- A decision is taken down in an entry that is prepared and has none. -/
theorem decisions_kept : decisions.Kept unused := by
  intro b b' held debt posts hunused posting owed posted h
  cases posting with
  | enlisted operation hopen =>
    have hnew := Table.total_insert_of_none hunused undecided ⟨operation, .submitted, none⟩
    simp [decisions, undecided] at h hnew ⊢
    omega
  | @claimed id entry d hentry hphase hdecision =>
    have hinsert := Table.total_insert_of_some hentry undecided { entry with decision := some d }
    simp [decisions, undecided, hphase, hdecision] at h hinsert ⊢
    omega
  | @accepted id entry hentry hphase =>
    have hinsert := Table.total_insert_of_some hentry undecided { entry with phase := .prepared }
    have hone : undecided { entry with phase := .prepared } ≤ 1 := by
      unfold undecided
      split <;> omega
    simp [decisions] at h ⊢
    omega
  | withdrawn hentry | failed hentry | completed hentry hphase =>
    have herase := Table.total_erase_of_some hentry undecided
    simp [decisions] at h ⊢
    omega
  | _ =>
    simp [decisions] at h ⊢
    omega

/-- The close is counted once. -/
def closings : Law := fun b owed posted => raised owed posted .sweeps = b.closed.toNat

/-- Only the first sweep finds the client open. -/
theorem closings_kept : closings.Kept fun _ => True := by
  intro b b' held debt posts _ posting owed posted h
  cases posting with
  | swept => cases hclosed : b.closed <;> simp [closings, hclosed] at h ⊢ <;> omega
  | _ =>
    simp [closings] at h ⊢
    omega

/-! ### What becomes of messages -/

/-- Whoever is refused by the channel counts that, and whoever decided in vain is told. -/
def refusals : Law := fun _ owed posted =>
  raised owed posted .sendFailures = posted .refused + (posted .undecided + owed .apology)

/-- A send that fails is counted together with its consequence, or owes an apology. -/
theorem refusals_kept : refusals.Kept fun _ => True := by
  intro b b' held debt posts _ posting owed posted h
  cases posting <;> simp [refusals] at h ⊢ <;> omega

/-- All news, all swept operations and all decisions in vain come to exactly one of five ends. -/
def verdicts : Law := fun _ owed posted =>
  posted .received + posted .swept + (posted .undecided + owed .apology) =
    owed .verdict + raised owed posted .prepared + raised owed posted .completed +
      raised owed posted .failed + raised owed posted .duplicates + raised owed posted .violations

/-- Whatever is owed a verdict comes to it in one move. -/
theorem verdicts_kept : verdicts.Kept fun _ => True := by
  intro b b' held debt posts _ posting owed posted h
  cases posting <;> simp [verdicts] at h ⊢ <;> omega

end Law

end TwoPhase
