import TwoPhase.Proofs.ClientThreads.Laws
import TwoPhase.Proofs.ClientThreads.Withdrawals
/-
The table of pending operations, whenever its lock is free.

Seven places write to the table, each under the lock, and the threads stand between two moves at just those
points where nobody holds it. So what is said here of every state that a schedule leads to is said of
every point where another thread may look (`TableSound`), and what is said of a schedule and one that
goes on from it (`Extends`) is said of any two such points, the earlier one first. Nothing new is proved
about single moves: the facts are those that the callbacks, the decisions and the outcomes of a single
operation rest on, read for all operations at once.
-/

set_option autoImplicit false

namespace TwoPhase

open Client (Task Frame Upcall Answer Event)

/-! ## What an entry can look like -/

/-- An operation that is in the table is in one of the two phases that are not final. -/
theorem Life.open_of_pending {phase : Phase} {queued : List Callback}
    (h : Life (some phase) queued) : phase = .submitted ∨ phase = .prepared := by
  cases h with
  | submitted _ => exact Or.inl rfl
  | prepared _ => exact Or.inr rfl

/-- A decision is taken down only for a prepared operation: while it is submitted there is no handle
that could have been asked. -/
theorem View.Guarded.prepared_of_decided {v : View} {queued : List Callback} (h : v.Guarded queued)
    {entry : Pending} (hentry : v.entry = some entry)
    (hopen : entry.phase = .submitted ∨ entry.phase = .prepared) (hdecision : entry.decision ≠ none) :
    entry.phase = .prepared := by
  refine hopen.resolve_left fun hsubmitted => ?_
  have hasked := h.decided entry hentry hdecision
  rw [View.asked, h.fresh entry hentry hsubmitted] at hasked
  contradiction

/-- Nothing is published of an operation that was not queued a last callback. -/
theorem OperationShare.Accounted.unpublished {id : OperationId} {d : OperationShare} {delivery : Delivery}
    (h : d.Accounted id) (alive : d.Alive id delivery) (hfinals : finals d.queued = []) :
    d.view.outcome = none := by
  cases houtcome : d.view.outcome with
  | none => rfl
  | some outcome =>
    -- what is published has begun, and what has begun was queued
    have hbegun := (h.published outcome).mpr (Or.inl houtcome)
    rw [alive.delivering.flow, finals_append, finals_append, List.append_eq_nil_iff,
      List.append_eq_nil_iff] at hfinals
    rw [hfinals.1.1] at hbegun
    contradiction

/-- Identifiers begin at one. -/
theorem OperationId.one_le_of_ne_zero {id : OperationId} (h : id ≠ ⟨0⟩) : ⟨1⟩ ≤ id := by
  obtain ⟨v⟩ := id
  have hne : v.toNat ≠ 0 := by
    intro hzero
    refine h ?_
    rw [OperationId.mk.injEq, ← UInt64.toNat_inj]
    exact hzero
  have hle : (1 : UInt64) ≤ v := by
    rw [UInt64.le_iff_toNat_le, show (1 : UInt64).toNat = 1 from rfl]
    omega
  exact hle

namespace ClientThreads

/-! ## The table at one point -/

/-- What every thread that takes the lock may rely on. -/
structure TableSound (s : ClientThreads) : Prop where
  /-- What is pending was given an identifier: not zero, and before the next one. -/
  allotted : ∀ id entry, s.client.pending.get? id = some entry → ⟨1⟩ ≤ id ∧ id < s.client.nextId
  /-- No identifier was given twice. -/
  distinct : s.given.Nodup
  /-- Nothing that is pending is in a final phase. -/
  unfinished : ∀ id entry, s.client.pending.get? id = some entry →
    entry.phase = .submitted ∨ entry.phase = .prepared
  /-- A decision is recorded in the prepared phase only. -/
  decided : ∀ id entry, s.client.pending.get? id = some entry → entry.decision ≠ none →
    entry.phase = .prepared
  /-- The outcome of what is pending is not published. -/
  unresolved : ∀ id entry, s.client.pending.get? id = some entry →
    (s.client.cell id).outcome = none
  /-- A table that is closed is empty. -/
  swept : s.client.closed = true → s.client.pending = .empty

/-- What is pending has a share, and everything that is known of shares holds of it. -/
theorem pending_documented (config : Config) (schedule : List Choice) {id : OperationId}
    {entry : Pending} (hgiven : (run config schedule).given.length < 2 ^ 64 - 1)
    (hentry : (run config schedule).client.pending.get? id = some entry) :
    ∃ delivery, (run config schedule).Documented id delivery ∧
      Life (some entry.phase) ((run config schedule).queued id) := by
  rcases documented config schedule id hgiven with hblank | ⟨delivery, h⟩
  · have hnone : (run config schedule).client.pending.get? id = none :=
      congrArg (fun d => d.view.entry) hblank
    cases hentry.symm.trans hnone
  · have life : Life (((run config schedule).client.pending.get? id).map (·.phase))
        ((run config schedule).queued id) := h.alive.life
    rw [hentry, Option.map_some] at life
    exact ⟨delivery, h, life⟩

theorem sound_run (config : Config) (schedule : List Choice)
    (hgiven : (run config schedule).given.length < 2 ^ 64 - 1) : (run config schedule).TableSound := by
  obtain ⟨hfirsts, hnext⟩ := given_run config schedule
  constructor
  case allotted =>
    intro id entry hentry
    have hmem : id ∈ (run config schedule).given := by
      by_contra hmem
      cases hentry.symm.trans (pending_given config schedule id hmem)
    rw [hfirsts, OperationId.mem_firsts hgiven, ← hnext] at hmem
    exact ⟨OperationId.one_le_of_ne_zero hmem.2, hmem.1⟩
  case distinct =>
    rw [hfirsts]
    exact OperationId.nodup_firsts hgiven
  case unfinished =>
    intro id entry hentry
    obtain ⟨delivery, -, life⟩ := pending_documented config schedule hgiven hentry
    exact life.open_of_pending
  case decided =>
    intro id entry hentry hdecision
    obtain ⟨delivery, h, life⟩ := pending_documented config schedule hgiven hentry
    rcases balanced_run config schedule id hgiven with hblank | balanced
    · have hfound := h.alive.found
      rw [hblank] at hfound
      contradiction
    · exact balanced.guarded.prepared_of_decided hentry life.open_of_pending hdecision
  case unresolved =>
    intro id entry hentry
    obtain ⟨delivery, h, life⟩ := pending_documented config schedule hgiven hentry
    rw [Client.outcome_cell]
    exact h.accounted.unpublished h.alive life.finals_of_pending
  case swept =>
    intro hclosed
    refine Table.ext_get? fun id => ?_
    rw [(closed_run config schedule).2 hclosed id, Table.get?_empty]

/-! ## The table at two points -/

/-- What cannot be undone between an earlier point and a later one. -/
structure Extends (s s' : ClientThreads) : Prop where
  /-- Identifiers are given in line. -/
  nextId : s.client.nextId ≤ s'.client.nextId
  /-- What was given stays given. -/
  given : s.given <+: s'.given
  /-- A table that is closed stays closed. -/
  closed : s.client.closed = true → s'.client.closed = true
  /-- Nothing is taken in any more once it is. -/
  barred : s.client.closed = true → s'.given = s.given

theorem Step.given_prefix {s s' : ClientThreads} (step : Step s s') : s.given <+: s'.given := by
  cases step with
  | join => exact List.prefix_refl _
  | ask r haway => exact List.prefix_refl _
  | move t =>
    rw [given, given, List.flatMap_append]
    exact List.prefix_append _ _
  | answer u a =>
    rw [given, given, List.flatMap_append]
    exact List.prefix_append _ _

/-- A step leaves a closed table closed, and gives no identifier then. -/
theorem Step.barred {s s' : ClientThreads} (step : Step s s') (hclosed : s.client.closed = true) :
    s'.client.closed = true ∧ s'.given = s.given := by
  cases step with
  | join => exact ⟨hclosed, rfl⟩
  | ask r haway => exact ⟨hclosed, rfl⟩
  | answer u a => exact ⟨hclosed, by simp [given, Mark.given]⟩
  | @move c past before after rest t =>
    have hclosed : c.closed = true := hclosed
    have hallots : c.allots t = none := by
      cases t with
      | enlist listener operation payload => rw [Client.allots, if_pos hclosed]
      | _ => rfl
    constructor
    · have hperform := (c.header_perform t).2
      rw [hclosed, Bool.true_or] at hperform
      exact hperform
    · rw [given, given, List.flatMap_append, Client.flatMap_marks, hallots, Option.toList_none,
        List.append_nil]

/-- **Nothing that the table has settled is undone**, as long as identifiers last. -/
theorem extends_run (config : Config) (before after : List Choice)
    (hgiven : (run config (before ++ after)).given.length < 2 ^ 64 - 1) :
    (run config before).Extends (run config (before ++ after)) := by
  have hrest : (run config before).given <+: (run config (before ++ after)).given ∧
      ((run config before).client.closed = true →
        (run config (before ++ after)).client.closed = true ∧
          (run config (before ++ after)).given = (run config before).given) := by
    clear hgiven
    -- step by step from the earlier point on
    induction after using List.reverseRecOn with
    | nil =>
      rw [List.append_nil]
      exact ⟨List.prefix_refl _, fun hclosed => ⟨hclosed, rfl⟩⟩
    | append_singleton after choice ih =>
      obtain ⟨hgrown, hbarred⟩ := ih
      rw [← List.append_assoc, run_append config (before ++ after), List.foldl_cons, List.foldl_nil]
      rcases act_step (run config (before ++ after)) choice with hsame | step
      · rw [hsame]
        exact ⟨hgrown, hbarred⟩
      · refine ⟨hgrown.trans step.given_prefix, fun hclosed => ?_⟩
        obtain ⟨hstill, heq⟩ := hbarred hclosed
        obtain ⟨hstill', heq'⟩ := step.barred hstill
        exact ⟨hstill', heq'.trans heq⟩
  refine ⟨?_, hrest.1, fun hclosed => (hrest.2 hclosed).1, fun hclosed => (hrest.2 hclosed).2⟩
  have hle := hrest.1.length_le
  rw [(given_run config before).2, (given_run config (before ++ after)).2]
  have hval : UInt64.ofNat ((run config before).given.length + 1) ≤
      UInt64.ofNat ((run config (before ++ after)).given.length + 1) := by
    rw [UInt64.le_iff_toNat_le, UInt64.toNat_ofNat', UInt64.toNat_ofNat', Nat.mod_eq_of_lt (by omega),
      Nat.mod_eq_of_lt (by omega)]
    omega
  exact hval

/-- **The table is sound whenever its lock is free**, and what it has settled stays settled: under every
interleaving, from any point on. -/
theorem table_sound (config : Config) (before after : List Choice)
    (hgiven : (run config (before ++ after)).given.length < 2 ^ 64 - 1) :
    (run config (before ++ after)).TableSound ∧
      (run config before).Extends (run config (before ++ after)) :=
  ⟨sound_run config (before ++ after) hgiven, extends_run config before after hgiven⟩

/-! ## A close that overtakes a submission -/

/-- One thread submits an operation, is told that it is prepared while the channel still has the
submission in hand, and decides it. -/
def underway : List Choice :=
  [.join, .ask 0 (.submit true (.recorder "") ⟨.undefined, [], .discard⟩), .move 0, .move 0, .move 0,
    .move 0, .answer 0 .returned, .move 0,
    .ask 0 (.deliver (.prepared ⟨1⟩ .undefined)), .move 0, .move 0, .move 0, .move 0,
    .answer 0 .returned, .move 0, .move 0, .ask 0 (.decide ⟨1⟩ .commit), .move 0, .move 0]

/-- Another thread closes the table, and the first one submits again, too late. -/
def overtaken : List Choice :=
  [.join, .ask 1 .close, .move 1, .move 0,
    .ask 0 (.submit true (.recorder "") ⟨.undefined, [], .discard⟩), .move 0, .move 0]

/-- Before the close the operation is in the table with its decision; after it nothing is, and nothing
was given an identifier. -/
theorem table_sound_of_overtaken :
    (run {} (underway ++ overtaken)).given.length < 2 ^ 64 - 1 ∧
      ((run {} underway).client.pending.get? ⟨1⟩).any (fun entry => entry.decision.isSome) = true ∧
      (run {} (underway ++ overtaken)).client.closed = true ∧
      (run {} (underway ++ overtaken)).TableSound ∧
      (run {} underway).Extends (run {} (underway ++ overtaken)) := by
  have hgiven : (run {} (underway ++ overtaken)).given.length < 2 ^ 64 - 1 := by decide +kernel
  exact ⟨hgiven, by decide +kernel, by decide +kernel, table_sound {} underway overtaken hgiven⟩

end ClientThreads

end TwoPhase
