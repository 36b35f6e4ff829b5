import Mathlib.Algebra.Ring.Nat
import Mathlib.Data.List.Induction
import Mathlib.Data.List.Nodup
import TwoPhase.Participant.Journal
import TwoPhase.Proofs.Lists
/-
The journal in memory as a log.

Entries are kept by operation, and their numbers say in which order they were appended across all
operations. So nothing is lost by the filing: the entries of all operations, merged by number, are what
was appended (`merged`), and each operation reads as its own part of that. What a recovery finds is told
by the last event of each operation alone, in whatever order the events came.
-/

set_option autoImplicit false

namespace TwoPhase

namespace Journal

/-! ## Histories -/

/-- What the journal says about an operation. -/
def history (j : Journal) (id : OperationId) : List JournalEvent :=
  ((j.entries.get? id).getD []).map (·.event)

theorem history_append (j : Journal) (id i : OperationId) (x : JournalEvent) (now : UInt64) :
    (j.append i x now).2.history id = if id = i then j.history id ++ [x] else j.history id := by
  simp only [history, append, draw, push, Table.get?_insert]
  by_cases hid : id = i
  · subst hid
    simp
  · rw [if_neg hid, if_neg hid]

theorem recoverState_eq (entries : List JournalEntry) :
    recoverState entries = (entries.map (·.event)).foldl (fun _ x => x.state) .unknown := by
  rw [recoverState, List.foldl_map]

/-- Operations of the journal can be read, so a recovery comes to an end. -/
theorem recoverAmong_read (j : Journal) {ids : List OperationId}
    (h : ∀ id ∈ ids, (j.entries.get? id).isSome = true) :
    recoverAmong j.read ids = .ok (ids.filter fun id =>
      (j.history id).foldl (fun _ x => x.state) Recovered.unknown = .prepared) := by
  induction ids with
  | nil => rfl
  | cons id ids ih =>
    obtain ⟨entries, hentries⟩ := Option.isSome_iff_exists.mp (h id List.mem_cons_self)
    have hread : j.read id = .ok entries := by rw [read, hentries]
    have hstate : recoverState entries =
        (j.history id).foldl (fun _ x => x.state) Recovered.unknown := by
      rw [recoverState_eq, history, hentries, Option.getD_some]
    rw [recoverAmong, hread]
    simp only
    rw [ih fun i hi => h i (List.mem_cons_of_mem id hi)]
    simp only
    rw [hstate, List.filter_cons]
    simp only [decide_eq_true_eq]

/-! ## Appending one line after another -/

/-- What an append is asked to write down, and the time that the entry will bear. -/
structure Line where
  id : OperationId
  event : JournalEvent
  now : UInt64

/-- One more line: its number is added to those that were returned. -/
def write (state : List UInt64 × Journal) (line : Line) : List UInt64 × Journal :=
  (state.1 ++ [(state.2.append line.id line.event line.now).1],
    (state.2.append line.id line.event line.now).2)

/-- What the appends of lines return, and the journal that they leave behind. -/
def written (lines : List Line) : List UInt64 × Journal := lines.foldl write ([], .empty)

/-- Lines as entries that are numbered from one on, each with its operation. -/
def log (lines : List Line) : List (OperationId × JournalEntry) :=
  lines.mapIdx fun i line => (line.id, ⟨UInt64.ofNat (i + 1), line.now, line.event⟩)

/-- The part of a log that is about an operation. -/
def part (lines : List Line) (id : OperationId) : List JournalEntry :=
  ((log lines).filter (·.1 = id)).map (·.2)

/-- All entries of a journal that can be read, each with its operation. -/
def collected (j : Journal) : List (OperationId × JournalEntry) :=
  j.operations.flatMap fun id =>
    match j.read id with
    | .ok entries => entries.map (id, ·)
    | .error _ => []

/-- All entries of a journal, merged by their numbers. -/
def merged (j : Journal) : List (OperationId × JournalEntry) :=
  j.collected.mergeSort fun a b => a.2.sequence ≤ b.2.sequence

variable {lines : List Line} {line : Line} {id : OperationId}

theorem written_concat (lines : List Line) (line : Line) :
    written (lines ++ [line]) = write (written lines) line := by
  unfold written
  rw [List.foldl_append]
  rfl

theorem log_concat (lines : List Line) (line : Line) :
    log (lines ++ [line]) =
      log lines ++ [(line.id, ⟨UInt64.ofNat (lines.length + 1), line.now, line.event⟩)] := by
  unfold log
  rw [List.mapIdx_concat]

theorem part_concat (lines : List Line) (line : Line) (id : OperationId) :
    part (lines ++ [line]) id = part lines id ++
      if id = line.id then [⟨UInt64.ofNat (lines.length + 1), line.now, line.event⟩] else [] := by
  unfold part
  rw [log_concat, List.filter_append, List.map_append]
  by_cases hid : id = line.id
  · rw [if_pos hid, List.filter_cons_of_pos (by simp [hid])]
    rfl
  · rw [if_neg hid, List.filter_cons_of_neg (by simpa using Ne.symm hid)]
    rfl

/-- The next number is one more than there were lines. -/
theorem next_written (lines : List Line) :
    (written lines).2.next = UInt64.ofNat (lines.length + 1) := by
  induction lines using List.reverseRecOn with
  | nil => rfl
  | append_singleton lines line ih =>
    rw [written_concat, List.length_append, List.length_singleton]
    show (written lines).2.next + 1 = _
    rw [ih, UInt64.ofNat_add (lines.length + 1) 1]
    rfl

/-- **An operation holds its part of the log**, and has no entry where that is empty. -/
theorem get?_written (lines : List Line) (id : OperationId) :
    (written lines).2.entries.get? id =
      if part lines id = [] then none else some (part lines id) := by
  induction lines using List.reverseRecOn with
  | nil => rfl
  | append_singleton lines line ih =>
    rw [written_concat, part_concat]
    show ((written lines).2.entries.insert line.id _).get? id = _
    rw [Table.get?_insert]
    by_cases hid : id = line.id
    · subst hid
      rw [if_pos rfl, if_pos rfl, if_neg (by simp), ih]
      -- what was there before is the part of the earlier lines, whether it was empty or not
      have hbefore : (if part lines line.id = [] then none else some (part lines line.id)).getD [] =
          part lines line.id := by
        split
        · rename_i hempty
          exact hempty.symm
        · rfl
      show some (_ ++ [(⟨(written lines).2.next, line.now, line.event⟩ : JournalEntry)]) = _
      rw [next_written, hbefore]
    · rw [if_neg hid, if_neg hid, List.append_nil, ih]

theorem entries_written (lines : List Line) (id : OperationId) :
    ((written lines).2.entries.get? id).getD [] = part lines id := by
  rw [get?_written]
  split
  · rename_i hempty
    exact hempty.symm
  · rfl

/-- What an append returns is the number of its entry. -/
theorem numbers_written (lines : List Line) :
    (written lines).1 = (log lines).map (·.2.sequence) := by
  induction lines using List.reverseRecOn with
  | nil => rfl
  | append_singleton lines line ih =>
    rw [written_concat, log_concat, List.map_append, ← ih]
    show _ ++ [(written lines).2.next] = _
    rw [next_written]
    rfl

/-- A part of the log has the events of its operation, in their order. -/
theorem events_part (lines : List Line) (id : OperationId) :
    (part lines id).map (fun entry => (entry.event, entry.recordedAt)) =
      (lines.filter (·.id = id)).map fun line => (line.event, line.now) := by
  induction lines using List.reverseRecOn with
  | nil => rfl
  | append_singleton lines line ih =>
    rw [part_concat, List.map_append, ih, List.filter_append, List.map_append]
    by_cases hid : id = line.id
    · rw [if_pos hid, List.filter_cons_of_pos (by simp [hid])]
      rfl
    · rw [if_neg hid, List.filter_cons_of_neg (by simpa using Ne.symm hid)]
      rfl

theorem part_eq_nil_iff : part lines id = [] ↔ ∀ line ∈ lines, line.id ≠ id := by
  have hlength := congrArg List.length (events_part lines id)
  rw [List.length_map, List.length_map] at hlength
  rw [← List.length_eq_zero_iff, hlength, List.length_eq_zero_iff, List.filter_eq_nil_iff]
  simp

/-- The entries of a log are numbered from one on, while the numbers last. -/
theorem sequences_log (hlines : lines.length < 2 ^ 64) :
    (log lines).map (·.2.sequence.toNat) = List.range' 1 lines.length := by
  induction lines using List.reverseRecOn with
  | nil => rfl
  | append_singleton lines line ih =>
    rw [List.length_append, List.length_singleton] at hlines
    have hbefore : lines.length < 2 ^ 64 := by omega
    have hlast : (UInt64.ofNat (lines.length + 1)).toNat = 1 + lines.length := by
      rw [UInt64.toNat_ofNat_of_lt' hlines]
      omega
    rw [log_concat, List.map_append, ih hbefore, List.length_append, List.length_singleton,
      List.range'_concat, Nat.one_mul]
    simp only [List.map_cons, List.map_nil, hlast]

/-- One entry was appended before another. -/
abbrev Earlier (a b : OperationId × JournalEntry) : Prop := a.2.sequence < b.2.sequence

theorem ascending_log (hlines : lines.length < 2 ^ 64) : (log lines).Pairwise Earlier := by
  have hnumbers : ((log lines).map (·.2.sequence.toNat)).Pairwise (· < ·) := by
    rw [sequences_log hlines]
    exact List.pairwise_lt_range'
  rw [List.pairwise_map] at hnumbers
  exact hnumbers.imp fun h => UInt64.lt_iff_toNat_lt.mpr h

theorem ascending_part (hlines : lines.length < 2 ^ 64) (id : OperationId) :
    (part lines id).Pairwise (·.sequence < ·.sequence) := by
  unfold part
  rw [List.pairwise_map]
  exact (ascending_log hlines).filter _

/-! ## Reading -/

/-- What was appended to an operation is read in full. -/
theorem read_written (h : ∃ line ∈ lines, line.id = id) :
    (written lines).2.read id = .ok (part lines id) := by
  have hpart : part lines id ≠ [] := by
    intro hnil
    obtain ⟨line, hmem, hid⟩ := h
    exact part_eq_nil_iff.mp hnil line hmem hid
  unfold read
  rw [get?_written, if_neg hpart]

theorem read_unwritten (h : ∀ line ∈ lines, line.id ≠ id) :
    (written lines).2.read id = .error (.notFound id) := by
  unfold read
  rw [get?_written, if_pos (part_eq_nil_iff.mpr h)]

theorem mem_operations : id ∈ (written lines).2.operations ↔ ∃ line ∈ lines, line.id = id := by
  unfold operations
  rw [Table.mem_ids, get?_written]
  constructor
  · intro hsome
    by_contra hnone
    push Not at hnone
    rw [if_pos (part_eq_nil_iff.mpr hnone)] at hsome
    contradiction
  · rintro ⟨line, hmem, hid⟩
    have hpart : part lines id ≠ [] := fun hnil => part_eq_nil_iff.mp hnil line hmem hid
    rw [if_neg hpart]
    rfl

/-! ## Merging -/

/-- What is collected under an operation are its entries. -/
theorem filter_collected (j : Journal) (id : OperationId) :
    j.collected.filter (·.1 = id) = ((j.entries.get? id).getD []).map (id, ·) := by
  have hcollected : j.collected =
      j.operations.flatMap fun id => ((j.entries.get? id).getD []).map (id, ·) := by
    unfold collected
    refine List.flatMap_congr fun id _ => ?_
    unfold read
    rcases j.entries.get? id with _ | entries <;> rfl
  have hnodup : j.operations.Nodup := Table.nodup_ids _
  rw [hcollected, filter_flatMap_keyed _ hnodup]
  split
  · rfl
  · -- an operation that is not listed has no entries
    rename_i hlisted
    have hnone : j.entries.get? id = none := by
      by_contra hsome
      exact hlisted ((Table.mem_ids _ id).mpr (Option.isSome_iff_ne_none.mpr hsome))
    rw [hnone]
    rfl

/-- Under every operation there is collected what the log has of it. -/
theorem collected_written (lines : List Line) :
    (written lines).2.collected.Perm (log lines) := by
  apply perm_of_filter_eq (·.1)
  intro id
  rw [filter_collected, entries_written]
  unfold part
  rw [List.map_map]
  refine (List.map_congr_left fun x hx => ?_).trans (List.map_id _)
  have hx : x.1 = id := of_decide_eq_true (List.mem_filter.mp hx).2
  exact Prod.ext hx.symm rfl

/-- **Merged by their numbers, the entries of all operations are the log.** -/
theorem merged_written (hlines : lines.length < 2 ^ 64) : (written lines).2.merged = log lines := by
  have hperm : (written lines).2.merged.Perm (log lines) :=
    (List.mergeSort_perm _ _).trans (collected_written lines)
  have hlog := ascending_log hlines
  have hmerged : (written lines).2.merged.Pairwise fun a b => a.2.sequence ≤ b.2.sequence := by
    refine (List.pairwise_mergeSort ?_ ?_ _).imp fun h => of_decide_eq_true h
    · intro a b c hab hbc
      exact decide_eq_true (UInt64.le_trans (of_decide_eq_true hab) (of_decide_eq_true hbc))
    · intro a b
      rw [Bool.or_eq_true, decide_eq_true_eq, decide_eq_true_eq]
      exact UInt64.le_total _ _
  -- no two entries of the log have the same number, so it can be sorted in one way only
  refine hperm.eq_of_pairwise (fun a b ha hb hab hba => ?_) hmerged
    (hlog.imp fun h => UInt64.le_of_lt h)
  have hnodup : ((log lines).map (·.2.sequence)).Nodup :=
    List.pairwise_map.mpr (hlog.imp fun h => UInt64.ne_of_lt h)
  exact List.inj_on_of_nodup_map hnodup (hperm.mem_iff.mp ha) hb (UInt64.le_antisymm hab hba)

/-! ## Recovery -/

/-- The last event that was appended to an operation. -/
def lastEvent (lines : List Line) (id : OperationId) : Option JournalEvent :=
  (lines.filter (·.id = id)).getLast?.map (·.event)

theorem history_written (lines : List Line) (id : OperationId) :
    (written lines).2.history id = (lines.filter (·.id = id)).map (·.event) := by
  have hevents := congrArg (List.map Prod.fst) (events_part lines id)
  rw [List.map_map, List.map_map] at hevents
  unfold history
  rw [entries_written]
  exact hevents

/-- Whatever came before it, the last event alone says whether an operation awaits a decision. -/
theorem recovered_iff (lines : List Line) (id : OperationId) :
    ((written lines).2.history id).foldl (fun _ x => x.state) Recovered.unknown = .prepared ↔
      ∃ at_, lastEvent lines id = some (.prepared at_) := by
  rw [history_written]
  unfold lastEvent
  induction lines.filter (·.id = id) using List.reverseRecOn with
  | nil => simp
  | append_singleton before line _ =>
    rw [List.map_append, List.foldl_append, List.getLast?_concat, Option.map_some]
    simp only [List.map_cons, List.map_nil, List.foldl_cons, List.foldl_nil]
    cases line.event <;> simp [JournalEvent.state]

/-- What is found again in a journal to which lines were appended. -/
structure Faithful (lines : List Line) : Prop where
  /-- The appends return one, two, three and so on. -/
  numbers : (written lines).1.map UInt64.toNat = List.range' 1 lines.length
  /-- What is read of an operation are its events, in their order and with ascending numbers. -/
  read : ∀ id, (∃ line ∈ lines, line.id = id) →
    ∃ entries, (written lines).2.read id = .ok entries ∧
      entries.map (fun entry => (entry.event, entry.recordedAt)) =
        (lines.filter (·.id = id)).map (fun line => (line.event, line.now)) ∧
      entries.Pairwise (·.sequence < ·.sequence)
  /-- An operation is not found if nothing was appended to it, and only then. -/
  notFound : ∀ id, (written lines).2.read id = .error (.notFound id) ↔
    ∀ line ∈ lines, line.id ≠ id
  /-- The operations are listed in ascending order. -/
  ascending : (written lines).2.operations.Pairwise (· < ·)
  /-- They are those to which something was appended. -/
  operations : ∀ id, id ∈ (written lines).2.operations ↔ ∃ line ∈ lines, line.id = id
  /-- Merged by their numbers, the entries of all operations are the lines as they were appended. -/
  merged : (written lines).2.merged = log lines
  /-- What awaits a decision are, in ascending order, the operations whose last event says so. -/
  recovers : ∃ ids, (written lines).2.prepared = .ok ids ∧ ids.Pairwise (· < ·) ∧
    ∀ id, id ∈ ids ↔ ∃ at_, lastEvent lines id = some (.prepared at_)

/-- **The journal is a faithful log** of whatever is appended to it one after another, in whatever order
the events come and however often an operation comes back. -/
theorem faithful (hlines : lines.length < 2 ^ 64) : Faithful lines where
  numbers := by
    rw [numbers_written, List.map_map]
    exact sequences_log hlines
  read := fun id h =>
    ⟨part lines id, read_written h, events_part lines id, ascending_part hlines id⟩
  notFound := by
    intro id
    constructor
    · intro hread line hmem hid
      rw [read_written ⟨line, hmem, hid⟩] at hread
      contradiction
    · exact read_unwritten
  ascending := Table.ascending_ids _
  operations := fun id => mem_operations
  merged := merged_written hlines
  recovers := by
    refine ⟨_, recoverAmong_read _ fun id hid => (Table.mem_ids _ id).mp hid,
      (Table.ascending_ids _).filter _, fun id => ?_⟩
    rw [List.mem_filter, decide_eq_true_eq, recovered_iff]
    apply and_iff_right_of_imp
    -- an operation with a last event has an event
    rintro ⟨at_, hlast⟩
    apply mem_operations.mpr
    obtain ⟨line, hline, -⟩ := Option.map_eq_some_iff.mp hlast
    obtain ⟨hmem, hid⟩ := List.mem_filter.mp (List.mem_of_getLast? hline)
    exact ⟨line, hmem, of_decide_eq_true hid⟩

/-- Two operations in turn, neither of which keeps to the order of a lifecycle: the second is received
after it was prepared, and the first is prepared again after it was committed. -/
def jumbled : List Line :=
  [⟨⟨2⟩, .prepared 5, 6⟩, ⟨⟨1⟩, .received 7, 7⟩, ⟨⟨2⟩, .received 8, 8⟩, ⟨⟨1⟩, .committed 9, 9⟩,
    ⟨⟨1⟩, .prepared 9, 10⟩]

/-- Its entries are kept as those of two operations and come back as one log, and only the first operation
awaits a decision. -/
theorem faithful_of_jumbled :
    jumbled.length < 2 ^ 64 ∧ (written jumbled).2.prepared = .ok [⟨1⟩] ∧
      (written jumbled).2.merged.map (fun x => (x.2.sequence, x.1)) =
        [(1, ⟨2⟩), (2, ⟨1⟩), (3, ⟨2⟩), (4, ⟨1⟩), (5, ⟨1⟩)] := by
  have hlength : jumbled.length < 2 ^ 64 := by decide
  refine ⟨hlength, by decide +kernel, ?_⟩
  rw [(faithful hlength).merged]
  rfl

end Journal

end TwoPhase
