import TwoPhase.Proofs.Journal.Log
/-
Several writers of one journal.

An append is two moves: the number is drawn outside of the lock under which the entry is put down, and other
appends may get in between. No number is given twice. The entries of an operation are in the order of their
numbers exactly as long as no append to it overtakes another one, that is, puts its entry down although it
drew its number later. Appends to one operation that do not overlap never do (`inTurn_of_apart`), and what
happens at another operation makes no difference.
-/

set_option autoImplicit false

namespace TwoPhase

/-- A journal, and the entries that have drawn their numbers and are not put down yet: one for each thread
that is in the middle of an append. -/
structure JournalWriters where
  journal : Journal
  drafts : List (OperationId × JournalEntry)

namespace JournalWriters

/-- What a schedule may pick. -/
inductive Choice where
  /-- A thread begins an append: it draws the next number. -/
  | draw (id : OperationId) (event : JournalEvent) (now : UInt64)
  /-- One of the threads puts its entry down. -/
  | push (n : Nat)

/-- What a choice leads to. -/
def act (s : JournalWriters) : Choice → JournalWriters
  | .draw id event now =>
    { journal := s.journal.draw.2
      drafts := s.drafts ++ [(id, ⟨s.journal.draw.1, now, event⟩)] }
  | .push n =>
    match s.drafts[n]? with
    | some draft =>
      { journal := s.journal.push draft.1 draft.2
        drafts := s.drafts.eraseIdx n }
    | none => s

/-- What a schedule makes of an empty journal. -/
def run (schedule : List Choice) : JournalWriters := schedule.foldl act ⟨.empty, []⟩

/-- How many appends a schedule begins. -/
def begun (schedule : List Choice) : Nat :=
  schedule.countP fun
    | .draw .. => true
    | .push _ => false

/-- The entries of an operation, in the order in which they were put down. -/
def entries (s : JournalWriters) (id : OperationId) : List JournalEntry :=
  (s.journal.entries.get? id).getD []

/-- Every entry that has a number, whether it is put down yet or not. -/
def numbered (s : JournalWriters) : List (OperationId × JournalEntry) := s.drafts ++ s.journal.collected

variable {schedule : List Choice} {s : JournalWriters}

theorem run_concat (schedule : List Choice) (choice : Choice) :
    run (schedule ++ [choice]) = (run schedule).act choice := by
  unfold run
  rw [List.foldl_append]
  rfl

theorem begun_draw (schedule : List Choice) (id : OperationId) (event : JournalEvent) (now : UInt64) :
    begun (schedule ++ [.draw id event now]) = begun schedule + 1 := by
  unfold begun
  rw [List.countP_append]
  rfl

theorem begun_push (schedule : List Choice) (n : Nat) :
    begun (schedule ++ [.push n]) = begun schedule := by
  unfold begun
  rw [List.countP_append]
  rfl

/-! ## Numbers -/

/-- What is put down comes to what is there, under its operation. -/
theorem collected_push (j : Journal) (id : OperationId) (entry : JournalEntry) :
    (j.push id entry).collected.Perm ((id, entry) :: j.collected) := by
  refine List.Perm.trans ?_ (List.perm_append_singleton _ _)
  apply perm_of_filter_eq (·.1)
  intro i
  rw [List.filter_append, Journal.filter_collected, Journal.filter_collected]
  unfold Journal.push
  rw [Table.get?_insert]
  by_cases hi : i = id
  · subst hi
    simp
  · simp [hi, Ne.symm hi]

/-- To put an entry down makes no difference to what is numbered. -/
theorem numbered_push (s : JournalWriters) (n : Nat) : (s.act (.push n)).numbered.Perm s.numbered := by
  rcases hdraft : s.drafts[n]? with _ | ⟨id, entry⟩
  · simp [act, hdraft]
  · obtain ⟨before, after, hlength, hdrafts, -⟩ := around hdraft
    have herased : s.drafts.eraseIdx n = before ++ after := eraseIdx_around hlength hdrafts
    simp only [act, hdraft, numbered, herased]
    rw [hdrafts, List.append_assoc, List.append_assoc, List.cons_append]
    apply List.Perm.append_left before
    exact ((collected_push _ _ _).append_left after).trans List.perm_middle

theorem next_run (schedule : List Choice) :
    (run schedule).journal.next = UInt64.ofNat (begun schedule + 1) := by
  induction schedule using List.reverseRecOn with
  | nil => rfl
  | append_singleton schedule choice ih =>
    rw [run_concat]
    rcases choice with ⟨id, event, now⟩ | n
    · rw [begun_draw]
      show (run schedule).journal.next + 1 = _
      rw [ih, UInt64.ofNat_add (begun schedule + 1) 1]
      rfl
    · rw [begun_push, ← ih]
      unfold act
      simp only
      split <;> rfl

/-- The numbers that were given are one, two, three and so on, up to how many appends were begun. -/
theorem numbers_run (hbegun : begun schedule < 2 ^ 64) :
    ((run schedule).numbered.map (·.2.sequence.toNat)).Perm (List.range' 1 (begun schedule)) := by
  induction schedule using List.reverseRecOn with
  | nil => exact List.Perm.refl _
  | append_singleton schedule choice ih =>
    rw [run_concat]
    rcases choice with ⟨id, event, now⟩ | n
    · rw [begun_draw] at hbegun ⊢
      have hbefore := ih (by omega)
      -- the number that is drawn comes right after those that were given
      have hnumber : (run schedule).journal.next.toNat = 1 + begun schedule := by
        rw [next_run, UInt64.toNat_ofNat_of_lt' hbegun]
        omega
      rw [List.range'_concat, Nat.one_mul, ← hnumber]
      refine List.Perm.trans ?_ (hbefore.append_right _)
      have hgrown : ((run schedule).act (.draw id event now)).numbered.Perm
          ((run schedule).numbered ++ [(id, ⟨(run schedule).journal.next, now, event⟩)]) := by
        show ((run schedule).drafts ++ [_] ++ (run schedule).journal.collected).Perm _
        unfold numbered
        rw [List.append_assoc, List.append_assoc]
        exact List.perm_append_comm.append_left _
      have hmapped := hgrown.map (·.2.sequence.toNat)
      rw [List.map_append] at hmapped
      exact hmapped
    · rw [begun_push] at hbegun ⊢
      exact ((numbered_push _ n).map _).trans (ih hbegun)

/-- **No number is given twice**, however the appends overlap. -/
theorem distinct (hbegun : begun schedule < 2 ^ 64) :
    ((run schedule).numbered.map (·.2.sequence)).Nodup := by
  have hnodup : ((run schedule).numbered.map (·.2.sequence.toNat)).Nodup :=
    (numbers_run hbegun).nodup_iff.mpr List.nodup_range'
  rw [List.Nodup, List.pairwise_map] at hnodup ⊢
  exact hnodup.imp fun hne heq => hne (congrArg UInt64.toNat heq)

/-- What is numbered so far comes before the next number. -/
theorem lt_next (hbegun : begun schedule + 1 < 2 ^ 64) {x : OperationId × JournalEntry}
    (hx : x ∈ (run schedule).numbered) : x.2.sequence < (run schedule).journal.next := by
  have hmem : x.2.sequence.toNat ∈ List.range' 1 (begun schedule) :=
    (numbers_run (by omega)).mem_iff.mp (List.mem_map_of_mem hx)
  rw [List.mem_range'_1] at hmem
  rw [UInt64.lt_iff_toNat_lt, next_run, UInt64.toNat_ofNat_of_lt' hbegun]
  omega

/-! ## Order -/

/-- A choice by which an entry of an operation is put down while an older one is still to be. -/
def Overtakes (s : JournalWriters) (id : OperationId) : Choice → Prop
  | .draw .. => False
  | .push n => s.drafts[n]?.map (·.1) = some id ∧ ∃ draft ∈ s.drafts.take n, draft.1 = id

instance (s : JournalWriters) (id : OperationId) : DecidablePred (s.Overtakes id)
  | .draw .. => inferInstanceAs (Decidable False)
  | .push _ => inferInstanceAs (Decidable (_ ∧ _))

/-- The entries of an operation are put down in the order in which their numbers were drawn. -/
def InTurn (schedule : List Choice) (id : OperationId) : Prop :=
  ∀ i, (h : i < schedule.length) → ¬ (run (schedule.take i)).Overtakes id schedule[i]

instance (schedule : List Choice) (id : OperationId) : Decidable (InTurn schedule id) :=
  inferInstanceAs (Decidable (∀ i, (h : i < schedule.length) → _))

/-- One more choice keeps the entries in turn if it does not overtake. -/
theorem inTurn_concat {choice : Choice} {id : OperationId} :
    InTurn (schedule ++ [choice]) id ↔
      InTurn schedule id ∧ ¬ (run schedule).Overtakes id choice := by
  constructor
  · intro h
    constructor
    · intro i hi
      have hturn := h i (by rw [List.length_append]; omega)
      rwa [List.take_append_of_le_length (Nat.le_of_lt hi), List.getElem_append_left hi] at hturn
    · simpa using h schedule.length (by simp)
  · rintro ⟨hbefore, hlast⟩ i hi
    rcases Nat.lt_or_ge i schedule.length with hlt | hge
    · rw [List.take_append_of_le_length (Nat.le_of_lt hlt), List.getElem_append_left hlt]
      exact hbefore i hlt
    · have heq : i = schedule.length := by
        rw [List.length_append, List.length_singleton] at hi
        omega
      subst heq
      simpa using hlast

/-- An entry that is put down goes behind the others of its operation, and all else stays. -/
theorem act_push {n : Nat} {i : OperationId} {entry : JournalEntry}
    (hdraft : s.drafts[n]? = some (i, entry)) :
    ∃ after, s.drafts = s.drafts.take n ++ (i, entry) :: after ∧
      (s.act (.push n)).drafts = s.drafts.take n ++ after ∧
      ∀ id, (s.act (.push n)).entries id =
        if id = i then s.entries id ++ [entry] else s.entries id := by
  obtain ⟨before, after, hlength, hdrafts, -⟩ := around hdraft
  have htake : s.drafts.take n = before := by
    rw [hdrafts, ← hlength, List.take_left']
    rfl
  refine ⟨after, ?_, ?_, ?_⟩
  · rw [htake]
    exact hdrafts
  · simp only [act, hdraft]
    rw [htake]
    exact eraseIdx_around hlength hdrafts
  · intro id
    simp only [act, hdraft, entries, Journal.push, Table.get?_insert]
    split
    · next heq =>
      subst heq
      rfl
    · rfl

theorem mem_numbered_of_entry {id : OperationId} {entry : JournalEntry} (h : entry ∈ s.entries id) :
    (id, entry) ∈ s.numbered := by
  apply List.mem_append_right
  have hmem : (id, entry) ∈ s.journal.collected.filter (·.1 = id) := by
    rw [Journal.filter_collected]
    exact List.mem_map_of_mem h
  exact (List.mem_filter.mp hmem).1

/-- What is still to be put down stands in the order in which the numbers were drawn. -/
theorem ascending_drafts (hbegun : begun schedule < 2 ^ 64) :
    (run schedule).drafts.Pairwise (·.2.sequence < ·.2.sequence) := by
  induction schedule using List.reverseRecOn with
  | nil => exact List.Pairwise.nil
  | append_singleton schedule choice ih =>
    rw [run_concat]
    rcases choice with ⟨i, event, now⟩ | n
    · rw [begun_draw] at hbegun
      show ((run schedule).drafts ++ [_]).Pairwise _
      rw [List.pairwise_append]
      refine ⟨ih (by omega), List.pairwise_singleton _ _, ?_⟩
      intro draft hdraft other hother
      rw [List.mem_singleton.mp hother]
      exact lt_next hbegun (List.mem_append_left _ hdraft)
    · rw [begun_push] at hbegun
      unfold act
      simp only
      split
      · exact (ih hbegun).sublist (List.eraseIdx_sublist _ _)
      · exact ih hbegun

/-- The entries of an operation ascend, and what is still to be put down for it comes after them. -/
structure InOrder (s : JournalWriters) (id : OperationId) : Prop where
  last : ∀ draft ∈ s.drafts, draft.1 = id → ∀ entry ∈ s.entries id, entry.sequence < draft.2.sequence
  ascending : (s.entries id).Pairwise (·.sequence < ·.sequence)

/-- A number that is drawn comes after all that were given. -/
theorem InOrder.draw {id : OperationId} (h : InOrder s id) (i : OperationId) (event : JournalEvent)
    (now : UInt64) (hnext : ∀ x ∈ s.numbered, x.2.sequence < s.journal.next) :
    InOrder (s.act (.draw i event now)) id := by
  refine ⟨?_, h.ascending⟩
  intro draft hdraft hid entry hentry
  rcases List.mem_append.mp hdraft with hdraft | hdraft
  · exact h.last draft hdraft hid entry hentry
  · rw [List.mem_singleton.mp hdraft]
    exact hnext _ (mem_numbered_of_entry hentry)

/-- An entry that overtakes none of its operation comes before all that are still to be put down. -/
theorem InOrder.push {id : OperationId} (h : InOrder s id) (n : Nat)
    (hdrafts : s.drafts.Pairwise (·.2.sequence < ·.2.sequence)) (hturn : ¬ s.Overtakes id (.push n)) :
    InOrder (s.act (.push n)) id := by
  rcases hdraft : s.drafts[n]? with _ | ⟨i, entry⟩
  · simpa [act, hdraft] using h
  obtain ⟨after, hsplit, hstill, hentries⟩ := act_push hdraft
  have hmem : (i, entry) ∈ s.drafts := List.mem_of_getElem? hdraft
  have hstays {draft : OperationId × JournalEntry} (hd : draft ∈ s.drafts.take n ++ after) :
      draft ∈ s.drafts := by
    rw [hsplit]
    rcases List.mem_append.mp hd with hd | hd
    · exact List.mem_append_left _ hd
    · exact List.mem_append_right _ (List.mem_cons_of_mem _ hd)
  by_cases hi : id = i
  · subst hi
    have hlater : ∀ draft ∈ s.drafts.take n ++ after, draft.1 = id →
        entry.sequence < draft.2.sequence := by
      intro draft hd hid
      rcases List.mem_append.mp hd with hd | hd
      · -- an older one would have been overtaken
        exact absurd ⟨by rw [hdraft]; rfl, draft, hd, hid⟩ hturn
      · rw [hsplit, List.pairwise_append, List.pairwise_cons] at hdrafts
        exact hdrafts.2.1.1 draft hd
    constructor
    · rw [hstill, hentries, if_pos rfl]
      intro draft hd hid x hx
      rcases List.mem_append.mp hx with hx | hx
      · exact h.last draft (hstays hd) hid x hx
      · rw [List.mem_singleton.mp hx]
        exact hlater draft hd hid
    · rw [hentries, if_pos rfl, List.pairwise_append]
      refine ⟨h.ascending, List.pairwise_singleton _ _, ?_⟩
      intro x hx y hy
      rw [List.mem_singleton.mp hy]
      exact h.last _ hmem rfl x hx
  · constructor
    · rw [hstill, hentries, if_neg hi]
      intro draft hd hid x hx
      exact h.last draft (hstays hd) hid x hx
    · rw [hentries, if_neg hi]
      exact h.ascending

/-- The entries of an operation are in the order of their numbers as long as they are put down in turn. -/
theorem inOrder_run {id : OperationId} (hbegun : begun schedule < 2 ^ 64) (hturn : InTurn schedule id) :
    InOrder (run schedule) id := by
  induction schedule using List.reverseRecOn with
  | nil =>
    constructor
    · intro draft hdraft
      contradiction
    · exact List.Pairwise.nil
  | append_singleton schedule choice ih =>
    obtain ⟨hbefore, hlast⟩ := inTurn_concat.mp hturn
    rw [run_concat]
    rcases choice with ⟨i, event, now⟩ | n
    · rw [begun_draw] at hbegun
      apply (ih (by omega) hbefore).draw
      intro x hx
      exact lt_next hbegun hx
    · rw [begun_push] at hbegun
      exact (ih hbegun hbefore).push n (ascending_drafts hbegun) hlast

/-! ## Disorder -/

/-- Some entry of an operation stands behind one with a later number, or is going to. -/
def Disordered (s : JournalWriters) (id : OperationId) : Prop :=
  (∃ draft ∈ s.drafts, draft.1 = id ∧ ∃ entry ∈ s.entries id, draft.2.sequence < entry.sequence) ∨
    ¬ (s.entries id).Pairwise (·.sequence < ·.sequence)

/-- The one that overtakes stands before the one that is overtaken. -/
theorem disordered_of_overtakes {id : OperationId} {choice : Choice}
    (hdrafts : s.drafts.Pairwise (·.2.sequence < ·.2.sequence)) (h : s.Overtakes id choice) :
    (s.act choice).Disordered id := by
  rcases choice with _ | n
  · contradiction
  obtain ⟨hid, older, holder, hsame⟩ := h
  obtain ⟨⟨i, entry⟩, hdraft, rfl⟩ := Option.map_eq_some_iff.mp hid
  obtain ⟨after, hsplit, hstill, hentries⟩ := act_push hdraft
  rw [hsplit, List.pairwise_append] at hdrafts
  refine Or.inl ⟨older, ?_, hsame, entry, ?_, hdrafts.2.2 older holder _ List.mem_cons_self⟩
  · rw [hstill]
    exact List.mem_append_left _ holder
  · rw [hentries, if_pos rfl]
    exact List.mem_append_right _ (List.mem_singleton_self _)

/-- Disorder is for good: what is put down stays where it is. -/
theorem Disordered.act {id : OperationId} (h : s.Disordered id) (choice : Choice) :
    (s.act choice).Disordered id := by
  rcases choice with ⟨i, event, now⟩ | n
  · rcases h with ⟨draft, hmem, hrest⟩ | h
    · exact Or.inl ⟨draft, List.mem_append_left _ hmem, hrest⟩
    · exact Or.inr h
  rcases hdraft : s.drafts[n]? with _ | ⟨i, entry⟩
  · simpa [JournalWriters.act, hdraft] using h
  obtain ⟨after, hsplit, hstill, hentries⟩ := act_push hdraft
  have hgrows : (s.entries id).Sublist ((s.act (.push n)).entries id) := by
    rw [hentries]
    split
    · exact List.sublist_append_left _ _
    · exact List.Sublist.refl _
  rcases h with ⟨draft, hmem, hid, later, hlater, hlt⟩ | h
  · rw [hsplit, List.mem_append, List.mem_cons] at hmem
    by_cases hgone : draft = (i, entry)
    · -- the one that was overtaken is put down, behind the other
      subst hgone
      refine Or.inr fun hascending => ?_
      rw [hentries, if_pos hid.symm, List.pairwise_append] at hascending
      have hgt := hascending.2.2 later hlater _ (List.mem_singleton_self _)
      exact absurd hgt (UInt64.lt_asymm hlt)
    · refine Or.inl ⟨draft, ?_, hid, later, hgrows.subset hlater, hlt⟩
      rw [hstill, List.mem_append]
      rcases hmem with hmem | hmem | hmem
      · exact Or.inl hmem
      · exact absurd hmem hgone
      · exact Or.inr hmem
  · exact Or.inr fun hascending => h (hascending.sublist hgrows)

/-- Once an entry was overtaken, the operation is out of order or is going to be. -/
theorem disordered_run {id : OperationId} (hbegun : begun schedule < 2 ^ 64)
    (hturn : ¬ InTurn schedule id) : (run schedule).Disordered id := by
  induction schedule using List.reverseRecOn with
  | nil => exact absurd (fun i hi => absurd hi (Nat.not_lt_zero i)) hturn
  | append_singleton schedule choice ih =>
    rw [run_concat]
    have hbefore : begun schedule < 2 ^ 64 := by
      rcases choice with ⟨i, event, now⟩ | n
      · rw [begun_draw] at hbegun
        omega
      · rwa [begun_push] at hbegun
    by_cases hwas : InTurn schedule id
    · have hovertakes : (run schedule).Overtakes id choice := by
        by_contra hnot
        exact hturn (inTurn_concat.mpr ⟨hwas, hnot⟩)
      exact disordered_of_overtakes (ascending_drafts hbefore) hovertakes
    · exact (ih hbefore hwas).act choice

/-! ## Appends that do not overlap -/

/-- No append to an operation is begun while another one to it is under way. -/
def Apart (schedule : List Choice) (id : OperationId) : Prop :=
  ∀ before event now after, schedule = before ++ .draw id event now :: after →
    ∀ draft ∈ (run before).drafts, draft.1 ≠ id

theorem Apart.init {id : OperationId} {choice : Choice} (h : Apart (schedule ++ [choice]) id) :
    Apart schedule id := by
  intro before event now after hsplit
  apply h before event now (after ++ [choice])
  rw [hsplit, List.append_assoc, List.cons_append]

/-- Only one entry of the operation is ever still to be put down. -/
theorem lone_of_apart {id : OperationId} (hapart : Apart schedule id) :
    (run schedule).drafts.Pairwise fun a b => a.1 = id → b.1 ≠ id := by
  induction schedule using List.reverseRecOn with
  | nil => exact List.Pairwise.nil
  | append_singleton schedule choice ih =>
    rw [run_concat]
    rcases choice with ⟨i, event, now⟩ | n
    · show ((run schedule).drafts ++ [_]).Pairwise _
      rw [List.pairwise_append]
      refine ⟨ih hapart.init, List.pairwise_singleton _ _, ?_⟩
      intro draft hdraft other hother hid heq
      rw [List.mem_singleton.mp hother] at heq
      subst heq
      exact hapart schedule event now [] rfl draft hdraft hid
    · unfold act
      simp only
      split
      · exact (ih hapart.init).sublist (List.eraseIdx_sublist _ _)
      · exact ih hapart.init

/-- Appends that do not overlap put their entries down in turn. -/
theorem inTurn_of_apart {id : OperationId} (hapart : Apart schedule id) : InTurn schedule id := by
  induction schedule using List.reverseRecOn with
  | nil => exact fun i hi => absurd hi (Nat.not_lt_zero i)
  | append_singleton schedule choice ih =>
    refine inTurn_concat.mpr ⟨ih hapart.init, fun hovertakes => ?_⟩
    rcases choice with _ | n
    · contradiction
    obtain ⟨hid, older, holder, hsame⟩ := hovertakes
    obtain ⟨draft, hdraft, rfl⟩ := Option.map_eq_some_iff.mp hid
    obtain ⟨after, hsplit, -⟩ := act_push hdraft
    have hlone := lone_of_apart hapart.init
    rw [hsplit, List.pairwise_append] at hlone
    exact hlone.2.2 older holder _ List.mem_cons_self hsame rfl

/-! ## Overlapping appends -/

theorem read_eq_ok {id : OperationId} {found : List JournalEntry} (h : s.journal.read id = .ok found) :
    s.entries id = found := by
  unfold Journal.read at h
  unfold entries
  rcases hget : s.journal.entries.get? id with _ | present
  · simp [hget] at h
  · simpa [hget] using h

/-- An operation with an entry can be read. -/
theorem read_of_entries {id : OperationId} (h : s.entries id ≠ []) :
    s.journal.read id = .ok (s.entries id) := by
  unfold entries at h
  unfold Journal.read entries
  rcases hget : s.journal.entries.get? id with _ | present
  · simp [hget] at h
  · rfl

/-- However the appends of any number of threads overlap, **no number is given twice**, and **the entries of
an operation are read in the order of their numbers** as long as they are put down in turn. If they are not,
then they are read out of order as soon as no append to the operation is under way any more. -/
theorem ordered_in_turn (hbegun : begun schedule < 2 ^ 64) :
    ((run schedule).numbered.map (·.2.sequence)).Nodup ∧
      ∀ id,
        (InTurn schedule id → ∀ found, (run schedule).journal.read id = .ok found →
          found.Pairwise (·.sequence < ·.sequence)) ∧
        (¬ InTurn schedule id → (∀ draft ∈ (run schedule).drafts, draft.1 ≠ id) →
          ∃ found, (run schedule).journal.read id = .ok found ∧
            ¬ found.Pairwise (·.sequence < ·.sequence)) := by
  refine ⟨distinct hbegun, fun id => ⟨?_, ?_⟩⟩
  · intro hturn found hfound
    rw [← read_eq_ok hfound]
    exact (inOrder_run hbegun hturn).ascending
  · intro hturn hidle
    rcases disordered_run hbegun hturn with ⟨draft, hmem, hid, -⟩ | hdisorder
    · exact absurd hid (hidle draft hmem)
    · refine ⟨_, read_of_entries fun hnil => ?_, hdisorder⟩
      rw [hnil] at hdisorder
      exact hdisorder List.Pairwise.nil

/-- Two appends to one operation that overlap, with one to another operation in between, all put down in
turn. -/
def interleaved : List Choice :=
  [.draw ⟨1⟩ (.received 5) 5, .draw ⟨2⟩ (.received 6) 6, .draw ⟨1⟩ (.prepared 7) 7, .push 1, .push 0,
    .push 0]

theorem ordered_of_interleaved :
    begun interleaved < 2 ^ 64 ∧
      (run interleaved).journal.read ⟨1⟩ = .ok [⟨1, 5, .received 5⟩, ⟨3, 7, .prepared 7⟩] ∧
      ([⟨1, 5, .received 5⟩, ⟨3, 7, .prepared 7⟩] : List JournalEntry).Pairwise
        (·.sequence < ·.sequence) := by
  have hbegun : begun interleaved < 2 ^ 64 := by decide
  have hread : (run interleaved).journal.read ⟨1⟩ =
      .ok [⟨1, 5, .received 5⟩, ⟨3, 7, .prepared 7⟩] := by decide
  have hturn : InTurn interleaved ⟨1⟩ := by decide
  exact ⟨hbegun, hread, ((ordered_in_turn hbegun).2 ⟨1⟩).1 hturn _ hread⟩

/-- Two appends to one operation that overlap, and the second one puts its entry down first. -/
def overlapping : List Choice :=
  [.draw ⟨1⟩ (.received 5) 5, .push 0, .draw ⟨1⟩ (.prepared 6) 6, .draw ⟨1⟩ (.committed 7) 7, .push 1,
    .push 0]

/-- The numbers are not in order any more, and a recovery takes what was put down last for the latest: the
operation seems to await a decision that was carried out. -/
theorem turned_around :
    (run overlapping).journal.read ⟨1⟩ =
        .ok [⟨1, 5, .received 5⟩, ⟨3, 7, .committed 7⟩, ⟨2, 6, .prepared 6⟩] ∧
      (run overlapping).journal.prepared = .ok [⟨1⟩] ∧
      ¬ ∀ schedule id found, begun schedule < 2 ^ 64 → (run schedule).journal.read id = .ok found →
        found.Pairwise (·.sequence < ·.sequence) := by
  have hread : (run overlapping).journal.read ⟨1⟩ =
      .ok [⟨1, 5, .received 5⟩, ⟨3, 7, .committed 7⟩, ⟨2, 6, .prepared 6⟩] := by decide
  refine ⟨hread, by decide +kernel, fun hordered => ?_⟩
  have hbegun : begun overlapping < 2 ^ 64 := by decide
  exact absurd (hordered overlapping ⟨1⟩ _ hbegun hread) (by decide)

end JournalWriters

end TwoPhase
