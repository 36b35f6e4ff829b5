import Mathlib.Algebra.BigOperators.Group.List.Basic
import Mathlib.Algebra.Ring.Nat
import TwoPhase.Operation.Table
/-
Sums over the entries of a table, and how a table that changes at one place changes its sum.
-/

set_option autoImplicit false

namespace TwoPhase

namespace Table

variable {α : Type}

/-- The sum of what the entries are worth. -/
def total (f : α → Nat) (t : Table α) : Nat := (t.entries.map fun e => f e.2).sum

/-- An entry that is put into a list in order changes the sum by its worth, less that of the entry that
it replaces. -/
theorem sum_insertEntry (f : α → Nat) (id : OperationId) (a : α)
    {entries : List (OperationId × α)} (h : entries.Pairwise Before) :
    ((insertEntry id a entries).map fun e => f e.2).sum + ((entries.lookup id).map f).getD 0 =
      (entries.map fun e => f e.2).sum + f a := by
  induction entries with
  | nil => simp [insertEntry]
  | cons first rest ih =>
    obtain ⟨hfirst, hrest⟩ := List.pairwise_cons.mp h
    rw [insertEntry, lookup_entry]
    -- the entry comes first, takes the place of its equal, or goes further down
    split
    · rename_i hlt
      have hnone : rest.lookup id = none :=
        lookup_eq_none_of_before fun e he => OperationId.lt_trans hlt (hfirst e he)
      rw [if_neg (OperationId.ne_of_lt hlt), hnone]
      simp [Nat.add_comm]
    · split
      · simp only [List.map_cons, List.sum_cons, Option.map_some, Option.getD_some]
        omega
      · have hsum := ih hrest
        simp only [List.map_cons, List.sum_cons]
        omega

/-- So it is with a table. -/
theorem total_insert (f : α → Nat) (t : Table α) (id : OperationId) (a : α) :
    (t.insert id a).total f + ((t.get? id).map f).getD 0 = t.total f + f a :=
  sum_insertEntry f id a t.ascending

/-- An entry that is left out changes the sum by its worth. -/
theorem sum_filter_ne (f : α → Nat) (id : OperationId) {entries : List (OperationId × α)}
    (h : entries.Pairwise Before) :
    ((entries.filter (·.1 != id)).map fun e => f e.2).sum + ((entries.lookup id).map f).getD 0 =
      (entries.map fun e => f e.2).sum := by
  induction entries with
  | nil => rfl
  | cons first rest ih =>
    obtain ⟨hfirst, hrest⟩ := List.pairwise_cons.mp h
    have hsum := ih hrest
    rw [lookup_entry, List.filter_cons]
    by_cases hid : first.1 = id
    · have hnone : rest.lookup id = none := lookup_eq_none_of_before fun e he => hid ▸ hfirst e he
      rw [hnone] at hsum
      rw [if_neg (fun hne => bne_iff_ne.mp hne hid), if_pos hid.symm]
      simp only [List.map_cons, List.sum_cons, Option.map_some, Option.getD_some, Option.map_none,
        Option.getD_none] at hsum ⊢
      omega
    · rw [if_pos (bne_iff_ne.mpr hid), if_neg (Ne.symm hid)]
      simp only [List.map_cons, List.sum_cons]
      omega

/-- So it is with a table. -/
theorem total_erase (f : α → Nat) (t : Table α) (id : OperationId) :
    (t.erase id).total f + ((t.get? id).map f).getD 0 = t.total f :=
  sum_filter_ne f id t.ascending

section
variable {t : Table α} {id : OperationId} {a : α}

/-- A new entry adds its worth. -/
theorem total_insert_of_none (h : t.get? id = none) (f : α → Nat) (b : α) :
    (t.insert id b).total f = t.total f + f b := by
  have hsum := t.total_insert f id b
  rw [h] at hsum
  exact hsum

/-- An entry that takes the place of another brings its own worth. -/
theorem total_insert_of_some (h : t.get? id = some a) (f : α → Nat) (b : α) :
    (t.insert id b).total f + f a = t.total f + f b := by
  have hsum := t.total_insert f id b
  rw [h] at hsum
  exact hsum

/-- An entry that is taken out takes its worth along. -/
theorem total_erase_of_some (h : t.get? id = some a) (f : α → Nat) :
    (t.erase id).total f + f a = t.total f := by
  have hsum := t.total_erase f id
  rw [h] at hsum
  exact hsum

end

@[simp] theorem total_empty (f : α → Nat) : (Table.empty : Table α).total f = 0 := rfl

theorem total_const (n : Nat) (t : Table α) : t.total (fun _ => n) = n * t.entries.length := by
  rw [total, List.map_const', List.sum_replicate_nat, Nat.mul_comm]

end Table

end TwoPhase
