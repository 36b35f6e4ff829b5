import TwoPhase.Lookup
import TwoPhase.Operation.Basic
/-
Tables by operation: at most one entry for each identifier, in ascending order of identifiers. Since
a client hands identifiers out in ascending order, the order of its table is the order of submission.

The order is part of the type, so a table is determined by what `get?` finds in it (`ext_get?`), and
every operation is described by what `get?` finds afterwards.
-/

set_option autoImplicit false

namespace TwoPhase

/-- One entry comes before another. -/
abbrev Table.Before {α : Type} (a b : OperationId × α) : Prop := a.1 < b.1

/-- Entries by operation. -/
structure Table (α : Type) where
  entries : List (OperationId × α)
  ascending : entries.Pairwise Table.Before

namespace Table

variable {α : Type}

/-- No entries. -/
def empty : Table α := ⟨[], .nil⟩

instance : Inhabited (Table α) := ⟨empty⟩

/-! ## Looking up -/

/-- The entry of an operation. -/
def get? (t : Table α) (id : OperationId) : Option α := t.entries.lookup id

/-- Whether an operation has an entry. -/
def contains (t : Table α) (id : OperationId) : Bool := (t.get? id).isSome

/-- The operations that have an entry, in ascending order. -/
def ids (t : Table α) : List OperationId := t.entries.map (·.1)

/-- How many operations have an entry. -/
def size (t : Table α) : Nat := t.entries.length

/-! ## Inserting -/

/-- Puts an entry in its place in an ascending list, instead of one that was there. -/
def insertEntry (id : OperationId) (a : α) : List (OperationId × α) → List (OperationId × α)
  | [] => [(id, a)]
  | (k, b) :: rest =>
    if id < k then (id, a) :: (k, b) :: rest
    else if id = k then (id, a) :: rest
    else (k, b) :: insertEntry id a rest

/-- Whatever the list holds afterwards is the new entry or was there before. -/
theorem mem_insertEntry {id : OperationId} {a : α} {entries : List (OperationId × α)}
    {e : OperationId × α} (h : e ∈ insertEntry id a entries) : e = (id, a) ∨ e ∈ entries := by
  induction entries with
  | nil => exact Or.inl (List.mem_singleton.mp h)
  | cons first rest ih =>
    rw [insertEntry] at h
    split at h
    · exact List.mem_cons.mp h
    · split at h
      · exact (List.mem_cons.mp h).imp_right (List.mem_cons_of_mem first)
      · rcases List.mem_cons.mp h with h | h
        · exact Or.inr (h ▸ List.mem_cons_self)
        · exact (ih h).imp_right (List.mem_cons_of_mem first)

/-- The new entry goes where it belongs, so the list stays ascending. -/
theorem pairwise_insertEntry (id : OperationId) (a : α) {entries : List (OperationId × α)}
    (h : entries.Pairwise Before) : (insertEntry id a entries).Pairwise Before := by
  induction entries with
  | nil => exact List.pairwise_singleton Before (id, a)
  | cons first rest ih =>
    have hfirst : ∀ e ∈ rest, first.1 < e.1 := (List.pairwise_cons.mp h).1
    have hrest : rest.Pairwise Before := (List.pairwise_cons.mp h).2
    rw [insertEntry]
    split
    · rename_i hlt
      refine List.pairwise_cons.mpr ⟨fun e he => ?_, h⟩
      rcases List.mem_cons.mp he with he | he
      · exact he ▸ hlt
      · exact OperationId.lt_trans hlt (hfirst e he)
    · split
      · rename_i heq
        exact List.pairwise_cons.mpr ⟨fun e he => heq ▸ hfirst e he, hrest⟩
      · rename_i hlt hne
        refine List.pairwise_cons.mpr ⟨fun e he => ?_, ih hrest⟩
        rcases mem_insertEntry he with he | he
        · exact he ▸ OperationId.lt_of_not_lt_of_ne hlt hne
        · exact hfirst e he

/-- Gives an operation an entry. -/
def insert (t : Table α) (id : OperationId) (a : α) : Table α :=
  ⟨insertEntry id a t.entries, pairwise_insertEntry id a t.ascending⟩

/-! ## Taking away and changing -/

/-- Takes the entry of an operation away. -/
def erase (t : Table α) (id : OperationId) : Table α :=
  ⟨t.entries.filter (·.1 != id), t.ascending.filter _⟩

/-- Changes the entry of one operation and leaves its identifier alone. -/
def modifyEntry (id : OperationId) (f : α → α) (e : OperationId × α) : OperationId × α :=
  (e.1, if e.1 = id then f e.2 else e.2)

/-- Changes the entry of an operation, if it has one. -/
def modify (t : Table α) (id : OperationId) (f : α → α) : Table α :=
  ⟨t.entries.map (modifyEntry id f), t.ascending.map _ fun _ _ h => h⟩

/-! ## What is found afterwards -/

@[simp] theorem get?_empty (id : OperationId) : (empty : Table α).get? id = none := rfl

theorem lookup_insertEntry (id q : OperationId) (a : α) (entries : List (OperationId × α)) :
    List.lookup q (insertEntry id a entries) =
      if q = id then some a else List.lookup q entries := by
  induction entries with
  | nil => rw [insertEntry, lookup_entry]
  | cons first rest ih =>
    rw [insertEntry]
    split
    · rw [lookup_entry]
    · split
      · rename_i heq
        rw [lookup_entry, lookup_entry, heq]
        split <;> rfl
      · rename_i hne
        rw [lookup_entry, lookup_entry, ih]
        by_cases hq : q = first.1
        · rw [if_pos hq, if_neg (fun h => hne (h.symm.trans hq)), if_pos hq]
        · rw [if_neg hq, if_neg hq]

theorem lookup_filter_ne (id q : OperationId) (entries : List (OperationId × α)) :
    List.lookup q (entries.filter (·.1 != id)) =
      if q = id then none else List.lookup q entries := by
  induction entries with
  | nil => split <;> rfl
  | cons first rest ih =>
    rw [List.filter_cons, lookup_entry]
    by_cases hfirst : first.1 = id
    · rw [if_neg (fun h => (bne_iff_ne.mp h) hfirst), ih]
      by_cases hq : q = id
      · rw [if_pos hq, if_pos hq]
      · rw [if_neg hq, if_neg hq, if_neg (fun h => hq (h.trans hfirst))]
    · rw [if_pos (bne_iff_ne.mpr hfirst), lookup_entry, ih]
      by_cases hq : q = first.1
      · rw [if_pos hq, if_neg (fun h => hfirst (hq.symm.trans h)), if_pos hq]
      · rw [if_neg hq, if_neg hq]

theorem lookup_map_modifyEntry (id q : OperationId) (f : α → α)
    (entries : List (OperationId × α)) :
    List.lookup q (entries.map (modifyEntry id f)) =
      if q = id then (List.lookup q entries).map f else List.lookup q entries := by
  induction entries with
  | nil => split <;> rfl
  | cons first rest ih =>
    rw [List.map_cons, lookup_entry, modifyEntry, lookup_entry, ih]
    by_cases hq : q = first.1
    · rw [if_pos hq, if_pos hq]
      by_cases hid : first.1 = id
      · rw [if_pos hid, if_pos (hq.trans hid)]
        rfl
      · rw [if_neg hid, if_neg (fun h => hid (hq.symm.trans h))]
    · rw [if_neg hq, if_neg hq]

/-- An entry that was inserted is found, and the others are found as before. -/
theorem get?_insert (t : Table α) (id q : OperationId) (a : α) :
    (t.insert id a).get? q = if q = id then some a else t.get? q :=
  lookup_insertEntry id q a t.entries

/-- An entry that was taken away is not found, and the others are found as before. -/
theorem get?_erase (t : Table α) (id q : OperationId) :
    (t.erase id).get? q = if q = id then none else t.get? q :=
  lookup_filter_ne id q t.entries

/-- A changed entry is found changed, and the others are found as before. -/
theorem get?_modify (t : Table α) (id q : OperationId) (f : α → α) :
    (t.modify id f).get? q = if q = id then (t.get? q).map f else t.get? q :=
  lookup_map_modifyEntry id q f t.entries

/-! ## Which operations have an entry -/

/-- The operations of a table are those under which something is found. -/
theorem mem_ids (t : Table α) (id : OperationId) : id ∈ t.ids ↔ (t.get? id).isSome = true :=
  mem_map_fst_iff_lookup id t.entries

/-- The entries of a table are those that are found in it. -/
theorem mem_entries (t : Table α) (id : OperationId) (a : α) :
    (id, a) ∈ t.entries ↔ t.get? id = some a := by
  obtain ⟨entries, hascending⟩ := t
  unfold get?
  induction entries with
  | nil => simp
  | cons first rest ih =>
    obtain ⟨hfirst, hrest⟩ := List.pairwise_cons.mp hascending
    rw [lookup_entry, List.mem_cons]
    by_cases h : id = first.1
    · have hnot : (id, a) ∉ rest := fun hmem =>
        OperationId.ne_of_lt (hfirst (id, a) hmem) h.symm
      rw [if_pos h, or_iff_left hnot, Option.some.injEq, h, Prod.ext_iff]
      exact ⟨fun heq => heq.2.symm, fun heq => ⟨rfl, heq.symm⟩⟩
    · have hne : (id, a) ≠ first := fun heq => h (congrArg Prod.fst heq)
      rw [if_neg h, or_iff_right hne]
      exact ih hrest

/-- The operations of a table are listed in ascending order. -/
theorem ascending_ids (t : Table α) : t.ids.Pairwise (· < ·) :=
  List.Pairwise.map _ (fun _ _ h => h) t.ascending

/-- No operation is listed twice. -/
theorem nodup_ids (t : Table α) : t.ids.Nodup := t.ascending_ids.imp OperationId.ne_of_lt

/-- Two ascending lists with the same operations are the same. -/
theorem ids_ext {xs ys : List OperationId} (hxs : xs.Pairwise (· < ·)) (hys : ys.Pairwise (· < ·))
    (h : ∀ id, id ∈ xs ↔ id ∈ ys) : xs = ys := by
  have hperm : xs.Perm ys := (List.perm_ext_iff_of_nodup (hxs.imp OperationId.ne_of_lt)
    (hys.imp OperationId.ne_of_lt)).mpr h
  refine hperm.eq_of_pairwise (fun a b _ _ hab hba => ?_) hxs hys
  exact absurd (OperationId.lt_trans hab hba) (OperationId.lt_irrefl a)

/-! ## A table is what is found in it -/

/-- Nothing is found under an identifier that comes before all others. -/
theorem lookup_eq_none_of_before {q : OperationId} {entries : List (OperationId × α)}
    (h : ∀ e ∈ entries, q < e.1) : List.lookup q entries = none :=
  List.lookup_eq_none_iff.mpr fun e he => bne_iff_ne.mpr (OperationId.ne_of_lt (h e he))

/-- In an ascending list the first entry comes before the others, so of two such lists with the same
entries neither can begin later than the other. -/
theorem entries_ext {xs ys : List (OperationId × α)} (hxs : xs.Pairwise Before)
    (hys : ys.Pairwise Before) (h : ∀ q, List.lookup q xs = List.lookup q ys) : xs = ys := by
  induction xs generalizing ys with
  | nil =>
    cases ys with
    | nil => rfl
    | cons y ys =>
      have hy := h y.1
      rw [lookup_entry, if_pos rfl] at hy
      exact absurd hy (fun e => by contradiction)
  | cons x xs ih =>
    have hx := h x.1
    rw [lookup_entry, if_pos rfl] at hx
    cases ys with
    | nil => exact absurd hx (fun e => by contradiction)
    | cons y ys =>
      have hbx : ∀ e ∈ xs, x.1 < e.1 := (List.pairwise_cons.mp hxs).1
      have hby : ∀ e ∈ ys, y.1 < e.1 := (List.pairwise_cons.mp hys).1
      have hnotlt : ¬ x.1 < y.1 := fun hlt => by
        have hnone : List.lookup x.1 (y :: ys) = none :=
          lookup_eq_none_of_before fun e he =>
            (List.mem_cons.mp he).elim (fun heq => heq ▸ hlt)
              (fun hmem => OperationId.lt_trans hlt (hby e hmem))
        rw [hnone] at hx
        exact absurd hx (fun e => by contradiction)
      have hnotgt : ¬ y.1 < x.1 := fun hlt => by
        have hy := h y.1
        have hnone : List.lookup y.1 (x :: xs) = none :=
          lookup_eq_none_of_before fun e he =>
            (List.mem_cons.mp he).elim (fun heq => heq ▸ hlt)
              (fun hmem => OperationId.lt_trans hlt (hbx e hmem))
        rw [hnone, lookup_entry, if_pos rfl] at hy
        exact absurd hy (fun e => by contradiction)
      have hkey : x.1 = y.1 := by
        by_cases heq : x.1 = y.1
        · exact heq
        · exact absurd (OperationId.lt_of_not_lt_of_ne hnotlt heq) hnotgt
      rw [lookup_entry, if_pos hkey] at hx
      have hfirst : x = y := Prod.ext hkey (Option.some.inj hx)
      have hrest : xs = ys := by
        refine ih (List.pairwise_cons.mp hxs).2 (List.pairwise_cons.mp hys).2 fun q => ?_
        by_cases hq : q = x.1
        · rw [hq, lookup_eq_none_of_before hbx, hkey, lookup_eq_none_of_before hby]
        · have hall := h q
          rw [lookup_entry, lookup_entry, if_neg hq, if_neg (fun e => hq (e.trans hkey.symm))] at hall
          exact hall
      rw [hfirst, hrest]

/-- Two tables in which the same is found are the same. -/
theorem ext_get? {s t : Table α} (h : ∀ q, s.get? q = t.get? q) : s = t := by
  have hentries : s.entries = t.entries := entries_ext s.ascending t.ascending h
  cases s
  cases t
  exact (Table.mk.injEq ..).mpr hentries

/-- An entry that is there already makes no difference. -/
theorem insert_of_get? {t : Table α} {id : OperationId} {a : α} (h : t.get? id = some a) :
    t.insert id a = t := by
  refine ext_get? fun q => ?_
  rw [get?_insert]
  by_cases hq : q = id
  · rw [if_pos hq, hq, h]
  · rw [if_neg hq]

/-- An entry that is put in and taken out again leaves no trace. -/
theorem erase_insert {t : Table α} {id : OperationId} (h : t.get? id = none) (a : α) :
    (t.insert id a).erase id = t := by
  refine ext_get? fun q => ?_
  rw [get?_erase, get?_insert]
  by_cases hq : q = id
  · rw [if_pos hq, hq, h]
  · rw [if_neg hq, if_neg hq]

/-- Of two entries that are put in for one operation the second counts. -/
theorem insert_insert (t : Table α) (id : OperationId) (a b : α) :
    (t.insert id a).insert id b = t.insert id b := by
  refine ext_get? fun q => ?_
  rw [get?_insert, get?_insert, get?_insert]
  by_cases hq : q = id
  · rw [if_pos hq, if_pos hq]
  · rw [if_neg hq, if_neg hq, if_neg hq]

end Table

end TwoPhase
