import TwoPhase.Lookup
/-
Lists of entries by name, in the order in which the names were first given. Putting a name again
changes its entry where it stands. A list that comes from elsewhere may hold a name twice; looking up
and putting then mean the first of them.
-/

set_option autoImplicit false

namespace TwoPhase.Named

variable {α : Type}

/-- Gives a name its entry where it stands first, or adds it behind all others. -/
def put (name : String) (a : α) : List (String × α) → List (String × α)
  | [] => [(name, a)]
  | (k, b) :: rest => if k = name then (k, a) :: rest else (k, b) :: put name a rest

/-- Changes the entry of a name, starting from `initial` where the name has none. -/
def update (name : String) (initial : α) (f : α → α) (entries : List (String × α)) :
    List (String × α) :=
  put name (f ((entries.lookup name).getD initial)) entries

/-! ## What is found afterwards -/

/-- The name has its new entry, and the other names have theirs. -/
theorem lookup_put (name q : String) (a : α) (entries : List (String × α)) :
    List.lookup q (put name a entries) = if q = name then some a else List.lookup q entries := by
  induction entries with
  | nil => rw [put, lookup_entry]
  | cons first rest ih =>
    rw [put]
    split
    · rename_i hfirst
      rw [lookup_entry, lookup_entry, hfirst]
      split <;> rfl
    · rename_i hfirst
      rw [lookup_entry, lookup_entry, ih]
      by_cases hq : q = first.1
      · rw [if_pos hq, if_neg (fun h => hfirst (hq.symm.trans h)), if_pos hq]
      · rw [if_neg hq, if_neg hq]

/-! ## Where it is put -/

section

variable {name : String} {entries before : List (String × α)}

theorem put_cons_self (name : String) (a b : α) (rest : List (String × α)) :
    put name a ((name, b) :: rest) = (name, a) :: rest := if_pos rfl

theorem put_cons_of_ne {k : String} (h : k ≠ name) (a b : α) (rest : List (String × α)) :
    put name a ((k, b) :: rest) = (k, b) :: put name a rest := if_neg h

/-- What stands before all entries of a name stays as it is. -/
theorem put_append (hbefore : name ∉ before.map (·.1)) (a : α) (rest : List (String × α)) :
    put name a (before ++ rest) = before ++ put name a rest := by
  induction before with
  | nil => rfl
  | cons first before ih =>
    have hfirst : first.1 ≠ name := (List.ne_of_not_mem_cons hbefore).symm
    rw [List.cons_append, put_cons_of_ne hfirst, ih (List.not_mem_of_not_mem_cons hbefore),
      List.cons_append]

/-- A new name goes behind all others. -/
theorem put_new (hnew : name ∉ entries.map (·.1)) (a : α) :
    put name a entries = entries ++ [(name, a)] := by
  have happend := put_append hnew a []
  rwa [List.append_nil] at happend

/-- A name that is there has its entry changed where it stands first, and nowhere else. -/
theorem put_first (hbefore : name ∉ before.map (·.1)) (a b : α) (after : List (String × α)) :
    put name a (before ++ (name, b) :: after) = before ++ (name, a) :: after := by
  rw [put_append hbefore, put_cons_self]

/-- Names stay where they are, and a new one goes behind all others. -/
theorem map_fst_put (name : String) (a : α) (entries : List (String × α)) :
    (put name a entries).map (·.1) =
      if name ∈ entries.map (·.1) then entries.map (·.1) else entries.map (·.1) ++ [name] := by
  by_cases hmem : name ∈ entries.map (·.1)
  · rw [if_pos hmem]
    obtain ⟨before, b, after, rfl, hbefore, -⟩ := exists_first hmem
    rw [put_first hbefore, List.map_append, List.map_append, List.map_cons, List.map_cons]
  · rw [if_neg hmem, put_new hmem, List.map_append, List.map_singleton]

/-! ## Putting twice -/

/-- Of two entries for one name the later is kept. -/
theorem put_put (name : String) (a b : α) (entries : List (String × α)) :
    put name b (put name a entries) = put name b entries := by
  by_cases hmem : name ∈ entries.map (·.1)
  · obtain ⟨before, c, after, rfl, hbefore, -⟩ := exists_first hmem
    rw [put_first hbefore, put_first hbefore, put_first hbefore]
  · rw [put_new hmem, put_new hmem, put_first hmem]

/-- A name that is there can be given what is found under it, and nothing changes. -/
theorem put_found (h : name ∈ entries.map (·.1)) :
    ∃ a, entries.lookup name = some a ∧ put name a entries = entries := by
  obtain ⟨before, b, after, rfl, hbefore, hlookup⟩ := exists_first h
  exact ⟨b, hlookup, put_first hbefore b b after⟩

/-- Two names can be put in either order if one of them is there already. -/
theorem put_comm {other : String} (hne : other ≠ name)
    (hmem : name ∈ entries.map (·.1) ∨ other ∈ entries.map (·.1)) (a b : α) :
    put other b (put name a entries) = put name a (put other b entries) := by
  induction entries with
  | nil => exact absurd hmem (by simp)
  | cons first rest ih =>
    obtain ⟨k, c⟩ := first
    by_cases hname : k = name
    · subst hname
      rw [put_cons_self, put_cons_of_ne hne.symm, put_cons_of_ne hne.symm, put_cons_self]
    by_cases hother : k = other
    · subst hother
      rw [put_cons_of_ne hname, put_cons_self, put_cons_self, put_cons_of_ne hname]
    -- the first entry is of neither name, so one of them is behind it
    have hrest : name ∈ rest.map (·.1) ∨ other ∈ rest.map (·.1) :=
      hmem.imp (List.mem_of_ne_of_mem (Ne.symm hname)) (List.mem_of_ne_of_mem (Ne.symm hother))
    rw [put_cons_of_ne hname, put_cons_of_ne hother, put_cons_of_ne hother, put_cons_of_ne hname,
      ih hrest]

end

end TwoPhase.Named
