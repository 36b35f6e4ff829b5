/-
Looking up in a list of entries by key. A key may have several entries; what is found is the first of them.
-/

set_option autoImplicit false

namespace TwoPhase

variable {κ α : Type} [BEq κ] [LawfulBEq κ]

/-- What is found in a list whose first entry is known. -/
theorem lookup_entry [DecidableEq κ] (k q : κ) (b : α) (rest : List (κ × α)) :
    List.lookup q ((k, b) :: rest) = if q = k then some b else List.lookup q rest := by
  rw [List.lookup_cons]
  by_cases h : q = k
  · rw [if_pos h, beq_iff_eq.mpr h]
  · rw [if_neg h, beq_eq_false_iff_ne.mpr h]

/-- Something is found under a key if it has an entry, and only then. -/
theorem mem_map_fst_iff_lookup (q : κ) (entries : List (κ × α)) :
    q ∈ entries.map (·.1) ↔ (List.lookup q entries).isSome = true := by
  rw [List.lookup_isSome_iff, List.mem_map]
  constructor
  · rintro ⟨entry, hentry, hkey⟩
    exact ⟨entry, hentry, beq_iff_eq.mpr hkey.symm⟩
  · rintro ⟨entry, hentry, hkey⟩
    exact ⟨entry, hentry, (beq_iff_eq.mp hkey).symm⟩

theorem lookup_eq_none_of_not_mem {q : κ} {entries : List (κ × α)} (h : q ∉ entries.map (·.1)) :
    List.lookup q entries = none := by
  rw [mem_map_fst_iff_lookup, Option.not_isSome_iff_eq_none] at h
  exact h

/-- A key that has entries has a first one, behind entries of other keys, and that is what is found. -/
theorem exists_first {q : κ} {entries : List (κ × α)} (h : q ∈ entries.map (·.1)) :
    ∃ before b after, entries = before ++ (q, b) :: after ∧ q ∉ before.map (·.1) ∧
      entries.lookup q = some b := by
  obtain ⟨b, hlookup⟩ := Option.isSome_iff_exists.mp ((mem_map_fst_iff_lookup q entries).mp h)
  obtain ⟨before, after, hsplit, hbefore⟩ := List.lookup_eq_some_iff.mp hlookup
  refine ⟨before, b, after, hsplit, ?_, hlookup⟩
  intro hmem
  obtain ⟨other, hother, hsame⟩ := List.mem_map.mp hmem
  exact bne_iff_ne.mp (hbefore other hother) hsame.symm

end TwoPhase
