import Mathlib.Data.List.Basic
/-
Facts about lists that the proofs share: threads are numbered by their places in a list, pasts grow at
their end, and much of what happens to an operation happens at most once.
-/

set_option autoImplicit false

namespace TwoPhase

variable {α : Type} {l : List α}

/-! ## Places -/

/-- A list around one of its items, and what putting another item in its place makes of it. -/
theorem around {n : Nat} {x : α} (h : l[n]? = some x) :
    ∃ before after, before.length = n ∧ l = before ++ x :: after ∧
      ∀ y, l.set n y = before ++ y :: after := by
  obtain ⟨hn, hx⟩ := List.getElem?_eq_some_iff.mp h
  have hset (y : α) : l.set n y = l.take n ++ y :: l.drop (n + 1) := by
    rw [List.set_eq_take_append_cons_drop, if_pos hn]
  refine ⟨l.take n, l.drop (n + 1), ?_, ?_, hset⟩
  · rw [List.length_take]
    omega
  · rw [← hset x, ← hx, List.set_getElem_self]

/-- A list without the item that stands between two parts of it. -/
theorem eraseIdx_around {n : Nat} {x : α} {before after : List α} (hlength : before.length = n)
    (h : l = before ++ x :: after) : l.eraseIdx n = before ++ after := by
  rw [h, ← hlength, List.eraseIdx_append_of_length_le (Nat.le_refl _), Nat.sub_self,
    List.eraseIdx_cons_zero]

/-- The last item of a list, or one of the others. -/
theorem getElem?_snoc {x y : α} {i : Nat} (h : (l ++ [x])[i]? = some y) :
    l[i]? = some y ∨ (i = l.length ∧ x = y) := by
  rw [List.getElem?_append] at h
  split at h
  · exact Or.inl h
  · rename_i hle
    obtain ⟨hi, hx⟩ := List.getElem?_eq_some_iff.mp h
    rw [List.length_singleton] at hi
    rw [List.getElem_singleton] at hx
    exact Or.inr ⟨by omega, hx⟩

/-- What is found in a list is found in a longer one. -/
theorem getElem?_snoc_of {y : α} {i : Nat} (h : l[i]? = some y) (x : α) :
    (l ++ [x])[i]? = some y := by
  obtain ⟨hi, -⟩ := List.getElem?_eq_some_iff.mp h
  rw [List.getElem?_append_left hi, h]

/-- What stands in a list in which one item was replaced: the new one, or one of the others. -/
theorem getElem?_set_cases {x y : α} {i j : Nat} (h : (l.set i x)[j]? = some y) :
    (i = j ∧ x = y) ∨ (i ≠ j ∧ l[j]? = some y) := by
  by_cases hij : i = j
  · subst hij
    have hi := (List.getElem?_eq_some_iff.mp h).1
    rw [List.length_set] at hi
    rw [List.getElem?_set_self hi] at h
    exact Or.inl ⟨rfl, Option.some.inj h⟩
  · rw [List.getElem?_set_ne hij] at h
    exact Or.inr ⟨hij, h⟩

/-! ## Runs -/

/-- What holds at the start and survives every step holds at the end of every run, where whatever is picked
is a step or changes nothing. -/
theorem foldl_induction {σ : Type} {act : σ → α → σ} {step : σ → σ → Prop} {P : σ → Prop}
    (hact : ∀ s a, act s a = s ∨ step s (act s a)) (hstep : ∀ s s', P s → step s s' → P s') {start : σ}
    (hstart : P start) (l : List α) : P (l.foldl act start) := by
  induction l generalizing start with
  | nil => exact hstart
  | cons a rest ih =>
    refine ih ?_
    rcases hact start a with hsame | htaken
    · rw [hsame]
      exact hstart
    · exact hstep start _ hstart htaken

/-! ## Both ends -/

theorem mem_tail_append {first rest : List α} {a : α} (h : a ∈ (first ++ rest).tail) :
    a ∈ first.tail ∨ a ∈ rest := by
  cases first with
  | nil => exact Or.inr (List.mem_of_mem_tail h)
  | cons x first => exact List.mem_append.mp h

/-- What is followed by something is not the last item. -/
theorem mem_of_append_singleton_eq {before after : List α} {x y : α}
    (h : l ++ [x] = before ++ y :: after) (hafter : after ≠ []) : y ∈ l := by
  obtain ⟨init, z, rfl⟩ := (List.eq_nil_or_concat after).resolve_left hafter
  have hinit : l ++ [x] = (before ++ y :: init) ++ [z] := by
    rw [h, List.concat_eq_append, List.append_assoc, List.cons_append]
  rw [(List.append_inj' hinit rfl).1]
  exact List.mem_append_right before List.mem_cons_self

/-! ## What is picked out -/

section

variable {β γ : Type}

theorem filterMap_cons_toList (f : α → Option β) (x : α) (l : List α) :
    (x :: l).filterMap f = (f x).toList ++ l.filterMap f := by
  rw [List.filterMap_cons]
  cases f x <;> rfl

theorem filterMap_map_of_none {f : α → β} {g : β → Option γ} (h : ∀ x, g (f x) = none)
    (l : List α) : (l.map f).filterMap g = [] := by
  rw [List.filterMap_map]
  exact List.filterMap_eq_nil_iff.mpr fun x _ => h x

/-- Two lists are the same up to their order if they are the same under each key. -/
theorem perm_of_filter_eq {κ : Type} [DecidableEq κ] (key : α → κ) {l l' : List α}
    (h : ∀ k, l.filter (key · = k) = l'.filter (key · = k)) : l.Perm l' := by
  induction l generalizing l' with
  | nil =>
    refine List.Perm.of_eq (List.eq_nil_iff_forall_not_mem.mpr fun x hx => ?_).symm
    have hmem : x ∈ l'.filter (key · = key x) := List.mem_filter.mpr ⟨hx, by simp⟩
    rw [← h] at hmem
    contradiction
  | cons x l ih =>
    -- the first item of its key is found in the other list, behind items of other keys
    have hx := h (key x)
    rw [List.filter_cons_of_pos (by simp), eq_comm, List.filter_eq_cons_iff] at hx
    obtain ⟨before, after, rfl, hbefore, -, hafter⟩ := hx
    refine List.Perm.trans (List.Perm.cons x (ih fun k => ?_)) List.perm_middle.symm
    have hk := h k
    by_cases hkey : key x = k
    · subst hkey
      have hnone : before.filter (key · = key x) = [] := List.filter_eq_nil_iff.mpr hbefore
      rw [List.filter_append, hnone, List.nil_append, hafter]
    · simpa [hkey] using hk

/-- Of lists that are joined under different keys one is found again under its key. -/
theorem filter_flatMap_keyed {κ : Type} [DecidableEq κ] (f : κ → List β) {keys : List κ}
    (hnodup : keys.Nodup) (k : κ) :
    (keys.flatMap fun i => (f i).map (i, ·)).filter (·.1 = k) =
      if k ∈ keys then (f k).map (k, ·) else [] := by
  have hone (i : κ) : ((f i).map (i, ·)).filter (·.1 = k) = if i = k then (f i).map (i, ·) else [] := by
    by_cases hik : i = k <;> simp [List.filter_map, Function.comp_def, hik]
  induction keys with
  | nil => rfl
  | cons i keys ih =>
    obtain ⟨hi, hnodup⟩ := List.nodup_cons.mp hnodup
    rw [List.flatMap_cons, List.filter_append, hone, ih hnodup]
    by_cases hik : i = k
    · subst hik
      rw [if_pos rfl, if_neg hi, if_pos List.mem_cons_self, List.append_nil]
    · rw [if_neg hik, List.nil_append]
      simp only [List.mem_cons, Ne.symm hik, false_or]

end

/-! ## At most once -/

theorem eq_of_length_le_one (h : l.length ≤ 1) {a b : α} (ha : a ∈ l) (hb : b ∈ l) : a = b := by
  rcases l with _ | ⟨x, _ | ⟨y, rest⟩⟩
  · contradiction
  · rw [List.mem_singleton.mp ha, List.mem_singleton.mp hb]
  · exact absurd h (by simp)

/-- What occurs at most once in a list of lists occurs in as many of them. -/
theorem countP_any_of_le_one {p : α → Bool} {lists : List (List α)} (h : lists.flatten.countP p ≤ 1) :
    lists.countP (·.any p) = lists.flatten.countP p := by
  induction lists with
  | nil => rfl
  | cons first rest ih =>
    rw [List.flatten_cons, List.countP_append] at h ⊢
    rw [List.countP_cons, ih (by omega)]
    have hany : first.any p = true ↔ 0 < first.countP p := by rw [List.any_eq_true, List.countP_pos_iff]
    by_cases hfirst : first.any p = true
    · have hpos := hany.mp hfirst
      rw [if_pos hfirst]
      omega
    · have hzero : ¬ 0 < first.countP p := fun hpos => hfirst (hany.mpr hpos)
      rw [if_neg hfirst]
      omega

theorem eq_of_countP_le_one {p : α → Bool} (h : l.countP p ≤ 1) {a b : α} (ha : a ∈ l)
    (hpa : p a = true) (hb : b ∈ l) (hpb : p b = true) : a = b := by
  rw [List.countP_eq_length_filter] at h
  exact eq_of_length_le_one h (List.mem_filter.mpr ⟨ha, hpa⟩) (List.mem_filter.mpr ⟨hb, hpb⟩)

end TwoPhase
