import TwoPhase.Value.Basic
/-
Values as maps that keep their order.

Requests, results and the shape of a failure are built by setting keys one after another, on values of any
kind: one that is no map becomes a map, and a map that came over the wire may hold a key twice. Setting and
getting obey the laws of a map on all of them (`lawful`), where two values are equal only if they are the
same tree, order of keys and bits of doubles included. After any number of settings a key has what it was
set to last (`get?_setAll`), and the keys that were new stand behind the others in the order in which they
were first set (`keys_setAll`).
-/

set_option autoImplicit false

namespace TwoPhase.Value

variable {v : Value} {k k' : String}

/-! ## Which keys there are -/

/-- Whether a value is a map that has a key. -/
def HasKey (v : Value) (k : String) : Prop :=
  ∃ fields, v = .object fields ∧ k ∈ fields.map (·.1)

theorem entries_of_no_map (h : ∀ fields, v ≠ object fields) : v.entries = [] := by
  cases v with
  | object fields => exact absurd rfl (h fields)
  | _ => rfl

/-- A value that is no map has no keys, so what has a key is a map. -/
theorem hasKey_iff : v.HasKey k ↔ k ∈ v.keys := by
  constructor
  · rintro ⟨fields, rfl, hmem⟩
    exact hmem
  · intro hmem
    cases v with
    | object fields => exact ⟨fields, rfl, hmem⟩
    | _ => contradiction

theorem keys_set (v : Value) (k : String) (x : Value) :
    (v.set k x).keys = if k ∈ v.keys then v.keys else v.keys ++ [k] :=
  Named.map_fst_put k x v.entries

theorem keys_set_of_mem (h : k ∈ v.keys) (x : Value) : (v.set k x).keys = v.keys := by
  rw [keys_set, if_pos h]

theorem keys_set_of_not_mem (h : k ∉ v.keys) (x : Value) : (v.set k x).keys = v.keys ++ [k] := by
  rw [keys_set, if_neg h]

theorem nodup_keys_set (h : v.keys.Nodup) (k : String) (x : Value) : (v.set k x).keys.Nodup := by
  by_cases hmem : k ∈ v.keys
  · rwa [keys_set_of_mem hmem]
  · rw [keys_set_of_not_mem hmem, List.nodup_append]
    refine ⟨h, List.pairwise_singleton _ _, ?_⟩
    intro q hq r hr
    rw [List.mem_singleton.mp hr]
    exact fun hqk => hmem (hqk ▸ hq)

/-! ## What a key has -/

theorem get?_set (v : Value) (k q : String) (x : Value) :
    (v.set k x).get? q = if q = k then some x else v.get? q :=
  Named.lookup_put k q x v.entries

theorem set_set (v : Value) (k : String) (x y : Value) : (v.set k x).set k y = v.set k y :=
  congrArg object (Named.put_put k x y v.entries)

/-- A key that is there has a value, and setting it to that changes nothing. -/
theorem set_found (h : v.HasKey k) : ∃ x, v.get? k = some x ∧ v.set k x = v := by
  obtain ⟨fields, rfl, hmem⟩ := h
  obtain ⟨x, hget, hput⟩ := Named.put_found hmem
  exact ⟨x, hget, congrArg object hput⟩

theorem get?_of_not_hasKey (h : ¬ v.HasKey k) : v.get? k = none :=
  lookup_eq_none_of_not_mem fun hmem => h (hasKey_iff.mpr hmem)

/-! ## Two keys -/

/-- Two new keys stand in the order in which they were set. -/
theorem keys_set_set_of_not_mem (hk : k ∉ v.keys) (hk' : k' ∉ v.keys) (hne : k' ≠ k) (x y : Value) :
    ((v.set k x).set k' y).keys = v.keys ++ [k] ++ [k'] := by
  have hkeys : (v.set k x).keys = v.keys ++ [k] := keys_set_of_not_mem hk x
  have hnew : k' ∉ (v.set k x).keys := by
    rw [hkeys, List.mem_append, List.mem_singleton, not_or]
    exact ⟨hk', hne⟩
  rw [keys_set_of_not_mem hnew, hkeys]

/-- **Two keys can be set in either order exactly if one of them is there already.** Only then does the
order in which they stand not depend on the order in which they are set. -/
theorem set_comm_iff (hne : k' ≠ k) (x y : Value) :
    (v.set k x).set k' y = (v.set k' y).set k x ↔ v.HasKey k ∨ v.HasKey k' := by
  rw [hasKey_iff, hasKey_iff]
  constructor
  · intro hcomm
    apply Decidable.byContradiction
    intro hnew
    obtain ⟨hk, hk'⟩ := not_or.mp hnew
    have hkeys := congrArg keys hcomm
    rw [keys_set_set_of_not_mem hk hk' hne, keys_set_set_of_not_mem hk' hk hne.symm] at hkeys
    have hlast : [k'] = [k] := (List.append_inj' hkeys rfl).2
    exact hne (List.singleton_inj.mp hlast)
  · intro hmem
    exact congrArg object (Named.put_comm hne hmem x y)

/-! ## Settings one after another -/

/-- Sets keys in turn. -/
def setAll (v : Value) (settings : List (String × Value)) : Value :=
  settings.foldl (fun v setting => v.set setting.1 setting.2) v

theorem setAll_cons (v : Value) (k : String) (x : Value) (rest : List (String × Value)) :
    v.setAll ((k, x) :: rest) = (v.set k x).setAll rest := rfl

/-- **A key has what it was set to last**, or what it had if it was not set. -/
theorem get?_setAll (v : Value) (settings : List (String × Value)) (k : String) :
    (v.setAll settings).get? k = (settings.reverse.lookup k).or (v.get? k) := by
  induction settings generalizing v with
  | nil => rfl
  | cons setting rest ih =>
    rw [setAll_cons, ih, get?_set, List.reverse_cons, List.lookup_append, lookup_entry]
    cases rest.reverse.lookup k <;> split <;> rfl

/-- **The keys keep their places**, and new ones stand behind them in the order in which they were first
set. -/
theorem keys_setAll (v : Value) (settings : List (String × Value)) :
    (v.setAll settings).keys = v.keys ++ ((settings.map (·.1)).filter (· ∉ v.keys)).eraseDups := by
  induction settings generalizing v with
  | nil => simp [setAll]
  | cons setting rest ih =>
    rw [setAll_cons, ih, List.map_cons]
    by_cases hmem : setting.1 ∈ v.keys
    · rw [keys_set_of_mem hmem, List.filter_cons_of_neg (by simp [hmem])]
    · -- what is new to the value with this key is new to the value, and is not this key
      have hnew : (rest.map (·.1)).filter (· ∉ v.keys ++ [setting.1]) =
          ((rest.map (·.1)).filter (· ∉ v.keys)).filter (fun q => !q == setting.1) := by
        rw [List.filter_filter]
        apply List.filter_congr
        intro q _
        rw [Bool.eq_iff_iff]
        simp [and_comm]
      rw [keys_set_of_not_mem hmem, List.filter_cons_of_pos (by simp [hmem]), List.eraseDups_cons, hnew,
        List.append_assoc, List.singleton_append]

/-- A key that is set again keeps the place that it got first. -/
example : empty.setAll [("operation", .string "add"), ("address", .list [.string "logging"]),
      ("operation", .string "remove")] =
    object [("operation", .string "remove"), ("address", .list [.string "logging"])] := rfl

theorem nodup_keys_setAll (h : v.keys.Nodup) (settings : List (String × Value)) :
    (v.setAll settings).keys.Nodup := by
  induction settings generalizing v with
  | nil => exact h
  | cons setting rest ih => exact ih (nodup_keys_set h _ _)

/-! ## The laws -/

/-- What holds of setting and getting keys, on a value of any kind. -/
structure Lawful (v : Value) : Prop where
  /-- A key has what it was set to. -/
  get_set : ∀ k x, (v.set k x).get? k = some x
  /-- The other keys have what they had. -/
  get_set_ne : ∀ k k' x, k' ≠ k → (v.set k x).get? k' = v.get? k'
  /-- Of two settings of one key the later is kept. -/
  set_set : ∀ k x y, (v.set k x).set k y = v.set k y
  /-- A key that is there has a value, and setting it to that changes nothing. -/
  set_get : ∀ k, v.HasKey k → ∃ x, v.get? k = some x ∧ v.set k x = v
  /-- A key that is not there has none. -/
  get_absent : ∀ k, ¬ v.HasKey k → v.get? k = none
  /-- Two keys can be set in either order exactly if the value is a map that has one of them. -/
  set_comm : ∀ k k' x y, k' ≠ k →
    ((v.set k x).set k' y = (v.set k' y).set k x ↔ v.HasKey k ∨ v.HasKey k')
  /-- A key that is there keeps its place, and all others keep theirs. -/
  keys_present : ∀ k x, v.HasKey k → (v.set k x).keys = v.keys
  /-- A new key goes behind all others. -/
  keys_absent : ∀ k x, ¬ v.HasKey k → (v.set k x).keys = v.keys ++ [k]
  /-- A value that is no map has no keys, and becomes a map that has this one. -/
  no_map : (∀ fields, v ≠ object fields) → v.keys = [] ∧ ∀ k x, v.set k x = object [(k, x)]
  /-- Keys that differ from each other still do, however many are set. -/
  distinct : v.keys.Nodup → ∀ settings, (v.setAll settings).keys.Nodup

/-- **Setting and getting obey the laws of a map that keeps the order of its keys**, whatever the value is
and however often it holds a key. -/
theorem lawful (v : Value) : Lawful v where
  get_set := fun k x => by rw [get?_set, if_pos rfl]
  get_set_ne := fun k k' x hne => by rw [get?_set, if_neg hne]
  set_set := Value.set_set v
  set_get := fun _ => set_found
  get_absent := fun _ => get?_of_not_hasKey
  set_comm := fun _ _ x y hne => set_comm_iff hne x y
  keys_present := fun _ x h => keys_set_of_mem (hasKey_iff.mp h) x
  keys_absent := fun _ x h => keys_set_of_not_mem (fun hmem => h (hasKey_iff.mpr hmem)) x
  no_map := by
    intro hkind
    have hentries : v.entries = [] := entries_of_no_map hkind
    exact ⟨by rw [keys, hentries, List.map_nil], fun k x => by rw [set, hentries, Named.put]⟩
  distinct := nodup_keys_setAll

end TwoPhase.Value
