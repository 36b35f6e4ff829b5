import TwoPhase.Proofs.Wire.Doubles
import TwoPhase.Proofs.Wire.Shapes
import TwoPhase.Value.Json
/-
Values are read back. How deep the text of a value nests is a function of the value (`depth`), and a
reader with room for `k` more levels gets a value of at most that depth and finds any other too deep.
The two counts go through the kinds of values in step: a scalar takes one level, a list two, and a map
two of its own and a third for each of its entries.
-/

set_option autoImplicit false

namespace TwoPhase.Value

open Json

/-- What holds of the values without parts, of a list if it holds of its items and of a map if it holds
of the values of its entries, holds of all values. -/
@[elab_as_elim]
theorem induction {motive : Value → Prop} (undefined : motive .undefined)
    (boolean : ∀ b, motive (.boolean b)) (int : ∀ i, motive (.int i)) (long : ∀ i, motive (.long i))
    (double : ∀ d, motive (.double d)) (string : ∀ s, motive (.string s))
    (bytes : ∀ b, motive (.bytes b)) (list : ∀ items, (∀ v ∈ items, motive v) → motive (.list items))
    (object : ∀ fields, (∀ f ∈ fields, motive f.2) → motive (.object fields)) (v : Value) :
    motive v :=
  @Value.rec motive (fun items => ∀ v ∈ items, motive v) (fun fields => ∀ f ∈ fields, motive f.2)
    (fun f => motive f.2) undefined boolean int long double string bytes list object
    (fun _ h => absurd h List.not_mem_nil) (fun _ _ hv hrest => List.forall_mem_cons.mpr ⟨hv, hrest⟩)
    (fun _ h => absurd h List.not_mem_nil) (fun _ _ hf hrest => List.forall_mem_cons.mpr ⟨hf, hrest⟩)
    (fun _ _ hv => hv) v

/-! ## Finite values -/

/-- A double stands somewhere in a tree. -/
inductive Holds (d : Double) : Value → Prop
  | here : Holds d (.double d)
  | item {items : List Value} {v : Value} (hmem : v ∈ items) (h : Holds d v) : Holds d (.list items)
  | entry {fields : List (String × Value)} {f : String × Value} (hmem : f ∈ fields)
      (h : Holds d f.2) : Holds d (.object fields)

theorem areFinite_iff (items : List Value) :
    areFinite items = true ↔ ∀ v ∈ items, v.isFinite = true := by
  induction items with
  | nil => simp [areFinite]
  | cons v items ih => rw [areFinite, Bool.and_eq_true, ih, List.forall_mem_cons]

theorem areFiniteEntries_iff (fields : List (String × Value)) :
    areFiniteEntries fields = true ↔ ∀ f ∈ fields, f.2.isFinite = true := by
  induction fields with
  | nil => simp [areFiniteEntries]
  | cons f fields ih => rw [areFiniteEntries, Bool.and_eq_true, ih, List.forall_mem_cons]

/-- **A tree is finite exactly if all doubles in it are.** -/
theorem isFinite_iff (v : Value) : v.isFinite = true ↔ ∀ d, v.Holds d → d.isFinite = true := by
  induction v using induction with
  | undefined => exact ⟨fun _ _ h => (by cases h), fun _ => rfl⟩
  | boolean b => exact ⟨fun _ _ h => (by cases h), fun _ => rfl⟩
  | int i => exact ⟨fun _ _ h => (by cases h), fun _ => rfl⟩
  | long i => exact ⟨fun _ _ h => (by cases h), fun _ => rfl⟩
  | string s => exact ⟨fun _ _ h => (by cases h), fun _ => rfl⟩
  | bytes b => exact ⟨fun _ _ h => (by cases h), fun _ => rfl⟩
  | double d =>
    constructor
    · intro hfinite d' hd'
      cases hd'
      exact hfinite
    · intro hall
      exact hall d .here
  | list items ih =>
    rw [isFinite, areFinite_iff]
    constructor
    · intro hall d hd
      cases hd with
      | item hmem h => exact (ih _ hmem).mp (hall _ hmem) d h
    · intro hall v hv
      exact (ih v hv).mpr fun d hd => hall d (.item hv hd)
  | object fields ih =>
    rw [isFinite, areFiniteEntries_iff]
    constructor
    · intro hall d hd
      cases hd with
      | entry hmem h => exact (ih _ hmem).mp (hall _ hmem) d h
    · intro hall f hf
      exact (ih f hf).mpr fun d hd => hall d (.entry hf hd)

/-! ## Depth -/

mutual

/-- How many levels of brackets the text of a value nests. -/
def depth : Value → Nat
  | .undefined => 0
  | .bytes _ => 2
  | .list items => itemDepth items + 2
  | .object fields => entryDepth fields + 2
  | _ => 1

/-- The greatest depth of an item. -/
def itemDepth : List Value → Nat
  | [] => 0
  | v :: rest => max v.depth (itemDepth rest)

/-- The greatest depth of an entry, which takes a level of its own. -/
def entryDepth : List (String × Value) → Nat
  | [] => 0
  | (_, v) :: rest => max (v.depth + 1) (entryDepth rest)

end

theorem itemDepth_eq (items : List Value) : itemDepth items = deepestOf (items.map depth) := by
  induction items with
  | nil => rfl
  | cons v items ih => rw [itemDepth, ih, List.map_cons, deepestOf, deepestOf, List.foldr_cons]

theorem entryDepth_eq (fields : List (String × Value)) :
    entryDepth fields = deepestOf (fields.map fun f => f.2.depth + 1) := by
  induction fields with
  | nil => rfl
  | cons f fields ih => rw [entryDepth, ih, List.map_cons, deepestOf, deepestOf, List.foldr_cons]

theorem itemDepth_le {items : List Value} {k : Nat} :
    itemDepth items ≤ k ↔ ∀ v ∈ items, v.depth ≤ k := by
  induction items with
  | nil => simp [itemDepth]
  | cons v items ih => rw [itemDepth, Nat.max_le, ih, List.forall_mem_cons]

theorem entryDepth_le {fields : List (String × Value)} {k : Nat} :
    entryDepth fields ≤ k ↔ ∀ f ∈ fields, f.2.depth + 1 ≤ k := by
  induction fields with
  | nil => simp [entryDepth]
  | cons f fields ih => rw [entryDepth, Nat.max_le, ih, List.forall_mem_cons]

/-! ## What is written -/

theorem itemsToJson_eq (items : List Value) : itemsToJson items = items.map toJson := by
  induction items with
  | nil => rfl
  | cons v items ih => rw [itemsToJson, ih, List.map_cons]

theorem entriesToJson_eq (fields : List (String × Value)) :
    entriesToJson fields = fields.map fun f => Json.list [Json.quoted f.1, f.2.toJson] := by
  induction fields with
  | nil => rfl
  | cons f fields ih => rw [entriesToJson, ih, List.map_cons]

theorem begins_toJson (v : Value) : Begins v.toJson := by
  cases v with
  | undefined => exact begins_quoted _
  | _ => exact begins_tagged _ _

/-- A list of octets nests one level. -/
theorem nests_octets (b : List UInt8) : Nests (Json.list (b.map fun o => Json.integer o.toNat)) 1 := by
  have hnone : deepestOf (b.map fun _ => 0) = 0 := by
    induction b with
    | nil => rfl
    | cons o b ih => rw [List.map_cons, deepestOf, List.foldr_cons, ← deepestOf, ih, Nat.max_self]
  have hall := nests_list fun o (_ : o ∈ b) => nests_integer o.toNat
  rw [hnone] at hall
  exact hall

/-- **The text of a value nests as deep as the value.** -/
theorem nests_toJson {v : Value} (hfinite : v.isFinite = true) : Nests v.toJson v.depth := by
  induction v using induction with
  | undefined => exact nests_quoted _
  | boolean b => exact nests_tagged _ (nests_boolean b)
  | int i => exact nests_tagged _ (nests_integer _)
  | long i => exact nests_tagged _ (nests_integer _)
  | double d => exact nests_tagged _ (nests_double hfinite)
  | string s => exact nests_tagged _ (nests_quoted s)
  | bytes b => exact nests_tagged _ (nests_octets b)
  | list items ih =>
    rw [isFinite, areFinite_iff] at hfinite
    rw [toJson, depth, itemsToJson_eq, itemDepth_eq]
    exact nests_tagged _ (nests_list fun v hv => ih v hv (hfinite v hv))
  | object fields ih =>
    rw [isFinite, areFiniteEntries_iff] at hfinite
    rw [toJson, depth, entriesToJson_eq, entryDepth_eq]
    refine nests_tagged _ (nests_list fun f hf => ?_)
    have hpair : ∀ part ∈ [(Json.quoted f.1, 0), (f.2.toJson, f.2.depth)], Nests part.1 part.2 := by
      simp [nests_quoted, ih f hf (hfinite f hf)]
    have hnests := nests_list hpair
    simpa [deepestOf] using hnests

/-! ## What is read -/

/-- What a reader with room for so many levels behind the tag makes of it and the content. -/
def content (depth : Nat) (tag : String) : Reader Value :=
  if tag = "List" then
    .list <$> match depth with
      | 0 => Reader.list none
      | inner + 1 => Reader.list (some (ofJson inner))
  else if tag = "Object" then
    .object <$> match depth with
      | 0 => Reader.list none
      | 1 => Reader.list (some (Reader.pair none))
      | inner + 2 => Reader.list (some (Reader.pair (some (Reader.string, ofJson inner))))
  else scalarContent tag (if depth = 0 then none else some octetReader)

theorem ofJson_succ (depth : Nat) :
    ofJson (depth + 1) = Reader.variant tags ofBareTag (some (content depth)) := by
  obtain _ | _ | inner := depth
  · rfl
  · rfl
  · rfl

/-- A value behind a tag takes one level more than its content. -/
theorem ofJson_tagged {tag : String} {text : List UInt8} {d : Nat} {v : Value}
    (hknown : tags.contains tag = true) (h : ∀ k, Yields (content k tag) text (d ≤ k) v) (k : Nat) :
    Yields (ofJson k) (tagged tag text) (d + 1 ≤ k) v := by
  cases k with
  | zero => exact (tagged_tooDeep tag text v).congr (by simp)
  | succ k =>
    rw [ofJson_succ]
    exact (tagged_yields hknown (h k)).congr (by omega)

/-- The content of a scalar takes no level. -/
theorem ofJson_scalar {α : Type} {text : List UInt8} {r : Reader α} {x : α} (tag : String)
    (f : α → Value) (hknown : tags.contains tag = true) (hcontent : ∀ k, content k tag = f <$> r)
    (h : Yields r text True x) (k : Nat) : Yields (ofJson k) (tagged tag text) (1 ≤ k) (f x) := by
  refine ofJson_tagged hknown (fun k => ?_) k
  rw [hcontent]
  exact (h.map f).congr (by simp)

theorem int_yields (i : Int32) (k : Nat) :
    Yields (ofJson k) (tagged "Int" (Json.integer i.toInt)) (1 ≤ k) (.int i) := by
  have hlow : -2147483648 ≤ i.toInt := i.le_toInt
  have hhigh : i.toInt < 2147483648 := i.toInt_lt
  have hinteger : Yields (Reader.integer Int32.minValue.toInt Int32.maxValue.toInt "i32")
      (Json.integer i.toInt) True i.toInt :=
    integer_yields "i32" hlow (Int.le_of_lt_add_one hhigh) (by omega) (by omega)
  have hyields := ofJson_scalar "Int" (.int ∘ Int32.ofInt) (by decide) (fun _ => rfl) hinteger k
  rw [Function.comp_apply, Int32.ofInt_toInt] at hyields
  exact hyields

theorem long_yields (i : Int64) (k : Nat) :
    Yields (ofJson k) (tagged "Long" (Json.integer i.toInt)) (1 ≤ k) (.long i) := by
  have hlow : -9223372036854775808 ≤ i.toInt := i.le_toInt
  have hhigh : i.toInt < 9223372036854775808 := i.toInt_lt
  have hinteger : Yields (Reader.integer Int64.minValue.toInt Int64.maxValue.toInt "i64")
      (Json.integer i.toInt) True i.toInt :=
    integer_yields "i64" hlow (Int.le_of_lt_add_one hhigh) hlow (by omega)
  have hyields := ofJson_scalar "Long" (.long ∘ Int64.ofInt) (by decide) (fun _ => rfl) hinteger k
  rw [Function.comp_apply, Int64.ofInt_toInt] at hyields
  exact hyields

/-- Octets are read back from a list of them, which takes one level. -/
theorem octets_yields (b : List UInt8) (k : Nat) :
    Yields (Reader.list (if k = 0 then none else some octetReader))
      (Json.list (b.map fun o => Json.integer o.toNat)) (1 ≤ k) (b.map fun o => (o.toNat : Int)) := by
  by_cases hk : k = 0
  · rw [if_pos hk]
    exact (list_tooDeep _ _).congr (by simp [hk])
  · rw [if_neg hk]
    have hyields : ∀ o ∈ b, Begins (Json.integer o.toNat) ∧
        Yields octetReader (Json.integer (o.toNat : Int)) True (o.toNat : Int) := by
      intro o _
      have hlt := o.toNat_lt
      have hoctet : Yields (Reader.integer 0 255 "u8") (Json.integer o.toNat) True (o.toNat : Int) :=
        integer_yields "u8" (by omega) (by omega) (by omega) (by omega)
      exact ⟨begins_integer _, hoctet⟩
    exact (list_yields hyields).congr (iff_of_true (fun _ _ => trivial) (Nat.pos_of_ne_zero hk))

theorem map_ofNat_toNat (b : List UInt8) :
    ((b.map fun o => (o.toNat : Int)).map fun i => UInt8.ofNat i.toNat) = b := by
  induction b with
  | nil => rfl
  | cons o b ih => rw [List.map_cons, List.map_cons, ih, Int.toNat_natCast, UInt8.ofNat_toNat]

/-- What is read for the items of a list takes one level and those of the items. -/
theorem items_yields {items : List Value}
    (h : ∀ v ∈ items, ∀ k, Yields (ofJson k) v.toJson (v.depth ≤ k) v) (k : Nat) :
    Yields (content k "List") (Json.list (items.map toJson)) (itemDepth items + 1 ≤ k)
      (.list items) := by
  obtain _ | inner := k
  · exact ((list_tooDeep _ items).map Value.list).congr (by simp)
  · have hitems : ∀ v ∈ items, Begins v.toJson ∧
        Yields (ofJson inner) v.toJson (v.depth ≤ inner) v :=
      fun v hv => ⟨v.begins_toJson, h v hv inner⟩
    have hyields := (list_yields hitems).map Value.list
    rw [List.map_id'] at hyields
    exact hyields.congr (by rw [Nat.succ_le_succ_iff, itemDepth_le])

/-- What is read for the entries of a map takes one level, another for each pair, and those of the
values. -/
theorem entries_yields {fields : List (String × Value)}
    (h : ∀ f ∈ fields, ∀ k, Yields (ofJson k) f.2.toJson (f.2.depth ≤ k) f.2) (k : Nat) :
    Yields (content k "Object")
      (Json.list (fields.map fun f => Json.list [Json.quoted f.1, f.2.toJson]))
      (entryDepth fields + 1 ≤ k) (.object fields) := by
  have hmany {pairs : Reader (String × Value)} {inner : Nat} (hpairs : ∀ f ∈ fields,
      Yields pairs (Json.list [Json.quoted f.1, f.2.toJson]) (f.2.depth + 1 ≤ inner) f) :
      Yields (Value.object <$> Reader.list (some pairs))
        (Json.list (fields.map fun f => Json.list [Json.quoted f.1, f.2.toJson]))
        (entryDepth fields + 1 ≤ inner + 1) (.object fields) := by
    have hyields := (list_yields fun f hf => ⟨begins_list _, hpairs f hf⟩).map Value.object
    rw [List.map_id'] at hyields
    exact hyields.congr (by rw [Nat.succ_le_succ_iff, entryDepth_le])
  obtain _ | _ | inner := k
  · exact ((list_tooDeep _ fields).map Value.object).congr (by simp)
  · exact hmany fun f _ => (pair_tooDeep _ f.1 f.2).congr (by simp)
  · exact hmany fun f hf => (pair_yields (begins_quoted _) (string_yields f.1) (begins_toJson _)
      (h f hf inner)).congr (by rw [true_and, Nat.succ_le_succ_iff])

/-- **A value is read back**, by a reader with room for its depth; any other finds it too deep. -/
theorem ofJson_yields {v : Value} (hfinite : v.isFinite = true) (k : Nat) :
    Yields (ofJson k) v.toJson (v.depth ≤ k) v := by
  induction v using induction generalizing k with
  | undefined =>
    have hknown : tags.contains "Undefined" = true := by decide
    cases k with
    | zero => exact (bare_yields hknown fun _ => rfl).congr (by simp [depth])
    | succ k =>
      rw [ofJson_succ]
      exact (bare_yields hknown fun _ => rfl).congr (by simp [depth])
  | boolean b => exact ofJson_scalar "Boolean" .boolean (by decide) (fun _ => rfl) (boolean_yields b) k
  | int i => exact int_yields i k
  | long i => exact long_yields i k
  | double d =>
    exact ofJson_scalar "Double" .double (by decide) (fun _ => rfl) (double_yields hfinite) k
  | string s => exact ofJson_scalar "String" .string (by decide) (fun _ => rfl) (string_yields s) k
  | bytes b =>
    refine ofJson_tagged (by decide) (fun k => ?_) k
    have hyields := (octets_yields b k).map fun b => Value.bytes (b.map fun i => UInt8.ofNat i.toNat)
    rw [map_ofNat_toNat] at hyields
    exact hyields
  | list items ih =>
    rw [isFinite, areFinite_iff] at hfinite
    rw [toJson, itemsToJson_eq]
    exact ofJson_tagged (by decide) (items_yields fun v hv => ih v hv (hfinite v hv)) k
  | object fields ih =>
    rw [isFinite, areFiniteEntries_iff] at hfinite
    rw [toJson, entriesToJson_eq]
    exact ofJson_tagged (by decide) (entries_yields fun f hf => ih f hf (hfinite f hf)) k

end TwoPhase.Value
