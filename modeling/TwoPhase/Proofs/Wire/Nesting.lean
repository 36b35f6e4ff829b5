import TwoPhase.Json.Writer
/-
How deep a text nests, by looking at its octets only: brackets of either kind count, except inside
quotes. A written text is balanced, so what it adds to the depth of its surroundings is one number
(`Nests`), and that number is the greatest of those of its parts, plus one for each pair of brackets
around them.
-/

set_option autoImplicit false

namespace TwoPhase.Json

open Ascii

/-- Where a count of brackets stands. -/
inductive Scan where
  | outside
  | quoted
  /-- Behind a backslash between quotes. -/
  | escaped

/-- The greatest number of brackets that are open at once, from a place at which `depth` of them
are. -/
def deepest : Scan → Nat → List UInt8 → Nat
  | _, depth, [] => depth
  | .outside, depth, b :: rest =>
    if b = quote then deepest .quoted depth rest
    else if b = listOpen ∨ b = objectOpen then deepest .outside (depth + 1) rest
    else if b = listClose ∨ b = objectClose then max depth (deepest .outside (depth - 1) rest)
    else deepest .outside depth rest
  | .quoted, depth, b :: rest =>
    if b = quote then deepest .outside depth rest
    else if b = backslash then deepest .escaped depth rest
    else deepest .quoted depth rest
  | .escaped, depth, _ :: rest => deepest .quoted depth rest

/-- How many levels of brackets a text nests. -/
def nesting (text : List UInt8) : Nat := deepest .outside 0 text

/-- What is open counts. -/
theorem le_deepest (scan : Scan) (depth : Nat) (text : List UInt8) :
    depth ≤ deepest scan depth text := by
  induction text generalizing scan depth with
  | nil => cases scan <;> exact Nat.le_refl _
  | cons b rest ih =>
    cases scan with
    | outside =>
      unfold deepest
      split
      · exact ih _ _
      · split
        · exact Nat.le_trans (Nat.le_succ _) (ih _ _)
        · split
          · exact Nat.le_max_left _ _
          · exact ih _ _
    | quoted =>
      unfold deepest
      split
      · exact ih _ _
      · split
        · exact ih _ _
        · exact ih _ _
    | escaped => exact ih _ _

/-- A text is balanced and nests `d` levels, wherever it stands. -/
def Nests (text : List UInt8) (d : Nat) : Prop :=
  ∀ depth rest, deepest .outside depth (text ++ rest) = max (depth + d) (deepest .outside depth rest)

namespace Nests

variable {a b : List UInt8} {d e : Nat}

theorem nesting_eq (h : Nests a d) : nesting a = d := by
  have hall := h 0 []
  rw [List.append_nil, Nat.zero_add] at hall
  rw [nesting, hall]
  exact Nat.max_eq_left (Nat.zero_le d)

theorem nil : Nests [] 0 := by
  intro depth rest
  rw [List.nil_append, Nat.add_zero, Nat.max_eq_right (le_deepest _ _ _)]

theorem append (ha : Nests a d) (hb : Nests b e) : Nests (a ++ b) (max d e) := by
  intro depth rest
  rw [List.append_assoc, ha, hb]
  omega

/-- An octet that is neither a quote nor a bracket adds nothing. -/
theorem plain {c : UInt8} (hquote : c ≠ quote) (hopen : ¬ (c = listOpen ∨ c = objectOpen))
    (hclose : ¬ (c = listClose ∨ c = objectClose)) : Nests [c] 0 := by
  intro depth rest
  rw [List.singleton_append, deepest, if_neg hquote, if_neg hopen, if_neg hclose, Nat.add_zero,
    Nat.max_eq_right (le_deepest _ _ _)]

/-- Brackets around a text add a level. -/
theorem bracket {l r : UInt8} (hl : l = listOpen ∨ l = objectOpen)
    (hr : r = listClose ∨ r = objectClose) (h : Nests a d) : Nests (l :: (a ++ [r])) (d + 1) := by
  intro depth rest
  have hlquote : l ≠ quote := by obtain rfl | rfl := hl <;> decide
  have hrquote : r ≠ quote := by obtain rfl | rfl := hr <;> decide
  have hropen : ¬ (r = listOpen ∨ r = objectOpen) := by obtain rfl | rfl := hr <;> decide
  rw [List.cons_append, List.append_assoc, deepest, if_neg hlquote, if_pos hl, h,
    List.singleton_append, deepest, if_neg hrquote, if_neg hropen, if_pos hr,
    Nat.add_sub_cancel]
  omega

end Nests

/-! ## What is written -/

/-- Between quotes, what is written for an octet is passed over. -/
theorem deepest_escape (c : UInt8) (depth : Nat) (rest : List UInt8) :
    deepest .quoted depth (escape c ++ rest) = deepest .quoted depth rest := by
  have hpass {b : UInt8} (hquote : b ≠ quote) (hbackslash : b ≠ backslash) (more : List UInt8) :
      deepest .quoted depth (b :: more) = deepest .quoted depth more := by
    rw [deepest, if_neg hquote, if_neg hbackslash]
  unfold escape
  split
  · rfl
  split
  · rfl
  split
  · rfl
  split
  · rfl
  split
  · rfl
  split
  · rfl
  split
  · rfl
  split
  · rename_i hcontrol
    have hlt : c.toNat < 32 := hcontrol
    have hdigit : ∀ n < 16, hexDigit n ≠ quote ∧ hexDigit n ≠ backslash := by decide
    have hhigh := hdigit (c.toNat / 16) (by omega)
    have hlow := hdigit (c.toNat % 16) (by omega)
    have hstart : deepest .quoted depth ([backslash, letterU, zero, zero, hexDigit (c.toNat / 16),
        hexDigit (c.toNat % 16)] ++ rest) = deepest .quoted depth
          (hexDigit (c.toNat / 16) :: hexDigit (c.toNat % 16) :: rest) := rfl
    rw [hstart, hpass hhigh.1 hhigh.2, hpass hlow.1 hlow.2]
  · rename_i hquote hbackslash _ _ _ _ _ _
    exact hpass hquote hbackslash rest

theorem nests_quoted (s : String) : Nests (quoted s) 0 := by
  intro depth rest
  have hpass (w : List UInt8) :
      deepest .quoted depth (w.flatMap escape ++ quote :: rest) = deepest .outside depth rest := by
    induction w with
    | nil => rfl
    | cons c w ih => rw [List.flatMap_cons, List.append_assoc, deepest_escape, ih]
  have htext : quoted s ++ rest = quote :: ((Text.octets s).flatMap escape ++ quote :: rest) := by
    rw [quoted, List.cons_append, List.append_assoc, List.singleton_append]
  rw [htext, deepest, if_pos rfl, hpass, Nat.add_zero, Nat.max_eq_right (le_deepest _ _ _)]

/-- Octets that are neither quotes nor brackets. -/
def IsPlain (b : UInt8) : Prop :=
  b ≠ quote ∧ ¬ (b = listOpen ∨ b = objectOpen) ∧ ¬ (b = listClose ∨ b = objectClose)

instance (b : UInt8) : Decidable (IsPlain b) := inferInstanceAs (Decidable (_ ∧ _))

theorem nests_plain {text : List UInt8} (h : ∀ b ∈ text, IsPlain b) : Nests text 0 := by
  induction text with
  | nil => exact .nil
  | cons b rest ih =>
    obtain ⟨hquote, hopen, hclose⟩ := h b List.mem_cons_self
    exact (Nests.plain hquote hopen hclose).append (ih fun c hc => h c (List.mem_cons_of_mem b hc))

/-- A text that can be checked to have neither quotes nor brackets nests no level. -/
theorem nests_of_all {text : List UInt8} (h : text.all (fun b => decide (IsPlain b)) = true) :
    Nests text 0 :=
  nests_plain fun b hb => of_decide_eq_true (List.all_eq_true.mp h b hb)

theorem nests_boolean (b : Bool) : Nests (boolean b) 0 := by
  refine nests_of_all ?_
  cases b <;> decide

section
variable {ι : Type} {text : ι → List UInt8} {depth : ι → Nat}

/-- The greatest depth of some. -/
def deepestOf (depths : List Nat) : Nat := depths.foldr max 0

theorem nests_separated {l : List ι} (h : ∀ i ∈ l, Nests (text i) (depth i)) :
    Nests (separated (l.map text)) (deepestOf (l.map depth)) := by
  induction l with
  | nil => exact .nil
  | cons i l ih =>
    have hi := h i List.mem_cons_self
    have hl := ih fun j hj => h j (List.mem_cons_of_mem i hj)
    cases l with
    | nil =>
      intro n rest
      rw [List.map_singleton, List.map_singleton, separated, hi]
      simp [deepestOf]
    | cons j l =>
      have hcomma : Nests [comma] 0 := .plain (by decide) (by decide) (by decide)
      have hall := hi.append (hcomma.append hl)
      rw [Nat.zero_max] at hall
      exact hall

/-- A list nests one level more than its deepest item. -/
theorem nests_list {l : List ι} (h : ∀ i ∈ l, Nests (text i) (depth i)) :
    Nests (list (l.map text)) (deepestOf (l.map depth) + 1) :=
  (nests_separated h).bracket (Or.inl rfl) (Or.inl rfl)

theorem nests_member {value : List UInt8} {d : Nat} (key : String) (h : Nests value d) :
    Nests (member key value) d := by
  have hcolon : Nests [colon] 0 := .plain (by decide) (by decide) (by decide)
  have hall := (nests_quoted key).append (hcolon.append h)
  rw [Nat.zero_max, Nat.zero_max] at hall
  exact hall

/-- An object nests one level more than its deepest member. -/
theorem nests_object {l : List ι} (h : ∀ i ∈ l, Nests (text i) (depth i)) :
    Nests (object (l.map text)) (deepestOf (l.map depth) + 1) :=
  (nests_separated h).bracket (Or.inr rfl) (Or.inr rfl)

theorem nests_tagged {content : List UInt8} {d : Nat} (tag : String) (h : Nests content d) :
    Nests (tagged tag content) (d + 1) :=
  (nests_member tag h).bracket (Or.inr rfl) (Or.inr rfl)

end

end TwoPhase.Json
