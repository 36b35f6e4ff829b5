import TwoPhase.Proofs.Wire.Rounding
import TwoPhase.Proofs.Wire.Shapes
/-
What readers can make of any text at all, however it is spelled. A reader of numbers makes no double
but a finite one, and a reader of something with parts makes nothing of which a part could not have been
made by the reader of that part. Nothing is said of the texts: blanks, escapes, unknown fields and the
list form of a record are all met by the same reader.
-/

set_option autoImplicit false

namespace TwoPhase

/-! ## Finite doubles -/

namespace Double

/-- A sign and magnitude bits below those of infinity make a finite double. -/
theorem isFinite_ofParts (negative : Bool) {magnitude : ℕ} (h : magnitude < infinityBits) :
    (ofParts negative magnitude).isFinite = true := by
  have hbits : (ofParts negative magnitude).magnitude = magnitude := by
    unfold infinityBits at h
    simp only [ofParts, Double.magnitude, UInt64.toNat_ofNat', Nat.pow_eq] at h ⊢
    split <;> omega
  rw [isFinite, hbits, decide_eq_true h]

/-- Rounding to a whole number adds one at most. -/
theorem roundQuotient_le (num den : ℕ) : roundQuotient num den ≤ num / den + 1 := by
  unfold roundQuotient
  simp only
  split
  · exact le_rfl
  · split
    · exact Nat.le_succ _
    · omega

/-- A whole number of sixty-four bits loses at most twelve of them, so it is far from infinity. -/
theorem quotientBits_lt {n : ℕ} (h : n < 2 ^ 64) : quotientBits n 1 < infinityBits := by
  by_cases hzero : n = 0
  · subst hzero
    decide
  -- at most eleven bits are dropped, so the exponent stays far below that of infinity
  have hlog : n.log2 ≤ 63 := Nat.le_of_lt_succ ((Nat.log2_lt hzero).mpr h)
  have hplaces : -11 ≤ places n 1 := by
    have hone : Nat.log2 1 = 0 := by decide
    unfold places
    simp only [hone]
    split <;> omega
  -- and what is left to be rounded has fifty-three bits
  have hplaced := placed_places (Nat.pos_of_ne_zero hzero) Nat.one_pos
  have hscale := scale_value n Nat.one_pos (places n 1)
  have hpos := scale_pos n Nat.one_pos (places n 1)
  have hquotient : (scale n 1 (places n 1)).1 / (scale n 1 (places n 1)).2 < 2 ^ 53 := by
    rw [Nat.div_lt_iff_lt_mul hpos, ← Nat.cast_lt (α := ℚ)]
    have hlt := hplaced.lt
    rw [← hscale, div_lt_iff₀ (by exact_mod_cast hpos)] at hlt
    exact_mod_cast hlt
  have hround := roundQuotient_le (scale n 1 (places n 1)).1 (scale n 1 (places n 1)).2
  unfold quotientBits infinityBits
  rw [if_neg hzero]
  simp only [Nat.pow_eq]
  have hshift : (1074 - places n 1).toNat ≤ 1085 := by omega
  calc (1074 - places n 1).toNat * 2 ^ 52 + _
      ≤ 1085 * 2 ^ 52 + 2 ^ 53 := by gcongr; omega
    _ < 2047 * 2 ^ 52 := by norm_num

/-- The double nearest to a whole number of sixty-four bits is finite. -/
theorem isFinite_ofNat (negative : Bool) {n : ℕ} (h : n < 2 ^ 64) :
    (ofNat negative n).isFinite = true :=
  isFinite_ofParts negative (quotientBits_lt h)

/-- A decimal that stands for a double stands for a finite one. -/
theorem isFinite_ofDecimal {negative : Bool} {digits : ℕ} {exponent : ℤ} {d : Double}
    (h : ofDecimal? negative digits exponent = some d) : d.isFinite = true := by
  unfold ofDecimal? at h
  simp only at h
  split at h
  · obtain rfl := Option.some.inj h
    exact isFinite_ofParts negative (by decide)
  · split at h
    · contradiction
    · simp only [ofQuotient?] at h
      split at h
      · obtain rfl := Option.some.inj h
        exact isFinite_ofParts negative ‹_›
      · contradiction

end Double

namespace Json.Reader

/-! ## What a reader produces -/

section
variable {α β : Type} {r : Reader α} {P : α → Prop} {Q : β → Prop}

/-- Whatever a reader makes of any text has a property. -/
def Produces (r : Reader α) (P : α → Prop) : Prop :=
  ∀ input x rest, r input = .ok (x, rest) → P x

/-- Two readers in a row succeed only if both do. -/
theorem bind_eq_ok {f : α → Reader β} {input rest : List UInt8} {y : β}
    (h : (r >>= f) input = .ok (y, rest)) :
    ∃ x mid, r input = .ok (x, mid) ∧ f x mid = .ok (y, rest) := by
  cases hr : r input with
  | error halt =>
    rw [bind_error hr] at h
    contradiction
  | ok found =>
    obtain ⟨x, mid⟩ := found
    rw [bind_ok hr] at h
    exact ⟨x, mid, rfl, h⟩

theorem Produces.mono {P' : α → Prop} (h : Produces r P) (himp : ∀ x, P x → P' x) : Produces r P' :=
  fun input x rest hx => himp x (h input x rest hx)

theorem Produces.pure {x : α} (h : P x) : Produces (pure x) P := by
  intro input y rest hy
  rw [pure_run, Except.ok.injEq, Prod.mk.injEq] at hy
  exact hy.1 ▸ h

theorem Produces.bind {f : α → Reader β} (h : Produces r P) (hf : ∀ x, P x → Produces (f x) Q) :
    Produces (r >>= f) Q := by
  intro input y rest hy
  obtain ⟨x, mid, hx, hrest⟩ := bind_eq_ok hy
  exact hf x (h input x mid hx) mid y rest hrest

/-- What was read before does not matter. -/
theorem Produces.after {f : α → Reader β} (hf : ∀ x, Produces (f x) Q) : Produces (r >>= f) Q :=
  Produces.bind (P := fun _ => True) (fun _ _ _ _ => trivial) fun x _ => hf x

theorem Produces.map {f : α → β} (h : Produces r P) (hf : ∀ x, P x → Q (f x)) :
    Produces (f <$> r) Q := by
  rw [← bind_pure_comp]
  exact h.bind fun x hx => .pure (hf x hx)

theorem Produces.ite {c : Prop} [Decidable c] {r' : Reader α} (h : c → Produces r P)
    (h' : ¬ c → Produces r' P) : Produces (if c then r else r') P := by
  split
  · exact h ‹_›
  · exact h' ‹_›

/-- Two ways of reading something, behind which reading goes on in one way. -/
theorem Produces.join {γ : Type} {c : Prop} [Decidable c] {a b : Reader γ} {k : γ → Reader α}
    (h : ∀ x, Produces (k x) P) : Produces (if c then a >>= k else b >>= k) P :=
  .ite (fun _ => .after h) fun _ => .after h

/-- Reading that goes on under a condition, and reports something otherwise. -/
theorem Produces.unless {c : Prop} [Decidable c] {report : Reader Unit} {k : Unit → Reader α}
    (h : Produces (k ()) P) : Produces (if c then k () else report >>= k) P :=
  .ite (fun _ => h) fun _ => .after fun _ => h

theorem produces_fail (fault : Fault) : Produces (fail fault : Reader α) P := by
  intro input x rest hx
  contradiction

theorem produces_reject (fault : Fault) : Produces (reject fault : Reader α) P := by
  intro input x rest hx
  contradiction

/-- A reader that only reports what is wrong produces nothing. -/
theorem produces_mismatch (wanted : String) : Produces (mismatch wanted : Reader α) P := by
  unfold mismatch
  -- one case for each kind of value that may begin here; all of them end in a report
  refine .after fun next => ?_
  cases next with
  | none => exact produces_reject _
  | some b =>
    refine .ite (fun _ => .after fun _ => .after fun _ => produces_fail _) fun _ => ?_
    refine .ite (fun _ => .after fun _ => .after fun _ => produces_fail _) fun _ => ?_
    refine .ite (fun _ => .after fun _ => .after fun _ => produces_fail _) fun _ => ?_
    refine .ite (fun _ => .after fun _ => .after fun _ => produces_fail _) fun _ => ?_
    refine .ite (fun _ => .after fun _ => produces_fail _) fun _ => ?_
    refine .ite (fun _ => .after fun _ => .after fun _ => produces_fail _) fun _ => ?_
    refine .ite (fun _ => produces_fail _) fun _ => ?_
    exact .ite (fun _ => produces_fail _) fun _ => produces_reject _

end

/-! ## Numbers -/

/-- A number as a text can give it: a whole number of sixty-four bits, or a finite double. -/
def Numeral.Fits : Numeral → Prop
  | .natural n => n < 2 ^ 64
  | .negative n => n < 2 ^ 64
  | .float d => d.isFinite = true

theorem decimalNumeral_produces (negative : Bool) (digits : ℕ) (exponent : ℤ) :
    Produces (decimalNumeral negative digits exponent) Numeral.Fits := by
  unfold decimalNumeral
  split
  · exact .pure (Double.isFinite_ofDecimal ‹_›)
  · exact produces_fail _

theorem wholeNumeral_fits {negative : Bool} {n : ℕ} {x : Numeral}
    (h : wholeNumeral negative n = some x) : x.Fits := by
  unfold wholeNumeral at h
  split at h
  · split at h
    · rename_i hbound
      obtain rfl := Option.some.inj h
      have hle : n ≤ 2 ^ 63 := hbound.2
      exact Nat.lt_of_le_of_lt hle (by decide)
    · contradiction
  · split at h
    · obtain rfl := Option.some.inj h
      assumption
    · contradiction

theorem number_produces (negative : Bool) : Produces (number negative) Numeral.Fits := by
  unfold number
  refine .after fun whole => .after fun _ => .join fun fraction => .after fun _ => .join fun exponent => ?_
  obtain _ | places := fraction
  · obtain _ | power := exponent
    · dsimp only
      split
      · exact .pure (wholeNumeral_fits ‹_›)
      · exact decimalNumeral_produces _ _ _
    · exact decimalNumeral_produces _ _ _
  · exact decimalNumeral_produces _ _ _

theorem numeral_produces (wanted : String) : Produces (numeral wanted) Numeral.Fits := by
  unfold numeral
  refine .after fun b => .ite (fun _ => .after fun _ => number_produces true) fun _ => ?_
  exact .ite (fun _ => number_produces false) fun _ => produces_mismatch wanted

/-- **No text is read as a double that is not finite.** -/
theorem double_produces : Produces double fun d => d.isFinite = true := by
  refine (numeral_produces "f64").bind fun x hx => ?_
  cases x with
  | natural n => exact .pure (Double.isFinite_ofNat false hx)
  | negative n => exact .pure (Double.isFinite_ofNat true hx)
  | float d => exact .pure hx

/-! ## Lists and pairs -/

section
variable {α β : Type} {P : α → Prop} {Q : β → Prop}

/-- Brackets are met by a reader that may open them, or nothing is produced. -/
theorem bracketed_produces {wanted : String} {inside : Option (Reader α)}
    (h : ∀ r ∈ inside, Produces r P) : Produces (bracketed wanted inside) P := by
  unfold bracketed
  refine .after fun b => .ite (fun _ => ?_) fun _ => produces_mismatch wanted
  cases inside with
  | none => exact produces_reject _
  | some r => exact .after fun _ => (h r rfl).bind fun x hx => .after fun _ => .pure hx

/-- Brackets that may not be opened have no content. -/
theorem list_none_produces {R : List α → Prop} : Produces (list none : Reader (List α)) R :=
  bracketed_produces fun _ h => absurd h (Option.not_mem_none _)

theorem elements_produces {item : Reader α} (h : Produces item P) (n : ℕ) (first : Bool)
    {seen : List α} (hseen : ∀ x ∈ seen, P x) :
    Produces (elements item n first seen) fun xs => ∀ x ∈ xs, P x := by
  -- the rounds left; whatever was seen has the property already
  induction n generalizing first seen with
  | zero => exact produces_fail _
  | succ n ih =>
    rw [elements]
    refine .after fun more => .ite (fun _ => ?_) fun _ => .pure fun x hx => ?_
    · exact h.bind fun x hx => ih false (List.forall_mem_cons.mpr ⟨hx, hseen⟩)
    · exact hseen x (List.mem_reverse.mp hx)

/-- Of a list, every element is produced by the reader of elements. -/
theorem list_produces {item : Option (Reader α)} (h : ∀ r ∈ item, Produces r P) :
    Produces (list item) fun xs => ∀ x ∈ xs, P x := by
  refine bracketed_produces fun r hr => ?_
  obtain ⟨element, helement, rfl⟩ := Option.map_eq_some_iff.mp hr
  exact .after fun input =>
    elements_produces (h element helement) _ true fun x hx => absurd hx List.not_mem_nil

/-- Of a pair, both parts are produced by their readers; here the second. -/
theorem pair_produces {items : Option (Reader α × Reader β)} (h : ∀ r ∈ items, Produces r.2 Q) :
    Produces (pair items) fun x => Q x.2 := by
  refine bracketed_produces fun r hr => ?_
  obtain ⟨⟨first, second⟩, hitems, rfl⟩ := Option.map_eq_some_iff.mp hr
  refine .after fun _ => .unless <| .after fun a => .after fun _ => .unless ?_
  exact (h _ hitems).bind fun b hb => .pure hb

end

/-! ## Records and variants -/

section
variable {σ α : Type} {P : σ → Prop} {Q : α → Prop}

theorem positions_produces {lenient : Bool} {wanted : String} {slots : List (Slot σ)}
    (h : ∀ slot ∈ slots, ∀ acc, P acc → Produces (slot.read acc) P) (n : ℕ) {acc : σ} (hacc : P acc) :
    Produces (positions lenient wanted slots n acc) P := by
  -- a list may be shorter than the record, if the record is lenient
  induction slots generalizing n acc with
  | nil => exact .pure hacc
  | cons slot slots ih =>
    rw [List.forall_mem_cons] at h
    rw [positions]
    refine .after fun _ => .ite (fun _ => (h.1 acc hacc).bind fun acc' hacc' => ?_) fun _ => ?_
    · exact ih h.2 (n + 1) hacc'
    · exact .ite (fun _ => .pure hacc) fun _ => produces_reject _

theorem fields_produces {slots : List (Slot σ)}
    (h : ∀ slot ∈ slots, ∀ acc, P acc → Produces (slot.read acc) P) (n : ℕ) (first : Bool) {acc : σ}
    (hacc : P acc) : Produces (fields slots n first acc) P := by
  induction n generalizing first acc with
  | zero => exact produces_fail _
  | succ n ih =>
    rw [fields]
    refine .after fun _ => .ite (fun _ => .after fun _ => .after fun key => ?_) fun _ => .pure hacc
    split
    · rename_i slot hslot
      refine .ite (fun _ => .after fun _ => produces_fail _) fun _ => .after fun _ => ?_
      exact (h slot (List.mem_of_find?_eq_some hslot) acc hacc).bind fun acc' hacc' => ih false hacc'
    · -- an unknown field is skipped
      exact .after fun _ => .after fun _ => ih false hacc

theorem outcome_produces {x : Except Fault α} (h : ∀ y, x = .ok y → Q y) : Produces (outcome x) Q := by
  cases x with
  | ok y => exact .pure (h y rfl)
  | error fault => exact produces_fail fault

/-- What is kept of a record by every one of its fields holds when they have all been read, whether they
were written with keys or as a list. -/
theorem record_produces {wanted : String} {inside : Option (Shape σ α)}
    (hblank : ∀ shape ∈ inside, P shape.blank)
    (hslots : ∀ shape ∈ inside, ∀ slot ∈ shape.slots, ∀ acc, P acc → Produces (slot.read acc) P)
    (hfinish : ∀ shape ∈ inside, ∀ acc x, P acc → shape.finish acc = .ok x → Q x) :
    Produces (record wanted inside) Q := by
  unfold record
  refine .after fun b => .ite (fun _ => ?_) fun _ => .ite (fun _ => ?_) fun _ => produces_mismatch wanted
  · cases inside with
    | none => exact produces_reject _
    | some shape =>
      refine .after fun _ => (positions_produces (hslots shape rfl) 0 (hblank shape rfl)).bind ?_
      exact fun acc hacc => .after fun _ => outcome_produces fun x hx => hfinish shape rfl acc x hacc hx
  · cases inside with
    | none => exact produces_reject _
    | some shape =>
      refine .after fun _ => .after fun _ =>
        (fields_produces (hslots shape rfl) _ true (hblank shape rfl)).bind ?_
      exact fun acc hacc => .after fun _ => outcome_produces fun x hx => hfinish shape rfl acc x hacc hx

/-- An alternative is a bare tag, or what was made of a content. -/
theorem variant_produces {known : List String} {bare : String → Reader α}
    {inside : Option (String → Reader α)} (hbare : ∀ tag, Produces (bare tag) Q)
    (hinside : ∀ content ∈ inside, ∀ tag, Produces (content tag) Q) :
    Produces (variant known bare inside) Q := by
  unfold variant
  refine .after fun _ => .ite (fun _ => ?_) fun _ => .ite (fun _ => ?_) fun _ => produces_reject _
  · exact .after fun _ => .after fun _ => .after fun tag => hbare tag
  · cases inside with
    | none => exact produces_reject _
    | some content =>
      refine .after fun _ => .after fun _ => .unless <| .after fun _ => .after fun _ =>
        .after fun tag => .after fun _ => (hinside content rfl tag).bind fun x hx => ?_
      exact .after fun _ => .unless <| .after fun _ => .pure hx

end

end Json.Reader

end TwoPhase
