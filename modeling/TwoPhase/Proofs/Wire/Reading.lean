import TwoPhase.Json.Shape
import TwoPhase.Json.Writer
/-
What a reader makes of a text that was written, whatever stands behind it; here for strings and for
words.

A reader cannot know where a number ends without looking at the next octet, so what is said of a reader
is said for texts behind which nothing stands, or one of the octets that may follow a value
(`Delimited`). `Yields` is the statement that all proofs about readers share: from such a text a reader
gets what was written, unless the text is nested too deep.
-/

set_option autoImplicit false

namespace TwoPhase.Json

open Ascii

/-! ## Running readers -/

namespace Reader

variable {α β : Type} {r : Reader α} {input rest : List UInt8} {x : α}

theorem pure_run (x : α) (input : List UInt8) : (pure x : Reader α) input = .ok (x, input) := rfl

theorem get_run (input : List UInt8) : (get : Reader (List UInt8)) input = .ok (input, input) := rfl

theorem set_run (input rest : List UInt8) :
    (MonadStateOf.set rest : Reader PUnit) input = .ok (⟨⟩, rest) := rfl

/-- A reader that succeeds hands its value on, and the rest of the input. -/
theorem bind_ok (h : r input = .ok (x, rest)) (f : α → Reader β) : (r >>= f) input = f x rest := by
  change Except.bind (r input) _ = _
  rw [h]
  rfl

/-- A reader that stops keeps those behind it from running. -/
theorem bind_error {halt : Halt} (h : r input = .error halt) (f : α → Reader β) :
    (r >>= f) input = .error halt := by
  change Except.bind (r input) _ = _
  rw [h]
  rfl

theorem map_ok (h : r input = .ok (x, rest)) (f : α → β) : (f <$> r) input = .ok (f x, rest) := by
  change Except.bind (r input) _ = _
  rw [h]
  rfl

theorem map_error {halt : Halt} (h : r input = .error halt) (f : α → β) :
    (f <$> r) input = .error halt := by
  change Except.bind (r input) _ = _
  rw [h]
  rfl

/-- What is not blank is looked at where it stands. -/
theorem peek_run {b : UInt8} (hb : isBlank b = false) (atEnd : Fault) (rest : List UInt8) :
    peek atEnd (b :: rest) = .ok (b, b :: rest) := by
  simp [peek, List.dropWhile, hb]

theorem advance_run (b : UInt8) (rest : List UInt8) : advance (b :: rest) = .ok ((), rest) := rfl

theorem here_run (input : List UInt8) : here? input = .ok (input.head?, input) := rfl

/-- The rest of a word is read where it stands. -/
theorem restOfWord_run (w rest : List UInt8) : restOfWord w (w ++ rest) = .ok ((), rest) := by
  induction w with
  | nil => rfl
  | cons c w ih =>
    rw [restOfWord, List.cons_append, bind_ok (get_run _)]
    simp only [if_true]
    rw [bind_ok (set_run _ _)]
    exact ih

end Reader

/-! ## What may follow a value -/

/-- Nothing follows, or an octet that ends a value. -/
def Delimited (rest : List UInt8) : Prop :=
  ∀ b ∈ rest.head?, b = comma ∨ b = listClose ∨ b = objectClose

theorem delimited_nil : Delimited [] := fun _ h => by contradiction

/-- A value ends where a comma follows, a bracket that closes, or nothing. -/
theorem delimited_comma (rest : List UInt8) : Delimited (comma :: rest) := by
  intro b hb
  exact Or.inl (Option.some.inj hb).symm

theorem delimited_listClose (rest : List UInt8) : Delimited (listClose :: rest) := by
  intro b hb
  exact Or.inr (Or.inl (Option.some.inj hb).symm)

theorem delimited_objectClose (rest : List UInt8) : Delimited (objectClose :: rest) := by
  intro b hb
  exact Or.inr (Or.inr (Option.some.inj hb).symm)

/-! ## What a reader yields -/

/-- A text begins with an octet that neither is blank nor closes a list. -/
def Begins (text : List UInt8) : Prop :=
  ∃ b rest, text = b :: rest ∧ isBlank b = false ∧ b ≠ listClose

/-- The outcome of reading something that `fits`, or is nested too deep: it was found, with the rest of
the text behind it, or reading stopped for that reason. -/
structure Gives {α : Type} (outcome : Except Halt (α × List UInt8)) (fits : Prop) (x : α)
    (rest : List UInt8) : Prop where
  ok : fits → outcome = .ok (x, rest)
  tooDeep : ¬ fits → ∃ halt, outcome = .error halt ∧ halt.fault = .tooDeep

/-- From a text, whatever value may follow it, a reader gets what was written if that fits. -/
def Yields {α : Type} (r : Reader α) (text : List UInt8) (fits : Prop) (x : α) : Prop :=
  ∀ rest, Delimited rest → Gives (r (text ++ rest)) fits x rest

section
variable {α β : Type} {r : Reader α} {input mid rest text : List UInt8} {fits fits' : Prop} {x : α}
  {y : β}

/-- What is read in full was not nested too deep. -/
theorem gives_ok {outcome : Except Halt (α × List UInt8)} (h : outcome = .ok (x, rest)) :
    Gives outcome True x rest :=
  ⟨fun _ => h, fun hnot => absurd trivial hnot⟩

/-- Two readers in a row succeed if both do, and stop where the first of them stops. -/
theorem Gives.bind {f : α → Reader β} (h : Gives (r input) fits x mid)
    (hf : Gives (f x mid) fits' y rest) : Gives ((r >>= f) input) (fits ∧ fits') y rest := by
  constructor
  · rintro ⟨hfits, hfits'⟩
    rw [Reader.bind_ok (h.ok hfits), hf.ok hfits']
  · intro hnot
    by_cases hfits : fits
    · obtain ⟨halt, herror, hfault⟩ := hf.tooDeep fun hfits' => hnot ⟨hfits, hfits'⟩
      exact ⟨halt, by rw [Reader.bind_ok (h.ok hfits), herror], hfault⟩
    · obtain ⟨halt, herror, hfault⟩ := h.tooDeep hfits
      exact ⟨halt, Reader.bind_error herror f, hfault⟩

/-- What was read may be made into something else. -/
theorem Gives.map (h : Gives (r input) fits x rest) (f : α → β) :
    Gives ((f <$> r) input) fits (f x) rest := by
  constructor
  · intro hfits
    exact Reader.map_ok (h.ok hfits) f
  · intro hnot
    obtain ⟨halt, herror, hfault⟩ := h.tooDeep hnot
    exact ⟨halt, Reader.map_error herror f, hfault⟩

/-- Readings that fit under equivalent conditions are the same readings. -/
theorem Gives.congr {outcome : Except Halt (α × List UInt8)} (h : Gives outcome fits x rest)
    (hfits : fits ↔ fits') : Gives outcome fits' x rest :=
  ⟨fun hok => h.ok (hfits.mpr hok), fun hnot => h.tooDeep fun hok => hnot (hfits.mp hok)⟩

theorem Yields.map (h : Yields r text fits x) (f : α → β) : Yields (f <$> r) text fits (f x) :=
  fun rest hrest => (h rest hrest).map f

/-- What is made of a value that was read. -/
theorem Yields.bind_pure (h : Yields r text fits x) (f : α → β) :
    Yields (r >>= fun x => pure (f x)) text fits (f x) := by
  rw [bind_pure_comp]
  exact h.map f

theorem Yields.congr (h : Yields r text fits x) (hfits : fits ↔ fits') : Yields r text fits' x :=
  fun rest hrest => (h rest hrest).congr hfits

end

/-! ## Strings -/

namespace Reader

/-- The reversed octets of a control are that octet. -/
theorem reversedOctets_control (n : Nat) (h : n < 32) : reversedOctets n = [UInt8.ofNat n] := by
  revert n
  decide

/-- The four digits that a control is escaped to are its number. -/
theorem hexNumber_control (n : Nat) (h : n < 32) :
    hexNumber? [zero, zero, hexDigit (n / 16), hexDigit (n % 16)] = some n := by
  revert n
  decide

/-- The four digits of an escape are read together. -/
theorem quotedOctets_hex {a b c d : UInt8} {n : Nat} (hn : hexNumber? [a, b, c, d] = some n)
    (hlow : isLowSurrogate n = false) (hhigh : isHighSurrogate n = false) (seen rest : List UInt8) :
    quotedOctets .plain seen (backslash :: letterU :: a :: b :: c :: d :: rest) =
      quotedOctets .plain (reversedOctets n ++ seen) rest := by
  have hstart : quotedOctets .plain seen (backslash :: letterU :: a :: b :: c :: d :: rest) =
      quotedOctets (.hex none [a, b, c]) seen (d :: rest) := rfl
  rw [hstart]
  conv => lhs; unfold quotedOctets
  rw [if_neg (by simp)]
  simp [hn, hlow, hhigh]

/-- An octet is read back from what was written for it. -/
theorem quotedOctets_escape (b : UInt8) (seen rest : List UInt8) :
    quotedOctets .plain seen (escape b ++ rest) = quotedOctets .plain (b :: seen) rest := by
  unfold escape
  split
  · subst b; rfl
  split
  · subst b; rfl
  split
  · subst b; rfl
  split
  · subst b; rfl
  split
  · subst b; rfl
  split
  · subst b; rfl
  split
  · subst b; rfl
  split
  · rename_i hcontrol
    have hlt : b.toNat < 32 := hcontrol
    have hlow : isLowSurrogate b.toNat = false := by simp [isLowSurrogate]; omega
    have hhigh : isHighSurrogate b.toNat = false := by simp [isHighSurrogate]; omega
    have hoctets : reversedOctets b.toNat = [b] := by
      rw [reversedOctets_control _ hlt, UInt8.ofNat_toNat]
    have hhex := quotedOctets_hex (hexNumber_control _ hlt) hlow hhigh seen rest
    rw [hoctets] at hhex
    exact hhex
  · rename_i hquote hbackslash _ _ _ _ _ hcontrol
    rw [List.singleton_append, quotedOctets, if_neg hquote, if_neg hbackslash, if_neg hcontrol]

/-- The octets between two quotes are read back from their escapes, one by one. -/
theorem quotedOctets_run (w seen rest : List UInt8) :
    quotedOctets .plain seen (w.flatMap escape ++ quote :: rest) = .ok (seen.reverse ++ w, rest) := by
  induction w generalizing seen with
  | nil => simp [quotedOctets]
  | cons b w ih =>
    rw [List.flatMap_cons, List.append_assoc, quotedOctets_escape, ih, List.reverse_cons,
      List.append_assoc, List.singleton_append]

/-- Text is read back from behind its opening quote. -/
theorem quotedRest_run (s : String) (rest : List UInt8) :
    quotedRest ((Text.octets s).flatMap escape ++ quote :: rest) = .ok (s, rest) := by
  rw [quotedRest, quotedOctets_run, List.reverse_nil, List.nil_append]
  simp only [Text.text?_octets]

/-- Text stands between quotes, and what follows it stands behind them. -/
theorem quoted_append (s : String) (rest : List UInt8) :
    quoted s ++ rest = quote :: ((Text.octets s).flatMap escape ++ quote :: rest) := by
  rw [quoted, List.cons_append, List.append_assoc, List.singleton_append]

end Reader

theorem begins_quoted (s : String) : Begins (quoted s) :=
  ⟨quote, _, rfl, by decide, by decide⟩

/-- **Text is read back.** -/
theorem string_yields (s : String) : Yields Reader.string (quoted s) True s := by
  intro rest hrest
  refine gives_ok ?_
  rw [Reader.quoted_append, Reader.string, Reader.bind_ok (Reader.peek_run (by decide) _ _), if_pos rfl,
    Reader.bind_ok (Reader.advance_run _ _), Reader.quotedRest_run]

/-! ## Words -/

/-- **A truth value is read back.** -/
theorem boolean_yields (b : Bool) : Yields Reader.boolean (boolean b) True b := by
  intro rest hrest
  refine gives_ok ?_
  cases b with
  | true =>
    have htext : boolean true ++ rest = octet 't' :: (word "rue" ++ rest) := rfl
    rw [htext, Reader.boolean, Reader.bind_ok (Reader.peek_run (by decide) _ _), if_pos rfl,
      Reader.bind_ok (Reader.advance_run _ _), Reader.bind_ok (Reader.restOfWord_run _ _)]
    rfl
  | false =>
    have htext : boolean false ++ rest = octet 'f' :: (word "alse" ++ rest) := rfl
    rw [htext, Reader.boolean, Reader.bind_ok (Reader.peek_run (by decide) _ _), if_neg (by decide),
      if_pos rfl, Reader.bind_ok (Reader.advance_run _ _),
      Reader.bind_ok (Reader.restOfWord_run _ _)]
    rfl

end TwoPhase.Json
