import TwoPhase.Proofs.Wire.Nesting
import TwoPhase.Proofs.Wire.Reading
/-
Numbers in a text: what a reader makes of runs of digits, of a fraction and of an exponent. Whole numbers
are read back here; a double takes more, because the digits that are written for it are not its value,
and what is found here for it (`number_run`) is the decimal that its text spells.
-/

set_option autoImplicit false

namespace TwoPhase.Json

open Ascii

/-! ## Digits -/

/-- A run of decimal digits. -/
def IsRun (cs : List Char) : Prop := ∀ c ∈ cs, c.isDigit = true

theorem isRun_digits (n : Nat) : IsRun (Number.digits n) :=
  fun _ hc => Nat.isDigit_of_mem_toDigits (by decide) (by decide) hc

theorem toNat_of_isDigit {c : Char} (h : c.isDigit = true) : 48 ≤ c.toNat ∧ c.toNat ≤ 57 := by
  simp only [Char.isDigit, Bool.and_eq_true, decide_eq_true_eq] at h
  exact h

theorem toNat_octet {c : Char} (h : c.isDigit = true) : (octet c).toNat = c.toNat := by
  have hc := toNat_of_isDigit h
  rw [UInt8.toNat_ofNat_of_lt']
  change c.toNat < 256
  omega

theorem isDigit_octet {c : Char} (h : c.isDigit = true) : isDigit (octet c) = true := by
  have hc := toNat_of_isDigit h
  have hoctet := toNat_octet h
  simp only [isDigit, Bool.and_eq_true, decide_eq_true_eq, UInt8.le_iff_toNat_le, hoctet]
  exact hc

/-- No digit is skipped as a blank. -/
theorem isBlank_of_isDigit {b : UInt8} (h : isDigit b = true) : isBlank b = false := by
  rw [Bool.eq_false_iff]
  intro hblank
  simp only [isBlank, Bool.or_eq_true, beq_iff_eq] at hblank
  obtain ((rfl | rfl) | rfl) | rfl := hblank <;> exact absurd h (by decide)

theorem octet_eq_zero {c : Char} (h : c.isDigit = true) : octet c = zero ↔ c = '0' := by
  constructor
  · intro hzero
    have hnat := congrArg UInt8.toNat hzero
    rw [toNat_octet h] at hnat
    exact Char.toNat_inj.mp hnat
  · rintro rfl
    rfl

/-- The first digit of a number that is not zero is not zero. -/
theorem head_digits {n : Nat} (h : n ≠ 0) : ∀ c ∈ (Number.digits n).head?, c ≠ '0' := by
  unfold Number.digits
  induction n using Nat.strongRecOn with
  | _ n ih =>
    by_cases hlt : n < 10
    · rw [Nat.toDigits_of_lt_base hlt]
      rintro c hc rfl
      exact h (Nat.digitChar_eq_zero.mp (Option.some.inj hc))
    · have hfront := ih (n / 10) (by omega) (by omega)
      obtain ⟨c, cs, hcs⟩ := List.exists_cons_of_ne_nil (Nat.toDigits_ne_nil (n := n / 10) (b := 10))
      rw [hcs] at hfront
      rw [Nat.toDigits_of_base_le (by decide) (by omega), hcs]
      exact hfront

/-- The value of a run of digits is the number that they are the digits of. -/
theorem decimalValue_run {cs : List Char} (h : IsRun cs) :
    Reader.decimalValue (cs.map octet) = Nat.ofDigitChars 10 cs 0 := by
  have hfrom (init : Nat) : (cs.map octet).foldl (fun n d => n * 10 + (d.toNat - 48)) init =
      Nat.ofDigitChars 10 cs init := by
    induction cs generalizing init with
    | nil => rfl
    | cons c cs ih =>
      rw [List.map_cons, List.foldl_cons, Nat.ofDigitChars_cons,
        ih (fun x hx => h x (List.mem_cons_of_mem c hx)), toNat_octet (h c List.mem_cons_self),
        Nat.mul_comm]
      rfl
  exact hfrom 0

/-! ## Runs of digits in a text -/

/-- What follows is no digit. -/
def NoDigit (rest : List UInt8) : Prop := ∀ b ∈ rest.head?, isDigit b = false

theorem noDigit_cons {b : UInt8} (h : isDigit b = false) (rest : List UInt8) : NoDigit (b :: rest) := by
  intro c hc
  rw [← Option.some.inj hc]
  exact h

/-- Where a value may end, no further digit follows. -/
theorem Delimited.noDigit {rest : List UInt8} (h : Delimited rest) : NoDigit rest := by
  intro b hb
  obtain rfl | rfl | rfl := h b hb <;> decide

theorem Delimited.head_ne_point {rest : List UInt8} (h : Delimited rest) : rest.head? ≠ some point := by
  intro hb
  obtain hb | hb | hb := h point hb <;> exact absurd hb (by decide)

theorem Delimited.noMark {rest : List UInt8} (h : Delimited rest) :
    rest.head?.any isExponentMark = false := by
  rw [Option.any_eq_false]
  intro b hb
  obtain rfl | rfl | rfl := h b hb <;> decide

namespace Reader

/-- A run of digits is read up to where it ends. -/
theorem digitRun_run {cs : List Char} (h : IsRun cs) {rest : List UInt8} (hrest : NoDigit rest) :
    digitRun (cs.map octet ++ rest) = .ok (cs.map octet, rest) := by
  have hdigits : ∀ b ∈ cs.map octet, isDigit b = true := by
    intro b hb
    obtain ⟨c, hc, rfl⟩ := List.mem_map.mp hb
    exact isDigit_octet (h c hc)
  have htake : rest.takeWhile isDigit = [] := by
    cases rest with
    | nil => rfl
    | cons b rest => rw [List.takeWhile_cons_of_neg (by rw [hrest b rfl]; decide)]
  have hdrop : rest.dropWhile isDigit = rest := by
    cases rest with
    | nil => rfl
    | cons b rest => rw [List.dropWhile_cons_of_neg (by rw [hrest b rfl]; decide)]
  rw [digitRun, List.takeWhile_append_of_pos hdigits, List.dropWhile_append_of_pos hdigits, htake,
    hdrop, List.append_nil]

/-- The digits before a point: a single zero, or a run that does not begin with one. -/
def IsWhole (cs : List Char) : Prop := IsRun cs ∧ (cs = ['0'] ∨ ∃ c rest, cs = c :: rest ∧ c ≠ '0')

theorem isWhole_digits (n : Nat) : IsWhole (Number.digits n) := by
  refine ⟨isRun_digits n, ?_⟩
  by_cases hn : n = 0
  · subst hn
    exact Or.inl (Nat.toDigits_zero 10)
  · obtain ⟨c, rest, hcs⟩ := List.exists_cons_of_ne_nil (Nat.toDigits_ne_nil (n := n) (b := 10))
    exact Or.inr ⟨c, rest, hcs, head_digits hn c (by rw [Number.digits, hcs]; rfl)⟩

/-- The digits before the point are read, as no zero leads them. -/
theorem wholePart_run {cs : List Char} (h : IsWhole cs) {rest : List UInt8} (hrest : NoDigit rest) :
    wholePart (cs.map octet ++ rest) = .ok (cs.map octet, rest) := by
  obtain ⟨hrun, rfl | ⟨c, cs, rfl, hc⟩⟩ := h
  · rw [List.map_singleton, List.singleton_append, wholePart, bind_ok (here_run _)]
    simp only [List.head?_cons]
    rw [if_pos (show octet '0' = zero from rfl), bind_ok (advance_run _ _), bind_ok (here_run _)]
    cases rest with
    | nil => rfl
    | cons b rest =>
      simp only [List.head?_cons, hrest b rfl]
      rfl
  · have hdigit : c.isDigit = true := hrun c List.mem_cons_self
    have hzero : octet c ≠ zero := fun heq => hc ((octet_eq_zero hdigit).mp heq)
    rw [List.map_cons, List.cons_append, wholePart, bind_ok (here_run _)]
    simp only [List.head?_cons]
    rw [if_neg hzero, if_pos (isDigit_octet hdigit)]
    exact digitRun_run hrun hrest

/-- The digits behind the point are read, as there is at least one. -/
theorem fractionPart_run {cs : List Char} (h : IsRun cs) (hne : cs ≠ []) {rest : List UInt8}
    (hrest : NoDigit rest) :
    fractionPart (point :: (cs.map octet ++ rest)) = .ok (cs.map octet, rest) := by
  rw [fractionPart, bind_ok (advance_run _ _), bind_ok (digitRun_run h hrest)]
  obtain ⟨c, cs, rfl⟩ := List.exists_cons_of_ne_nil hne
  rfl

/-- The text of an exponent, with its sign. -/
def exponentText (i : Int) : List Char := 'e' :: ((if 0 ≤ i then ['+'] else []) ++ Number.signed i)

/-- An exponent is read from behind its sign. -/
theorem exponentPart_signed {sign : UInt8} (hsign : sign = plus ∨ sign = minus) (n : Nat)
    {rest : List UInt8} (hrest : NoDigit rest) :
    exponentPart (octet 'e' :: sign :: ((Number.digits n).map octet ++ rest)) =
      .ok (if sign = minus then -(n : Int) else n, rest) := by
  obtain ⟨c, cs, hcs⟩ := List.exists_cons_of_ne_nil (Nat.toDigits_ne_nil (n := n) (b := 10))
  have hrun := isRun_digits n
  have hvalue : decimalValue ((Number.digits n).map octet) = n := by
    rw [decimalValue_run hrun, Number.digits, Nat.ofDigitChars_ten_toDigits]
  have hread := digitRun_run hrun hrest
  have hhead : ((Number.digits n).map octet ++ rest).head? = some (octet c) := by
    rw [Number.digits, hcs]
    rfl
  have hdigit : isDigit (octet c) = true :=
    isDigit_octet (hrun c (by rw [Number.digits, hcs]; exact List.mem_cons_self))
  rw [exponentPart, bind_ok (advance_run _ _), bind_ok (here_run _), List.head?_cons,
    if_pos (by simpa using hsign), bind_ok (advance_run _ _)]
  dsimp only
  rw [bind_ok (here_run _), hhead]
  simp only [hdigit, if_true, Option.some.injEq]
  rw [bind_ok hread, hvalue]
  rfl

/-- An exponent is read with its sign. -/
theorem exponentPart_run (i : Int) {rest : List UInt8} (hrest : NoDigit rest) :
    exponentPart ((exponentText i).map octet ++ rest) = .ok (i, rest) := by
  by_cases hi : 0 ≤ i
  · have htext : exponentText i = 'e' :: '+' :: Number.digits i.natAbs := by
      rw [exponentText, if_pos hi, Number.signed, if_neg (by omega)]
      rfl
    have hread := exponentPart_signed (Or.inl rfl) i.natAbs hrest
    rw [if_neg (by decide), Int.natAbs_of_nonneg hi] at hread
    rw [htext]
    exact hread
  · have htext : exponentText i = 'e' :: '-' :: Number.digits i.natAbs := by
      rw [exponentText, if_neg hi, Number.signed, if_pos (by omega)]
      rfl
    have hread := exponentPart_signed (Or.inr rfl) i.natAbs hrest
    rw [if_pos rfl, Int.ofNat_natAbs_of_nonpos (by omega), Int.neg_neg] at hread
    rw [htext]
    exact hread

/-! ## Numbers -/

/-- The digits behind the point, with the point. -/
def placesText : Option (List Char) → List Char
  | some cs => '.' :: cs
  | none => []

/-- The exponent, if there is one. -/
def exponentTail : Option Int → List Char
  | some i => exponentText i
  | none => []

section
variable {β : Type} {rest : List UInt8} {exponent : Option Int} {places : Option (List Char)}

/-- What follows the digits of a fraction is an exponent or the end of the value. -/
theorem noDigit_exponent (hrest : Delimited rest) (exponent : Option Int) :
    NoDigit ((exponentTail exponent).map octet ++ rest) := by
  cases exponent with
  | none => exact hrest.noDigit
  | some i => exact noDigit_cons (by decide) _

theorem head_exponent_ne_point (hrest : Delimited rest) (exponent : Option Int) :
    ((exponentTail exponent).map octet ++ rest).head? ≠ some point := by
  cases exponent with
  | none => exact hrest.head_ne_point
  | some i =>
    intro hhead
    exact absurd (Option.some.inj hhead) (by decide)

/-- The exponent is read if there is one. -/
theorem exponent_run (hrest : Delimited rest) (exponent : Option Int) (k : Option Int → Reader β) :
    (here? >>= fun mark =>
      if mark.any isExponentMark = true then some <$> exponentPart >>= k else pure none >>= k)
      ((exponentTail exponent).map octet ++ rest) = k exponent rest := by
  rw [bind_ok (here_run _)]
  cases exponent with
  | none =>
    rw [exponentTail, List.map_nil, List.nil_append, hrest.noMark, if_neg (by decide),
      bind_ok (pure_run _ _)]
  | some i =>
    have hhead : ((exponentTail (some i)).map octet ++ rest).head? = some (octet 'e') := rfl
    have hread : exponentPart ((exponentTail (some i)).map octet ++ rest) = .ok (i, rest) :=
      exponentPart_run i hrest.noDigit
    rw [hhead, if_pos (by decide), bind_ok (map_ok hread _)]

/-- The digits behind the point are read if there is a point. -/
theorem places_run (hplaces : ∀ cs ∈ places, IsRun cs ∧ cs ≠ []) (hdigit : NoDigit rest)
    (hpoint : rest.head? ≠ some point) (k : Option (List UInt8) → Reader β) :
    (here? >>= fun b =>
      if b = some point then some <$> fractionPart >>= k else pure none >>= k)
      ((placesText places).map octet ++ rest) = k (places.map (·.map octet)) rest := by
  rw [bind_ok (here_run _)]
  cases places with
  | none =>
    rw [placesText, List.map_nil, List.nil_append, if_neg hpoint, bind_ok (pure_run _ _)]
    rfl
  | some cs =>
    obtain ⟨hrun, hne⟩ := hplaces cs rfl
    have hhead : ((placesText (some cs)).map octet ++ rest).head? = some point := rfl
    have hread : fractionPart ((placesText (some cs)).map octet ++ rest) =
        .ok (cs.map octet, rest) := fractionPart_run hrun hne hdigit
    rw [hhead, if_pos rfl, bind_ok (map_ok hread _)]
    rfl

end

/-- The text of a number behind its sign: its digits before the point, those behind it, if there is
a point, and its exponent, if it has one. -/
def numberText (whole : List Char) (places : Option (List Char)) (exponent : Option Int) : List Char :=
  whole ++ (placesText places ++ exponentTail exponent)

/-- What a number amounts to. -/
def numberRead (negative : Bool) (whole : List Char) (places : Option (List Char))
    (exponent : Option Int) : Reader Numeral :=
  match places, exponent with
  | none, none =>
    match wholeNumeral negative (Nat.ofDigitChars 10 whole 0) with
    | some n => pure n
    | none => decimalNumeral negative (Nat.ofDigitChars 10 whole 0) 0
  | _, _ => decimalNumeral negative (Nat.ofDigitChars 10 (whole ++ places.getD []) 0)
      (exponent.getD 0 - ((places.getD []).length : Int))

/-- **A number is read as it is written.** -/
theorem number_run (negative : Bool) {whole : List Char} (places : Option (List Char))
    (exponent : Option Int) (hwhole : IsWhole whole)
    (hplaces : ∀ cs ∈ places, IsRun cs ∧ cs ≠ []) {rest : List UInt8} (hrest : Delimited rest) :
    number negative ((numberText whole places exponent).map octet ++ rest) =
      numberRead negative whole places exponent rest := by
  have hdigit : NoDigit ((placesText places).map octet ++
      ((exponentTail exponent).map octet ++ rest)) := by
    cases places with
    | none => exact noDigit_exponent hrest exponent
    | some cs => exact noDigit_cons (by decide) _
  unfold numberText
  rw [List.map_append, List.map_append, List.append_assoc, List.append_assoc, number,
    bind_ok (wholePart_run hwhole hdigit)]
  refine (places_run hplaces (noDigit_exponent hrest exponent)
    (head_exponent_ne_point hrest exponent) _).trans ?_
  refine (exponent_run hrest exponent _).trans ?_
  -- what is left is the value of the digits that were read
  have hvalue (cs : List Char) (hcs : IsRun cs) :
      decimalValue (whole.map octet ++ cs.map octet) = Nat.ofDigitChars 10 (whole ++ cs) 0 := by
    rw [← List.map_append]
    exact decimalValue_run (List.forall_mem_append.mpr ⟨hwhole.1, hcs⟩)
  unfold numberRead
  cases places with
  | none =>
    cases exponent with
    | none =>
      have hread := decimalValue_run hwhole.1
      generalize Nat.ofDigitChars 10 whole 0 = n at hread ⊢
      subst hread
      rfl
    | some i =>
      have hempty := hvalue [] (fun c hc => by contradiction)
      simp only [List.map_nil] at hempty
      simp only [Option.map_none, Option.getD_none, hempty]
      rfl
  | some cs =>
    simp only [Option.map_some, Option.getD_some, hvalue cs (hplaces cs rfl).1, List.length_map]

/-- The text of a number with its sign. -/
def signedText (negative : Bool) (whole : List Char) (places : Option (List Char))
    (exponent : Option Int) : List Char :=
  (if negative then ['-'] else []) ++ numberText whole places exponent

/-- The first octet of a number is its sign or a digit. -/
theorem head_signedText (negative : Bool) {whole : List Char} (places : Option (List Char))
    (exponent : Option Int) (hwhole : IsWhole whole) :
    ∃ b rest, (signedText negative whole places exponent).map octet = b :: rest ∧
      (negative = true → b = minus) ∧ (negative = false → isDigit b = true) := by
  cases negative with
  | true => exact ⟨minus, _, rfl, fun _ => rfl, fun h => by contradiction⟩
  | false =>
    obtain ⟨c, cs, rfl⟩ : ∃ c cs, whole = c :: cs := by
      obtain ⟨-, rfl | ⟨c, cs, rfl, -⟩⟩ := hwhole
      · exact ⟨_, _, rfl⟩
      · exact ⟨c, cs, rfl⟩
    exact ⟨octet c, _, rfl, fun h => by contradiction,
      fun _ => isDigit_octet (hwhole.1 c List.mem_cons_self)⟩

/-- A numeral is read with its sign. -/
theorem numeral_run (wanted : String) (negative : Bool) {whole : List Char}
    (places : Option (List Char)) (exponent : Option Int) (hwhole : IsWhole whole)
    (hplaces : ∀ cs ∈ places, IsRun cs ∧ cs ≠ []) {rest : List UInt8} (hrest : Delimited rest) :
    numeral wanted ((signedText negative whole places exponent).map octet ++ rest) =
      numberRead negative whole places exponent rest := by
  rw [← number_run negative places exponent hwhole hplaces hrest]
  obtain ⟨b, tail, htail, hminus, hdigit⟩ := head_signedText negative places exponent hwhole
  cases negative with
  | true =>
    have htext : (signedText true whole places exponent).map octet ++ rest =
        minus :: ((numberText whole places exponent).map octet ++ rest) := rfl
    rw [htext, numeral, bind_ok (peek_run (by decide) _ _), if_pos rfl, bind_ok (advance_run _ _)]
  | false =>
    have htext : (signedText false whole places exponent).map octet =
        (numberText whole places exponent).map octet := rfl
    have hb : isDigit b = true := hdigit rfl
    have hne : b ≠ minus := by
      rintro rfl
      exact absurd hb (by decide)
    rw [← htext, htail, List.cons_append, numeral,
      bind_ok (peek_run (isBlank_of_isDigit hb) _ _), if_neg hne, if_pos hb]

/-- A number begins with a sign or a digit, so nothing of it is skipped. -/
theorem begins_signedText (negative : Bool) {whole : List Char} (places : Option (List Char))
    (exponent : Option Int) (hwhole : IsWhole whole) :
    Begins ((signedText negative whole places exponent).map octet) := by
  obtain ⟨b, tail, htail, hminus, hdigit⟩ := head_signedText negative places exponent hwhole
  refine ⟨b, tail, htail, ?_, ?_⟩
  · cases negative with
    | true =>
      rw [hminus rfl]
      decide
    | false => exact isBlank_of_isDigit (hdigit rfl)
  · rintro rfl
    cases negative with
    | true => exact absurd (hminus rfl) (by decide)
    | false => exact absurd (hdigit rfl) (by decide)

end Reader

/-! ## Nesting -/

theorem isPlain_octet {c : Char} (h : c.isDigit = true) : IsPlain (octet c) := by
  have hdigit := isDigit_octet h
  refine ⟨?_, ?_, ?_⟩
  · intro heq
    rw [heq] at hdigit
    exact absurd hdigit (by decide)
  · rintro (heq | heq)
    · rw [heq] at hdigit
      exact absurd hdigit (by decide)
    · rw [heq] at hdigit
      exact absurd hdigit (by decide)
  · rintro (heq | heq)
    · rw [heq] at hdigit
      exact absurd hdigit (by decide)
    · rw [heq] at hdigit
      exact absurd hdigit (by decide)

/-- Digits open no brackets. -/
theorem nests_run {cs : List Char} (h : IsRun cs) : Nests (cs.map octet) 0 := by
  refine nests_plain fun b hb => ?_
  obtain ⟨c, hc, rfl⟩ := List.mem_map.mp hb
  exact isPlain_octet (h c hc)

/-- A number has no brackets. -/
theorem nests_signedText (negative : Bool) {whole : List Char} (places : Option (List Char))
    (exponent : Option Int) (hwhole : IsRun whole) (hplaces : ∀ cs ∈ places, IsRun cs) :
    Nests ((Reader.signedText negative whole places exponent).map octet) 0 := by
  have hsign : Nests ((if negative then ['-'] else []).map octet) 0 :=
    nests_of_all (by cases negative <;> decide)
  have hfraction : Nests ((Reader.placesText places).map octet) 0 := by
    cases places with
    | none => exact .nil
    | some cs =>
      exact (Nests.plain (c := point) (by decide) (by decide) (by decide)).append
        (nests_run (hplaces cs rfl))
  have hexponent : Nests ((Reader.exponentTail exponent).map octet) 0 := by
    cases exponent with
    | none => exact .nil
    | some i =>
      have hplus : Nests ((if 0 ≤ i then ['+'] else []).map octet) 0 :=
        nests_of_all (by split <;> decide)
      have hsigned : Nests ((Number.signed i).map octet) 0 := by
        unfold Number.signed
        split
        · exact (Nests.plain (c := minus) (by decide) (by decide) (by decide)).append
            (nests_run (isRun_digits _))
        · exact nests_run (isRun_digits _)
      have hall := (Nests.plain (c := octet 'e') (by decide) (by decide) (by decide)).append
        (hplus.append hsigned)
      rw [← List.map_append] at hall
      exact hall
  have hall := hsign.append ((nests_run hwhole).append (hfraction.append hexponent))
  rw [← List.map_append, ← List.map_append, ← List.map_append] at hall
  exact hall

/-! ## Whole numbers -/

/-- A whole number is written as a number without a point or an exponent. -/
theorem signed_eq (i : Int) :
    Number.signed i = Reader.signedText (decide (i < 0)) (Number.digits i.natAbs) none none := by
  unfold Number.signed Reader.signedText Reader.numberText
  by_cases hneg : i < 0
  · simp [hneg, Reader.placesText, Reader.exponentTail]
  · simp [hneg, Reader.placesText, Reader.exponentTail]

theorem begins_integer (i : Int) : Begins (integer i) := by
  rw [integer, signed_eq]
  exact Reader.begins_signedText _ _ _ (Reader.isWhole_digits i.natAbs)

/-- A whole number that sixty-four bits hold is read as itself. -/
theorem numeral_signed {i : Int} (wanted : String) (hmin : -9223372036854775808 ≤ i)
    (hmax : i < 18446744073709551616) {rest : List UInt8} (hrest : Delimited rest) :
    Reader.numeral wanted (integer i ++ rest) =
      .ok (if i < 0 then .negative i.natAbs else .natural i.natAbs, rest) := by
  have hvalue : Nat.ofDigitChars 10 (Number.digits i.natAbs) 0 = i.natAbs :=
    Nat.ofDigitChars_ten_toDigits
  have hread := Reader.numeral_run wanted (decide (i < 0)) none none
    (Reader.isWhole_digits i.natAbs) (fun cs hcs => by contradiction) hrest
  rw [integer, signed_eq, hread]
  simp only [Reader.numberRead, hvalue]
  by_cases hneg : i < 0
  · have hwhole : Reader.wholeNumeral (decide (i < 0)) i.natAbs = some (.negative i.natAbs) := by
      rw [decide_eq_true hneg, Reader.wholeNumeral, if_pos rfl, if_pos]
      exact ⟨by omega, by simp only [Nat.pow_eq]; omega⟩
    rw [hwhole, if_pos hneg]
    rfl
  · have hwhole : Reader.wholeNumeral (decide (i < 0)) i.natAbs = some (.natural i.natAbs) := by
      rw [decide_eq_false hneg, Reader.wholeNumeral, if_neg (by decide), if_pos]
      change i.natAbs < 2 ^ 64
      omega
    rw [hwhole, if_neg hneg]
    rfl

/-- **A whole number is read back**, if it is within bounds and sixty-four bits hold it. -/
theorem integer_yields {low high i : Int} (wanted : String) (hlow : low ≤ i) (hhigh : i ≤ high)
    (hmin : -9223372036854775808 ≤ i) (hmax : i < 18446744073709551616) :
    Yields (Reader.integer low high wanted) (integer i) True i := by
  intro rest hrest
  refine gives_ok ?_
  rw [Reader.integer, Reader.bind_ok (numeral_signed wanted hmin hmax hrest)]
  by_cases hneg : i < 0
  · rw [if_pos hneg]
    simp only
    rw [Int.ofNat_natAbs_of_nonpos (by omega), Int.neg_neg, if_pos ⟨hlow, hhigh⟩]
    rfl
  · rw [if_neg hneg]
    simp only
    rw [Int.natAbs_of_nonneg (by omega), if_pos ⟨hlow, hhigh⟩]
    rfl

/-- Nor does a whole number with its sign. -/
theorem nests_integer (i : Int) : Nests (integer i) 0 := by
  rw [integer, signed_eq]
  exact nests_signedText _ _ _ (isRun_digits _) (fun cs hcs => by contradiction)

end TwoPhase.Json
