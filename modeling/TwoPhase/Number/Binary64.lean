/-
Doubles as what they are on paper: sixty-four bits, read as a sign and a whole number of units of
some power of two. Nothing here computes in floating point. Equality, finiteness, rounding of an
exact quotient and (in `Number.Shortest`) the choice of decimal digits are all questions about
natural numbers, so each has an answer that a proof can follow.

A decimal is taken for the double nearest to it, with ties to even (`Double.ofDecimal?`). This is an
assumption on how doubles are read from text: a reader that goes a faster way, in floating point, may
come out one unit in the last place off for some decimals of many digits. So what is said of doubles
that are written and read again is said under the assumption that reading rounds correctly.
-/

set_option autoImplicit false

namespace TwoPhase

/-- A binary floating point number of sixty-four bits, held as those bits. -/
structure Double where
  bits : UInt64
  deriving DecidableEq, Repr

namespace Double

/-! ## Reading the bits -/

/-- The bits of the magnitude alone. Two doubles with equal magnitude bits differ in sign only. -/
def magnitude (d : Double) : Nat := d.bits.toNat % Nat.pow 2 63

/-- Whether the sign bit is set; it is set for the negative zero too. -/
def isNegative (d : Double) : Bool := Nat.pow 2 63 ≤ d.bits.toNat

/-- The magnitude bits of infinity. Everything above them is not a number. -/
def infinityBits : Nat := 2047 * Nat.pow 2 52

/-- Neither infinite nor a NaN, so the double stands for a number. -/
def isFinite (d : Double) : Bool := d.magnitude < infinityBits

/-- The bits stand for no number and no infinity. -/
def isNaN (d : Double) : Bool := infinityBits < d.magnitude

/-- Equality as arithmetic has it: a NaN equals nothing, and the two zeros equal each other. -/
def same (a b : Double) : Bool :=
  !a.isNaN && !b.isNaN && (a.bits == b.bits || (a.magnitude == 0 && b.magnitude == 0))

/-- A finite magnitude is `significand · 2 ^ exponent`; the least exponent is shared by the zero,
the subnormal numbers and the first binade of normal ones. -/
def significand (d : Double) : Nat :=
  let fraction : Nat := d.magnitude % Nat.pow 2 52
  if d.magnitude / Nat.pow 2 52 = 0 then fraction else Nat.pow 2 52 + fraction

/-- The power of two that the significand counts. -/
def exponent (d : Double) : Int :=
  let biased : Nat := d.magnitude / Nat.pow 2 52
  if biased = 0 then -1074 else (biased : Int) - 1075

/-- The double of a given sign and magnitude bits. -/
def ofParts (negative : Bool) (magnitude : Nat) : Double :=
  ⟨UInt64.ofNat (magnitude + if negative then Nat.pow 2 63 else 0)⟩

/-! ## Rounding an exact quotient -/

/-- The whole number nearest to `num / den`; a half goes to the even neighbour. -/
def roundQuotient (num den : Nat) : Nat :=
  let floor := num / den
  let twice := 2 * (num % den)
  if den < twice then floor + 1
  else if twice < den then floor
  else floor + floor % 2

/-- `num / den` in units of `2 ^ (-shift)`, as a quotient of naturals again. -/
def scale (num den : Nat) (shift : Int) : Nat × Nat :=
  (num * Nat.pow 2 shift.toNat, den * Nat.pow 2 (-shift).toNat)

/-- How many binary places a quotient keeps when it is rounded to a double: as many as put the
rounded value between `2 ^ 52` and `2 ^ 53`, and never more than the least exponent allows. -/
def places (num den : Nat) : Int :=
  let guess : Int := 52 - (num.log2 : Int) + (den.log2 : Int)
  let (n, d) := scale num den guess
  min (if n < Nat.pow 2 52 * d then guess + 1 else guess) 1074

/-- The magnitude bits of the double nearest to `num / den`. Adding the rounded significand to the
shifted exponent carries into the next binade by itself when rounding reaches `2 ^ 53`. -/
def quotientBits (num den : Nat) : Nat :=
  if num = 0 then 0
  else
    let shift := places num den
    let (n, d) := scale num den shift
    (1074 - shift).toNat * Nat.pow 2 52 + roundQuotient n d

/-- The finite double nearest to `±num / den`, if rounding does not reach infinity. -/
def ofQuotient? (negative : Bool) (num den : Nat) : Option Double :=
  let magnitude := quotientBits num den
  if magnitude < infinityBits then some (ofParts negative magnitude) else none

/-- The double nearest to a whole number of at most sixty-four bits, which is always finite. -/
def ofNat (negative : Bool) (n : Nat) : Double := ofParts negative (quotientBits n 1)

/-- The finite double nearest to `±digits · 10 ^ exponent`. Exponents far outside the range of
doubles are answered without computing their power of ten: the result is then zero, or nothing. -/
def ofDecimal? (negative : Bool) (digits : Nat) (exponent : Int) : Option Double :=
  let top := exponent + ((Nat.toDigits 10 digits).length : Int)
  if digits = 0 ∨ top < -400 then some (ofParts negative 0)
  else if 400 < top then none
  else ofQuotient? negative (digits * Nat.pow 10 exponent.toNat) (Nat.pow 10 (-exponent).toNat)

end Double

end TwoPhase
