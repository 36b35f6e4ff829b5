import TwoPhase.Number.Binary64
/-
The fewest decimal digits that still identify a double.

A finite double other than zero stands for an interval of reals: all those that round to it. The
digits chosen for it are those of a decimal in that interval with as few digits as possible and, of
the two candidates with that many digits, the one nearer to the double. The search below is that
sentence as a loop over the number of digits, in exact arithmetic on naturals. Only the exact tie is
left open by the rule, so it is a parameter.
-/

set_option autoImplicit false

namespace TwoPhase.Number

/-- Where an exact tie between two neighbouring decimals goes. -/
inductive Tie where
  | toEven
  | awayFromZero
  deriving DecidableEq, Repr

/-- The decimal `digits · 10 ^ exponent`. -/
structure Decimal where
  digits : Nat
  exponent : Int
  deriving DecidableEq, Repr

/-- Compares `a · 10 ^ i` with `n · 2 ^ j` by clearing the negative exponents. -/
def compareScaled (a : Nat) (i : Int) (n : Nat) (j : Int) : Ordering :=
  compare (a * Nat.pow 10 i.toNat * Nat.pow 2 (-j).toNat)
    (n * Nat.pow 2 j.toNat * Nat.pow 10 (-i).toNat)

/-- Below a power of two the neighbouring doubles are half as far away as above it. -/
def narrowBelow (d : Double) : Bool :=
  d.magnitude % Nat.pow 2 52 == 0 && Nat.pow 2 52 < d.magnitude

/-- Whether a decimal rounds to the magnitude of `d`: it lies between the midpoints to the two
neighbouring doubles, ends included exactly when the significand is even. -/
def identifies (d : Double) (x : Decimal) : Bool :=
  let m := d.significand
  let lower := if narrowBelow d then 4 * m - 1 else 4 * m - 2
  let upper := 4 * m + 2
  let closed := m % 2 == 0
  let below := compareScaled x.digits x.exponent lower (d.exponent - 2)
  let above := compareScaled x.digits x.exponent upper (d.exponent - 2)
  (below == .gt || (closed && below == .eq)) && (above == .lt || (closed && above == .eq))

/-- The least `k` with `m · 2 ^ q < 10 ^ k`, for positive `m`: an estimate from the binary logarithm,
put right by comparing with the neighbouring powers of ten. -/
def decimalScale (m : Nat) (q : Int) : Int :=
  let estimate := Int.fdiv (((m.log2 : Int) + q) * 30103) 100000 + 1
  if compareScaled 1 (estimate - 1) m q == .gt then estimate - 1
  else if compareScaled 1 estimate m q == .gt then estimate
  else estimate + 1

/-- Which of `lower` and `lower + 1`, in units of `10 ^ e`, is nearer to `m · 2 ^ q`. -/
def nearer (tie : Tie) (m : Nat) (q : Int) (lower : Nat) (e : Int) : Nat :=
  match compareScaled (2 * lower + 1) e (2 * m) q with
  | .gt => lower
  | .lt => lower + 1
  | .eq =>
    match tie with
    | .toEven => lower + lower % 2
    | .awayFromZero => lower + 1

/-- The decimal of exactly the grid `10 ^ e` that identifies `d`, if a point of the grid does. -/
def onGrid? (tie : Tie) (d : Double) (e : Int) : Option Decimal :=
  let m := d.significand
  let q := d.exponent
  let lower := m * Nat.pow 2 q.toNat * Nat.pow 10 (-e).toNat /
    (Nat.pow 2 (-q).toNat * Nat.pow 10 e.toNat)
  match identifies d ⟨lower, e⟩, identifies d ⟨lower + 1, e⟩ with
  | true, true => some ⟨nearer tie m q lower e, e⟩
  | true, false => some ⟨lower, e⟩
  | false, true => some ⟨lower + 1, e⟩
  | false, false => none

/-- Moves the trailing zeros of the digits into the exponent. -/
def Decimal.strip (x : Decimal) : Nat → Decimal
  | 0 => x
  | fuel + 1 =>
    if x.digits ≠ 0 ∧ x.digits % 10 = 0 then strip ⟨x.digits / 10, x.exponent + 1⟩ fuel else x

/-- The exact decimal value of `m · 2 ^ q`. -/
def exactDecimal (m : Nat) (q : Int) : Decimal :=
  ⟨m * Nat.pow 2 q.toNat * Nat.pow 5 (-q).toNat, -((-q).toNat : Int)⟩

/-- The shortest decimal that identifies the magnitude of a finite double; the zero has the digit
zero. Seventeen digits always identify a double, and should they not, its exact value still does. -/
def shortest (tie : Tie) (d : Double) : Decimal :=
  if d.significand = 0 then ⟨0, 0⟩
  else
    let scale := decimalScale d.significand d.exponent
    let found := (List.range 17).findSome? fun n => onGrid? tie d (scale - (n + 1 : Nat))
    (found.getD (exactDecimal d.significand d.exponent)).strip 400

end TwoPhase.Number
