import TwoPhase.Number.Shortest
/-
How a decimal is laid out as text: where the point goes, when an exponent is written instead, and
what the values that are no numbers are called. The two texts of this library, the wire form of a
value and its description for a reader, differ in a few of these decisions only, so each is one record.
-/

set_option autoImplicit false

namespace TwoPhase.Number

/-- The decisions of one layout of doubles. -/
structure Layout where
  /-- Where the digits go when two decimals are equally near. -/
  tie : Tie
  /-- The least exponent of a first digit that is still written positionally. -/
  plainFrom : Int
  /-- Whether a positive exponent shows its sign. -/
  exponentPlus : Bool
  /-- What a NaN is called. -/
  nan : String
  /-- What an infinity is called, without its sign. -/
  infinity : String

/-- The decimal digits of a natural number, most significant first. -/
def digits (n : Nat) : List Char := Nat.toDigits 10 n

/-- A run of `n` zeros. -/
def zeros (n : Nat) : List Char := List.replicate n '0'

/-- An integer in decimal: a minus sign where it is due, and the digits. -/
def signed (i : Int) : List Char :=
  if i < 0 then '-' :: digits i.natAbs else digits i.natAbs

/-- The digits of a decimal positionally, always with a point and a digit on both sides of it. -/
def positional (x : Decimal) : List Char :=
  let ds := digits x.digits
  let point := (ds.length : Int) + x.exponent
  if 0 ≤ x.exponent then ds ++ zeros x.exponent.toNat ++ ['.', '0']
  else if 0 < point then ds.take point.toNat ++ '.' :: ds.drop point.toNat
  else ['0', '.'] ++ zeros (-point).toNat ++ ds

/-- One digit, the others behind a point if there are any, and the exponent of the first digit. -/
def scientific (plus : Bool) (x : Decimal) : List Char :=
  let ds := digits x.digits
  let lead := (ds.length : Int) + x.exponent - 1
  let fraction := if ds.length ≤ 1 then [] else '.' :: ds.drop 1
  ds.take 1 ++ fraction ++ 'e' :: ((if plus ∧ 0 ≤ lead then ['+'] else []) ++ signed lead)

/-- A magnitude is written positionally from the layout's least exponent up to, and without,
`10 ^ 16`; the zero always is. -/
def Layout.isPositional (n : Layout) (x : Decimal) : Bool :=
  let lead := ((digits x.digits).length : Int) + x.exponent - 1
  x.digits == 0 || (n.plainFrom ≤ lead && lead < 16)

/-- A decimal in the given layout. -/
def Layout.decimal (n : Layout) (x : Decimal) : List Char :=
  if n.isPositional x then positional x else scientific n.exponentPlus x

/-- A double in the given layout. The negative zero keeps its sign; a NaN shows none. -/
def Layout.double (n : Layout) (d : Double) : List Char :=
  if d.isNaN then n.nan.toList
  else
    let sign := if d.isNegative then ['-'] else []
    if d.isFinite then sign ++ n.decimal (shortest n.tie d) else sign ++ n.infinity.toList

/-- Doubles on the wire. Values that are no numbers have no wire form and are never written; the
word stands where one would be asked for. -/
def wire : Layout := ⟨.toEven, -5, true, "null", "null"⟩

/-- Doubles in descriptions for a reader. -/
def described : Layout := ⟨.awayFromZero, -4, false, "NaN", "inf"⟩

end TwoPhase.Number
