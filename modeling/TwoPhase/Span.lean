import TwoPhase.Text.Described
/-
Spans of time, as callers give them to bound a wait and as error texts show them. A span is a whole
number of nanoseconds; its text uses the largest unit of which it holds at least one.
-/

set_option autoImplicit false

namespace TwoPhase

/-- A span of time in nanoseconds. -/
structure Span where
  nanos : Nat
  deriving DecidableEq, Repr

namespace Span

/-- A span of whole milliseconds. -/
def ofMillis (n : Nat) : Span := ⟨n * 1000000⟩

/-- A span of seconds and nanoseconds; nanoseconds may exceed a second and carry over. -/
def ofParts (seconds nanos : Nat) : Span := ⟨seconds * 1000000000 + nanos⟩

/-- The longest span. -/
def longest : Span := ofParts (UInt64.size - 1) 999999999

/-- Whether a deadline that far ahead can be represented. A wait for longer has no deadline. -/
def hasDeadline (s : Span) : Bool := s.nanos < Nat.pow 2 63 * 1000000000

/-- Drops the zeros at the end of a run of digits. -/
def trimZeros (ds : List Char) : List Char := (ds.reverse.dropWhile (· == '0')).reverse

/-- A number of units with its fraction, of which `width` digits are known. -/
def amount (whole fraction width : Nat) : List Char :=
  let ds := Number.digits fraction
  let places := trimZeros (Number.zeros (width - ds.length) ++ ds)
  Number.digits whole ++ if places.isEmpty then [] else '.' :: places

/-- The text of a span: seconds, milliseconds, microseconds or nanoseconds, with a fraction only
where there is one. -/
def describe (s : Span) : String :=
  let n := s.nanos
  String.ofList <|
    if 1000000000 ≤ n then amount (n / 1000000000) (n % 1000000000) 9 ++ ['s']
    else if 1000000 ≤ n then amount (n / 1000000) (n % 1000000) 6 ++ ['m', 's']
    else if 1000 ≤ n then amount (n / 1000) (n % 1000) 3 ++ ['µ', 's']
    else Number.digits n ++ ['n', 's']

end Span

end TwoPhase
