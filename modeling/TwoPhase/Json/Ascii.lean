/-
The octets that have a meaning in JSON, by name. All of them are ASCII, and no octet of a longer
character is, so a reader may look for them without knowing where characters begin.
-/

set_option autoImplicit false

namespace TwoPhase.Json.Ascii

/-- The octet of an ASCII character. -/
@[reducible] def octet (c : Char) : UInt8 := UInt8.ofNat c.toNat

def quote : UInt8 := octet '"'
def backslash : UInt8 := octet '\\'
def slash : UInt8 := octet '/'
def comma : UInt8 := octet ','
def colon : UInt8 := octet ':'
def point : UInt8 := octet '.'
def minus : UInt8 := octet '-'
def plus : UInt8 := octet '+'
def zero : UInt8 := octet '0'
def nine : UInt8 := octet '9'
def listOpen : UInt8 := octet '['
def listClose : UInt8 := octet ']'
def objectOpen : UInt8 := octet '\x7b'
def objectClose : UInt8 := octet '\x7d'
def letterU : UInt8 := octet 'u'

/-- Space, tab, line feed and carriage return may stand between any two tokens. -/
def isBlank (b : UInt8) : Bool := b == 0x20 || b == 0x09 || b == 0x0A || b == 0x0D

/-- A decimal digit. -/
def isDigit (b : UInt8) : Bool := zero ≤ b && b ≤ nine

/-- The mark of a decimal exponent, in either case. -/
def isExponentMark (b : UInt8) : Bool := b == octet 'e' || b == octet 'E'

/-- The octets of an ASCII word. -/
def word (s : String) : List UInt8 := s.toList.map octet

/-- The value of a hexadecimal digit. -/
def hexValue? (b : UInt8) : Option Nat :=
  let n := b.toNat
  if 48 ≤ n ∧ n ≤ 57 then some (n - 48)
  else if 97 ≤ n ∧ n ≤ 102 then some (n - 87)
  else if 65 ≤ n ∧ n ≤ 70 then some (n - 55)
  else none

/-- The digit of a value below sixteen, in lower case. -/
def hexDigit (n : Nat) : UInt8 := UInt8.ofNat (if n < 10 then 48 + n else 87 + n)

end TwoPhase.Json.Ascii
