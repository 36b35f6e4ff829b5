import TwoPhase.Json.Ascii
import TwoPhase.Text.Octets
import TwoPhase.Number.Layout
/-
Writing JSON as octets, without any blank. Only the quote, the backslash and the controls are
escaped, so every other octet of a text goes out as it is.
-/

set_option autoImplicit false

namespace TwoPhase.Json

open Ascii

/-- One octet of a text as it goes between quotes. -/
def escape (b : UInt8) : List UInt8 :=
  if b = quote then [backslash, quote]
  else if b = backslash then [backslash, backslash]
  else if b = 0x08 then [backslash, octet 'b']
  else if b = 0x0C then [backslash, octet 'f']
  else if b = 0x0A then [backslash, octet 'n']
  else if b = 0x0D then [backslash, octet 'r']
  else if b = 0x09 then [backslash, octet 't']
  else if b < 0x20 then
    [backslash, letterU, zero, zero, hexDigit (b.toNat / 16), hexDigit (b.toNat % 16)]
  else [b]

/-- A text between quotes. -/
def quoted (s : String) : List UInt8 := quote :: ((Text.octets s).flatMap escape ++ [quote])

/-- A whole number. -/
def integer (i : Int) : List UInt8 := (Number.signed i).map octet

/-- A double. -/
def double (d : Double) : List UInt8 := (Number.wire.double d).map octet

/-- A truth value. -/
def boolean (b : Bool) : List UInt8 := word (if b then "true" else "false")

/-- Items with commas between them. -/
def separated : List (List UInt8) → List UInt8
  | [] => []
  | [item] => item
  | item :: rest => item ++ comma :: separated rest

/-- Items as a list. -/
def list (items : List (List UInt8)) : List UInt8 := listOpen :: (separated items ++ [listClose])

/-- A key with its value. -/
def member (key : String) (value : List UInt8) : List UInt8 := quoted key ++ colon :: value

/-- Members as an object. -/
def object (members : List (List UInt8)) : List UInt8 :=
  objectOpen :: (separated members ++ [objectClose])

/-- An alternative with its content. -/
def tagged (tag : String) (content : List UInt8) : List UInt8 := object [member tag content]

end TwoPhase.Json
