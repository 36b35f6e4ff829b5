import TwoPhase.Number.Layout
import TwoPhase.Text.Shown
/-
The shapes of a description: quoted text, and constructors and records spelled out with their
contents. Descriptions appear in logs and in what a handle says of itself, on one line.
-/

set_option autoImplicit false

namespace TwoPhase.Text

/-- The digits of a number in base sixteen, in lower case and without leading zeros. -/
def hexadecimal (n : Nat) : List Char := Nat.toDigits 16 n

/-- A character inside quoted text: the usual short escapes, the character itself where it is shown,
and otherwise its code point in braces. -/
def describedChar (c : Char) : List Char :=
  if c = '"' then ['\\', '"']
  else if c = '\\' then ['\\', '\\']
  else if c = '\n' then ['\\', 'n']
  else if c = '\r' then ['\\', 'r']
  else if c = '\t' then ['\\', 't']
  else if c.toNat = 0 then ['\\', '0']
  else if isShown c then [c]
  else ['\\', 'u', '\x7b'] ++ hexadecimal c.toNat ++ ['\x7d']

/-- A text between quotes. -/
def quoted (s : String) : List Char := '"' :: (s.toList.flatMap describedChar ++ ['"'])

/-- Items with a comma and a space between them. -/
def separated : List (List Char) → List Char
  | [] => []
  | [item] => item
  | item :: rest => item ++ [',', ' '] ++ separated rest

/-- A constructor with its contents in parentheses. -/
def construct (name : String) (content : List Char) : List Char :=
  name.toList ++ '(' :: content ++ [')']

/-- Items in square brackets. -/
def bracketed (items : List (List Char)) : List Char := '[' :: separated items ++ [']']

/-- A record with its fields in braces. -/
def recorded (name : String) (fields : List (String × List Char)) : List Char :=
  let shown := fields.map fun (label, content) => label.toList ++ [':', ' '] ++ content
  name.toList ++ [' ', '\x7b', ' '] ++ separated shown ++ [' ', '\x7d']

/-- An optional content: `None`, or `Some` around it. -/
def optional : Option (List Char) → List Char
  | none => "None".toList
  | some content => construct "Some" content

/-- A truth value. -/
def truth (b : Bool) : List Char := (if b then "true" else "false").toList

end TwoPhase.Text
