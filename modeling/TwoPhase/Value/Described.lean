import TwoPhase.Value.Basic
import TwoPhase.Text.Described
/-
The description of a value: its constructors spelled out, on one line. Logs show the request of an
operation in this form, and a handle its prepared result.
-/

set_option autoImplicit false

namespace TwoPhase.Value

open Text

mutual

/-- The description of a value. -/
def describe : Value → List Char
  | .undefined => "Undefined".toList
  | .boolean b => construct "Boolean" (truth b)
  | .int i => construct "Int" (Number.signed i.toInt)
  | .long i => construct "Long" (Number.signed i.toInt)
  | .double d => construct "Double" (Number.described.double d)
  | .string s => construct "String" (quoted s)
  | .bytes b => construct "Bytes" (bracketed (b.map fun o => Number.digits o.toNat))
  | .list items => construct "List" (bracketed (describeAll items))
  | .object fields => construct "Object" (bracketed (describeEntries fields))

/-- The description of each item. -/
def describeAll : List Value → List (List Char)
  | [] => []
  | v :: rest => v.describe :: describeAll rest

/-- The description of each entry, a pair of its key and its value. -/
def describeEntries : List (String × Value) → List (List Char)
  | [] => []
  | (k, v) :: rest =>
    ('(' :: (quoted k ++ [',', ' '] ++ v.describe ++ [')'])) :: describeEntries rest

end

end TwoPhase.Value
