import TwoPhase.Value.Basic
import TwoPhase.Json.Shape
import TwoPhase.Json.Writer
/-
The wire form of values. Every value but the undefined one is written as an object whose only key
names its kind; a map is written as a list of pairs, so that its order and its repeated keys survive.
A list takes two levels of brackets for each level of its own and a map three, and a reader that
counts levels meets its limit accordingly.
-/

set_option autoImplicit false

namespace TwoPhase.Value

/-- The kinds of values by their tags. -/
def tags : List String :=
  ["Undefined", "Boolean", "Int", "Long", "Double", "String", "Bytes", "List", "Object"]

/-! ## Writing -/

mutual

/-- The wire form of a value. -/
def toJson : Value → List UInt8
  | .undefined => Json.quoted "Undefined"
  | .boolean b => Json.tagged "Boolean" (Json.boolean b)
  | .int i => Json.tagged "Int" (Json.integer i.toInt)
  | .long i => Json.tagged "Long" (Json.integer i.toInt)
  | .double d => Json.tagged "Double" (Json.double d)
  | .string s => Json.tagged "String" (Json.quoted s)
  | .bytes b => Json.tagged "Bytes" (Json.list (b.map fun o => Json.integer o.toNat))
  | .list items => Json.tagged "List" (Json.list (itemsToJson items))
  | .object fields => Json.tagged "Object" (Json.list (entriesToJson fields))

/-- The wire form of each item. -/
def itemsToJson : List Value → List (List UInt8)
  | [] => []
  | v :: rest => v.toJson :: itemsToJson rest

/-- The wire form of each entry, a pair of its key and its value. -/
def entriesToJson : List (String × Value) → List (List UInt8)
  | [] => []
  | (k, v) :: rest => Json.list [Json.quoted k, v.toJson] :: entriesToJson rest

end

/-! ## Reading -/

open Json Json.Reader

/-- A bare tag, which only the undefined value has. -/
def ofBareTag (tag : String) : Reader Value :=
  if tag = "Undefined" then pure .undefined
  else fail (.invalidType .unitVariant "newtype variant")

/-- The content of every kind that nests no further values. -/
def scalarContent (tag : String) (bytes : Option (Reader Int)) : Reader Value :=
  match tag with
  | "Undefined" => do unit; pure .undefined
  | "Boolean" => .boolean <$> Reader.boolean
  | "Int" => (.int ∘ Int32.ofInt) <$> integer Int32.minValue.toInt Int32.maxValue.toInt "i32"
  | "Long" => (.long ∘ Int64.ofInt) <$> integer Int64.minValue.toInt Int64.maxValue.toInt "i64"
  | "Double" => .double <$> Reader.double
  | "String" => .string <$> Reader.string
  | "Bytes" => (fun b => .bytes (b.map fun i => UInt8.ofNat i.toNat)) <$> Reader.list bytes
  | _ => fail (.unknownVariant tag tags)

/-- An octet in a list of them. -/
def octetReader : Reader Int := integer 0 255 "u8"

/-- A value whose brackets may nest to the given depth. -/
def ofJson : Nat → Reader Value
  | 0 => variant tags ofBareTag none
  | depth + 1 =>
    variant tags ofBareTag <| some fun tag =>
      if tag = "List" then
        .list <$> match depth with
          | 0 => Reader.list none
          | inner + 1 => Reader.list (some (ofJson inner))
      else if tag = "Object" then
        .object <$> match depth with
          | 0 => Reader.list none
          | 1 => Reader.list (some (pair none))
          | inner + 2 => Reader.list (some (pair (some (Reader.string, ofJson inner))))
      else scalarContent tag (if depth = 0 then none else some octetReader)

end TwoPhase.Value
