import TwoPhase.Named
import TwoPhase.Number.Binary64
/-
The values that requests and results are made of: typed scalars, lists, and named maps that keep
their keys in the order in which they were first set. A map that arrives over the wire may hold a
key twice; look-up and update then mean the first of them.
-/

set_option autoImplicit false

namespace TwoPhase

/-- A tree of typed scalars, lists and named maps. -/
inductive Value where
  | undefined
  | boolean (b : Bool)
  | int (i : Int32)
  | long (i : Int64)
  | double (d : Double)
  | string (s : String)
  | bytes (b : List UInt8)
  | list (items : List Value)
  | object (fields : List (String × Value))
  deriving Inhabited

namespace Value

/-! ## Maps -/

/-- A map without keys. -/
def empty : Value := .object []

/-- The entries of a map; a value of any other kind has none. -/
def entries : Value → List (String × Value)
  | .object fields => fields
  | _ => []

/-- The keys of a map in their order. -/
def keys (v : Value) : List String := v.entries.map (·.1)

/-- Sets a key. A value that is no map becomes one first, and what it was is lost. -/
def set (v : Value) (key : String) (value : Value) : Value :=
  .object (Named.put key value v.entries)

/-- The value of a key, if the value is a map that has it. -/
def get? (v : Value) (key : String) : Option Value := v.entries.lookup key

/-! ## Scalars and lists -/

/-- The text of a string. -/
def text? : Value → Option String
  | .string s => some s
  | _ => none

/-- A whole number of either width. -/
def integer? : Value → Option Int64
  | .int i => some i.toInt64
  | .long i => some i
  | _ => none

/-- The items of a list. -/
def items? : Value → Option (List Value)
  | .list items => some items
  | _ => none

/-- Whether there is a value at all. -/
def isDefined : Value → Bool
  | .undefined => false
  | _ => true

/-- The result that stands for a failure where a result is due. -/
def failed (message : String) : Value :=
  (empty.set "outcome" (.string "failed")).set "failure-description" (.string message)

/-! ## Properties of the whole tree -/

mutual

/-- Whether every double in the tree stands for a number. Only such trees have a wire form. -/
def isFinite : Value → Bool
  | .double d => d.isFinite
  | .list items => areFinite items
  | .object fields => areFiniteEntries fields
  | _ => true

/-- `isFinite` of every item. -/
def areFinite : List Value → Bool
  | [] => true
  | v :: rest => v.isFinite && areFinite rest

/-- `isFinite` of the value of every entry. -/
def areFiniteEntries : List (String × Value) → Bool
  | [] => true
  | (_, v) :: rest => v.isFinite && areFiniteEntries rest

end

mutual

/-- Equality as doubles have it: trees of the same shape whose doubles are equal as numbers, so that
a tree that holds a NaN differs from itself. -/
def same : Value → Value → Bool
  | .undefined, .undefined => true
  | .boolean a, .boolean b => a == b
  | .int a, .int b => a == b
  | .long a, .long b => a == b
  | .double a, .double b => a.same b
  | .string a, .string b => a == b
  | .bytes a, .bytes b => a == b
  | .list a, .list b => allSame a b
  | .object a, .object b => allSameEntries a b
  | _, _ => false

/-- `same` item by item, for lists of one length. -/
def allSame : List Value → List Value → Bool
  | [], [] => true
  | a :: as, b :: bs => a.same b && allSame as bs
  | _, _ => false

/-- `same` entry by entry, in order and with equal keys. -/
def allSameEntries : List (String × Value) → List (String × Value) → Bool
  | [], [] => true
  | (j, a) :: as, (k, b) :: bs => j == k && a.same b && allSameEntries as bs
  | _, _ => false

end

mutual

/-- How many values and octets a tree holds, which bounds the work of going through it. -/
def weight : Value → Nat
  | .bytes b => 1 + b.length
  | .list items => 1 + weights items
  | .object fields => 1 + entryWeights fields
  | _ => 1

/-- The weight of all items. -/
def weights : List Value → Nat
  | [] => 0
  | v :: rest => v.weight + weights rest

/-- The weight of all entries. -/
def entryWeights : List (String × Value) → Nat
  | [] => 0
  | (_, v) :: rest => v.weight + entryWeights rest

end

end Value

end TwoPhase
