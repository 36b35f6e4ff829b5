import TwoPhase.Json.Reader
/-
Reading what has parts: lists, records and variants. Brackets nest to a limited depth. A reader of
something bracketed is therefore given the reader of its inside only where one more level is still
allowed, and a bracket met without it is the fault `tooDeep`. Values that nobody asked for are
skipped without that limit.
-/

set_option autoImplicit false

namespace TwoPhase.Json

open Ascii

/-- How many levels of brackets a text may nest. -/
def depthLimit : Nat := 127

namespace Reader

/-! ## Lists -/

/-- Whether another element follows in a list, with the comma before it consumed. -/
def nextElement (first : Bool) : Reader Bool := do
  let b ← peek .endInList
  if b = listClose then pure false
  else if first then pure true
  else if b = comma then do
    advance
    let c ← peek .endInValue
    if c = listClose then reject .trailingComma else pure true
  else reject .expectedListEnd

/-- The end of a list of which no further element is wanted. -/
def closeList : Reader Unit := do
  let b ← peek .endInList
  if b = listClose then advance
  else if b = comma then do
    advance
    skipBlanks
    reject (if (← here?) = some listClose then .trailingComma else .trailingCharacters)
  else reject .trailingCharacters

/-- The elements up to the end of a list. The count bounds them; every element takes at least one
octet, so the length of the input is always enough. -/
def elements {α : Type} (item : Reader α) : Nat → Bool → List α → Reader (List α)
  | 0, _, _ => fail .expectedValue
  | n + 1, first, seen => do
    if ← nextElement first then do
      let x ← item
      elements item n false (x :: seen)
    else pure seen.reverse

/-- A bracketed list read as a whole by `inside`, which starts behind the opening bracket. -/
def bracketed {α : Type} (wanted : String) (inside : Option (Reader α)) : Reader α := do
  let b ← peek .endInValue
  if b = listOpen then
    match inside with
    | none => reject .tooDeep
    | some r => do
      advance
      let x ← r
      closeList
      pure x
  else mismatch wanted

/-- A list of any length. -/
def list {α : Type} (item : Option (Reader α)) : Reader (List α) :=
  bracketed "a sequence" <| item.map fun r => do
    let input ← get
    elements r (input.length + 1) true []

/-- A pair, written as a list of two. -/
def pair {α β : Type} (items : Option (Reader α × Reader β)) : Reader (α × β) :=
  bracketed "a tuple of size 2" <| items.map fun (first, second) => do
    unless ← nextElement true do reject (.invalidLength 0 "a tuple of size 2")
    let a ← first
    unless ← nextElement false do reject (.invalidLength 1 "a tuple of size 2")
    let b ← second
    pure (a, b)

/-! ## Skipped values -/

/-- Where a skipped text stands. -/
inductive Skip where
  /-- A value is due. -/
  | value
  /-- Behind an opening bracket. -/
  | opened
  /-- Behind a value inside brackets. -/
  | after

/-- The colon between a key and its value. -/
def keyColon : Reader Unit := do
  let b ← peek .endInObject
  if b = colon then advance else reject .expectedColon

/-- Skips a key and the colon behind it. -/
def skipKey : Reader Unit := do
  let b ← peek .endInObject
  if b = quote then do
    advance
    let input ← get
    match skipQuoted .plain input with
    | .error halt => throw halt
    | .ok rest => set rest
  else reject .keyNotString
  keyColon

/-- Skips a value that is not bracketed and says whether there was one; a bracket stays. -/
def skipScalar : Reader Bool := do
  let b ← peek .endInValue
  if b = octet 'n' then do advance; restOfWord (word "ull"); pure true
  else if b = octet 't' then do advance; restOfWord (word "rue"); pure true
  else if b = octet 'f' then do advance; restOfWord (word "alse"); pure true
  else if b = minus then do advance; skipNumber; pure true
  else if isDigit b then do skipNumber; pure true
  else if b = quote then do
    advance
    let input ← get
    match skipQuoted .plain input with
    | .error halt => throw halt
    | .ok rest => do set rest; pure true
  else if b = listOpen ∨ b = objectOpen then pure false
  else reject .expectedValue

/-- Skips a value with everything in it. The open brackets are a stack, so depth costs nothing; the
count bounds the moves, of which each octet allows at most two. -/
def skipFrom : Nat → List UInt8 → Skip → Reader Unit
  | 0, _, _ => fail .expectedValue
  | n + 1, stack, .value => do
    if ← skipScalar then
      match stack with
      | [] => pure ()
      | _ => skipFrom n stack .after
    else
      match ← here? with
      | some b => do advance; skipFrom n (b :: stack) .opened
      | none => fail .expectedValue
  | _, [], _ => pure ()
  | n + 1, frame :: stack, place => do
    let inList := frame == listOpen
    let b ← peek (if inList then .endInList else .endInObject)
    if b = (if inList then listClose else objectClose) then do
      advance
      match stack with
      | [] => pure ()
      | _ => skipFrom n stack .after
    else
      match place with
      | .after =>
        if b = comma then do
          advance
          unless inList do skipKey
          skipFrom n (frame :: stack) .value
        else reject (if inList then .expectedListEnd else .expectedObjectEnd)
      | _ => do
        unless inList do skipKey
        skipFrom n (frame :: stack) .value

/-- Skips one value of any shape. -/
def skipValue : Reader Unit := do
  let input ← get
  skipFrom (2 * input.length + 2) [] .value

/-! ## Records -/

/-- Whether another key follows in a record, with the comma before it consumed. -/
def nextKey (first : Bool) : Reader Bool := do
  let b ← peek .endInObject
  if b = objectClose then pure false
  else if first then
    if b = quote then pure true else reject .keyNotString
  else if b = comma then do
    advance
    let c ← peek .endInValue
    if c = quote then pure true
    else if c = objectClose then reject .trailingComma
    else reject .keyNotString
  else reject .expectedObjectEnd

/-- The end of a record. -/
def closeObject : Reader Unit := do
  let b ← peek .endInObject
  if b = objectClose then advance
  else if b = comma then reject .trailingComma
  else reject .trailingCharacters

/-- One field of a record that is being read: its name, whether it was met already, and how to read
it into what was collected so far. -/
structure Slot (σ : Type) where
  name : String
  filled : σ → Bool
  read : σ → Reader σ

/-- How a record is read: its fields in order, what is collected before the first of them, and what
the collected fields amount to. -/
structure Shape (σ α : Type) where
  slots : List (Slot σ)
  blank : σ
  /-- Whether the list form may leave out fields at the end. -/
  lenient : Bool
  finish : σ → Except Fault α

/-- The fields of a record written with keys, in any order. Unknown keys are skipped with their
values. The count bounds the fields. -/
def fields {σ : Type} (slots : List (Slot σ)) : Nat → Bool → σ → Reader σ
  | 0, _, _ => fail .expectedValue
  | n + 1, first, acc => do
    if ← nextKey first then do
      advance
      let key ← quotedRest
      match slots.find? (·.name == key) with
      | some slot =>
        if slot.filled acc then do skipBlanks; fail (.duplicateField slot.name)
        else do
          keyColon
          let acc ← slot.read acc
          fields slots n false acc
      | none => do
        keyColon
        skipValue
        fields slots n false acc
    else pure acc

/-- The text that counts the parts of a record. -/
def sized (wanted : String) (n : Nat) : String :=
  wanted ++ " with " ++ String.ofList (Number.digits n) ++ if n = 1 then " element" else " elements"

/-- The fields of a record written as a list, in order. -/
def positions {σ : Type} (lenient : Bool) (wanted : String) :
    List (Slot σ) → Nat → σ → Reader σ
  | [], _, acc => pure acc
  | slot :: rest, n, acc => do
    if ← nextElement (n == 0) then do
      let acc ← slot.read acc
      positions lenient wanted rest (n + 1) acc
    else if lenient then pure acc
    else reject (.invalidLength n wanted)

/-- What the fields of a record that was read amount to. -/
def outcome {α : Type} : Except Fault α → Reader α
  | .ok x => pure x
  | .error f => fail f

/-- A record, written with keys or as a list of its fields. -/
def record {σ α : Type} (wanted : String) (inside : Option (Shape σ α)) : Reader α := do
  let b ← peek .endInValue
  if b = listOpen then
    match inside with
    | none => reject .tooDeep
    | some shape => do
      advance
      let acc ← positions shape.lenient (sized wanted shape.slots.length) shape.slots 0 shape.blank
      closeList
      outcome (shape.finish acc)
  else if b = objectOpen then
    match inside with
    | none => reject .tooDeep
    | some shape => do
      advance
      let input ← get
      let acc ← fields shape.slots (input.length + 1) true shape.blank
      closeObject
      outcome (shape.finish acc)
  else mismatch wanted

/-- A field that must have been met. -/
def required {α : Type} (name : String) : Option α → Except Fault α
  | some x => .ok x
  | none => .error (.missingField name)

/-! ## Variants -/

/-- A tag, which must be one of the known ones. -/
def knownTag (known : List String) (tag : String) : Reader String :=
  if known.contains tag then pure tag else fail (.unknownVariant tag known)

/-- One of several alternatives: a bare tag, or an object whose only key is the tag and whose value
is the content. -/
def variant {α : Type} (known : List String) (bare : String → Reader α)
    (inside : Option (String → Reader α)) : Reader α := do
  let b ← peek .endInValue
  if b = quote then do
    advance
    bare (← knownTag known (← quotedRest))
  else if b = objectOpen then
    match inside with
    | none => reject .tooDeep
    | some content => do
      advance
      let c ← peek .endInObject
      unless c = quote do reject .keyNotString
      advance
      let tag ← knownTag known (← quotedRest)
      keyColon
      let x ← content tag
      let d ← peek .endInObject
      unless d = objectClose do fail .expectedValue
      advance
      pure x
  else reject .expectedValue

/-- One of several alternatives without contents. -/
def enumerated {α : Type} (alternatives : List (String × α)) (deeper : Bool) : Reader α :=
  let tags := alternatives.map (·.1)
  let pick (tag : String) : Reader α :=
    match alternatives.lookup tag with
    | some x => pure x
    | none => fail (.unknownVariant tag tags)
  variant tags pick (if deeper then some fun tag => do unit; pick tag else none)

end Reader

/-- The error of a reader that gave up on a text. -/
def ReadError.ofHalt (text : List UInt8) (h : Halt) : ReadError :=
  ⟨h.fault, .endOf (text.take (text.length - h.rest.length))⟩

/-- Reads a whole text, behind which only blanks may stand. -/
def read {α : Type} (r : Reader α) (text : List UInt8) : Except ReadError α :=
  match r text with
  | .error halt => .error (.ofHalt text halt)
  | .ok (x, rest) =>
    match rest.dropWhile isBlank with
    | [] => .ok x
    | _ :: behind => .error (.ofHalt text ⟨.trailingCharacters, behind⟩)

end TwoPhase.Json
