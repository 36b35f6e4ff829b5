import TwoPhase.Json.Ascii
import TwoPhase.Json.Fault
import TwoPhase.Text.Octets
/-
Reading JSON from octets, one token at a time and from left to right, so that the fault reported is
the first one a reader of the text meets. This file holds the scalars: blanks, words, quoted text
and numbers. Lists, records and variants are built from them in `Json.Shape`.

A number with a fraction or an exponent, or too big for sixty-four bits, becomes the double nearest to
it (`decimalNumeral`). It is an assumption that a reader rounds correctly: one that saves itself the
exact quotient may be one unit in the last place off. Whole numbers, text and structure are read as
they are either way.
-/

set_option autoImplicit false

namespace TwoPhase.Json

open Ascii

/-- A reader that gives up says why, and what of its input it had not come to yet. -/
structure Halt where
  fault : Fault
  rest : List UInt8

/-- A reader consumes octets from the front of its input or gives up. -/
abbrev Reader (α : Type) := StateT (List UInt8) (Except Halt) α

namespace Reader

/-- Gives up because of what was read so far. -/
def fail {α : Type} (f : Fault) : Reader α := fun input => .error ⟨f, input⟩

/-- Gives up because of the next octet, or because there is none. -/
def reject {α : Type} (f : Fault) : Reader α := fun input => .error ⟨f, input.drop 1⟩

/-- The octet after any blanks, which stays in the input; `atEnd` is the fault if there is none. -/
def peek (atEnd : Fault) : Reader UInt8 := fun input =>
  match input.dropWhile isBlank with
  | [] => .error ⟨atEnd, []⟩
  | b :: rest => .ok (b, b :: rest)

/-- The next octet, blank or not, if there is one; it stays in the input. -/
def here? : Reader (Option UInt8) := fun input => .ok (input.head?, input)

/-- Consumes one octet. -/
def advance : Reader Unit := fun input => .ok ((), input.drop 1)

/-- Consumes any blanks. -/
def skipBlanks : Reader Unit := fun input => .ok ((), input.dropWhile isBlank)

/-- Consumes the rest of a word whose first letter decided that it must follow. -/
def restOfWord : List UInt8 → Reader Unit
  | [] => pure ()
  | c :: rest => do
    match ← get with
    | [] => fail .endInValue
    | b :: after =>
      if b = c then do set after; restOfWord rest else reject .expectedWord

/-! ## Quoted text -/

/-- Where a reader stands inside quoted text. -/
inductive Mode where
  /-- Between characters. -/
  | plain
  /-- After a backslash. -/
  | escaped
  /-- Inside the four digits of an escape; a high surrogate may wait for its other half. -/
  | hex (high : Option Nat) (seen : List UInt8)
  /-- After a high surrogate, before the backslash of its other half. -/
  | highSeen (high : Nat)
  /-- After that backslash. -/
  | highEscaped (high : Nat)

/-- The octet that a short escape stands for. -/
def shortEscape? (b : UInt8) : Option UInt8 :=
  if b = quote ∨ b = backslash ∨ b = slash then some b
  else if b = octet 'b' then some 0x08
  else if b = octet 'f' then some 0x0C
  else if b = octet 'n' then some 0x0A
  else if b = octet 'r' then some 0x0D
  else if b = octet 't' then some 0x09
  else none

/-- The value of hexadecimal digits, most significant first. -/
def hexNumber? (ds : List UInt8) : Option Nat :=
  ds.foldl (fun acc d => acc.bind fun n => (hexValue? d).map (n * 16 + ·)) (some 0)

/-- The first half of a surrogate pair. -/
def isHighSurrogate (n : Nat) : Bool := 0xD800 ≤ n && n ≤ 0xDBFF

/-- The second half of a surrogate pair. -/
def isLowSurrogate (n : Nat) : Bool := 0xDC00 ≤ n && n ≤ 0xDFFF

/-- The code point of a surrogate pair. -/
def pairedCodePoint (high low : Nat) : Nat := (high - 0xD800) * 1024 + (low - 0xDC00) + 0x10000

/-- The octets of a code point that is no surrogate, last one first. -/
def reversedOctets (n : Nat) : List UInt8 := (String.utf8EncodeChar (Char.ofNat n)).reverse

/-- Quoted text from behind its opening quote to behind its closing one, with escapes replaced by
what they stand for. The octets read so far are kept in reverse. -/
def quotedOctets : Mode → List UInt8 → List UInt8 → Except Halt (List UInt8 × List UInt8)
  | _, _, [] => .error ⟨.endInString, []⟩
  | .plain, seen, b :: rest =>
    if b = quote then .ok (seen.reverse, rest)
    else if b = backslash then quotedOctets .escaped seen rest
    else if b < 0x20 then .error ⟨.controlCharacter, rest⟩
    else quotedOctets .plain (b :: seen) rest
  | .escaped, seen, b :: rest =>
    if b = letterU then quotedOctets (.hex none []) seen rest
    else
      match shortEscape? b with
      | some c => quotedOctets .plain (c :: seen) rest
      | none => .error ⟨.invalidEscape, rest⟩
  | .hex high digits, seen, b :: rest =>
    if digits.length < 3 then quotedOctets (.hex high (digits ++ [b])) seen rest
    else
      match hexNumber? (digits ++ [b]), high with
      | none, _ => .error ⟨.invalidEscape, rest⟩
      | some n, none =>
        if isLowSurrogate n then .error ⟨.loneSurrogate, rest⟩
        else if isHighSurrogate n then quotedOctets (.highSeen n) seen rest
        else quotedOctets .plain (reversedOctets n ++ seen) rest
      | some n, some h =>
        if isLowSurrogate n then
          quotedOctets .plain (reversedOctets (pairedCodePoint h n) ++ seen) rest
        else .error ⟨.loneSurrogate, rest⟩
  | .highSeen h, seen, b :: rest =>
    if b = backslash then quotedOctets (.highEscaped h) seen rest
    else .error ⟨.unfinishedSurrogate, rest⟩
  | .highEscaped h, seen, b :: rest =>
    if b = letterU then quotedOctets (.hex (some h) []) seen rest
    else .error ⟨.unfinishedSurrogate, rest⟩

/-- Quoted text whose opening quote was consumed; its octets must be well-formed text. -/
def quotedRest : Reader String := fun input =>
  match quotedOctets .plain [] input with
  | .error f => .error f
  | .ok (bytes, rest) =>
    match Text.text? bytes with
    | some s => .ok (s, rest)
    | none => .error ⟨.invalidCodePoint, rest⟩

/-- Skips quoted text from behind its opening quote. Escapes must have the right form, but whether
they and the other octets make up characters is not asked. -/
def skipQuoted : Mode → List UInt8 → Except Halt (List UInt8)
  | _, [] => .error ⟨.endInString, []⟩
  | .plain, b :: rest =>
    if b = quote then .ok rest
    else if b = backslash then skipQuoted .escaped rest
    else if b < 0x20 then .error ⟨.controlCharacter, b :: rest⟩
    else skipQuoted .plain rest
  | .escaped, b :: rest =>
    if b = letterU then skipQuoted (.hex none []) rest
    else if (shortEscape? b).isSome then skipQuoted .plain rest
    else .error ⟨.invalidEscape, rest⟩
  | .hex high digits, b :: rest =>
    if digits.length < 3 then skipQuoted (.hex high (digits ++ [b])) rest
    else if (hexNumber? (digits ++ [b])).isSome then skipQuoted .plain rest
    else .error ⟨.invalidEscape, rest⟩
  | .highSeen _, _ :: rest => skipQuoted .plain rest
  | .highEscaped _, _ :: rest => skipQuoted .plain rest

/-! ## Numbers -/

/-- A number as the text gives it: a whole number in the range of sixty-four bits keeps its value,
any other is a double. -/
inductive Numeral where
  | natural (n : Nat)
  | negative (n : Nat)
  | float (d : Double)

/-- How a number is reported when something else was wanted. -/
def Numeral.found : Numeral → Found
  | natural n => .integer n
  | negative n => .integer (-(n : Int))
  | float d => .float d

/-- The value of decimal digits, most significant first. -/
def decimalValue (ds : List UInt8) : Nat := ds.foldl (fun n d => n * 10 + (d.toNat - 48)) 0

/-- The longest run of digits at the front of the input. -/
def digitRun : Reader (List UInt8) := fun input =>
  .ok (input.takeWhile isDigit, input.dropWhile isDigit)

/-- The digits before the point. A leading zero stands alone. -/
def wholePart : Reader (List UInt8) := do
  match ← here? with
  | none => fail .endInValue
  | some b =>
    if b = zero then do
      advance
      match ← here? with
      | some c => if isDigit c then reject .invalidNumber else pure [zero]
      | none => pure [zero]
    else if isDigit b then digitRun
    else reject .invalidNumber

/-- The digits after a point, of which there is at least one. -/
def fractionPart : Reader (List UInt8) := do
  advance
  match ← digitRun with
  | [] => do
    match ← here? with
    | none => fail .endInValue
    | some _ => reject .invalidNumber
  | ds => pure ds

/-- The exponent behind its mark. -/
def exponentPart : Reader Int := do
  advance
  let sign ← here?
  if sign = some plus ∨ sign = some minus then advance
  match ← here? with
  | none => fail .endInValue
  | some b =>
    if isDigit b then do
      let n := decimalValue (← digitRun)
      pure (if sign = some minus then -(n : Int) else n)
    else reject .invalidNumber

/-- A whole number keeps its value where sixty-four bits hold it. The negative zero is a double. -/
def wholeNumeral (negative : Bool) (n : Nat) : Option Numeral :=
  if negative then
    if n ≠ 0 ∧ n ≤ Nat.pow 2 63 then some (.negative n) else none
  else if n < UInt64.size then some (.natural n) else none

/-- The number that a decimal stands for. -/
def decimalNumeral (negative : Bool) (digits : Nat) (exponent : Int) : Reader Numeral :=
  match Double.ofDecimal? negative digits exponent with
  | some d => pure (.float d)
  | none => fail .numberOutOfRange

/-- A number whose sign was consumed. -/
def number (negative : Bool) : Reader Numeral := do
  let whole ← wholePart
  let fraction ← if (← here?) = some point then some <$> fractionPart else pure none
  let mark ← here?
  let exponent ← if mark.any isExponentMark then some <$> exponentPart else pure none
  match fraction, exponent with
  | none, none =>
    match wholeNumeral negative (decimalValue whole) with
    | some n => pure n
    | none => decimalNumeral negative (decimalValue whole) 0
  | _, _ =>
    let places := fraction.getD []
    decimalNumeral negative (decimalValue (whole ++ places))
      (exponent.getD 0 - (places.length : Int))

/-- Skips a number whose sign was consumed. Here the end of the text is as wrong as any octet that
does not belong. -/
def skipNumber : Reader Unit := do
  match ← here? with
  | none => reject .invalidNumber
  | some b =>
    if b = zero then do
      advance
      if (← here?).any isDigit then reject .invalidNumber
    else if isDigit b then discard digitRun
    else reject .invalidNumber
  if (← here?) = some point then do
    advance
    if (← digitRun).isEmpty then reject .invalidNumber
  if (← here?).any isExponentMark then do
    advance
    let sign ← here?
    if sign = some plus ∨ sign = some minus then advance
    if (← digitRun).isEmpty then reject .invalidNumber

/-! ## Wanted scalars -/

/-- Reports what the input holds where `wanted` was due. The value must at least begin well: a word
or number that is misspelled is reported as that. -/
def mismatch {α : Type} (wanted : String) : Reader α := do
  match ← here? with
  | none => reject .expectedValue
  | some b =>
    if b = octet 'n' then do
      advance; restOfWord (word "ull"); fail (.invalidType .null wanted)
    else if b = octet 't' then do
      advance; restOfWord (word "rue"); fail (.invalidType (.boolean true) wanted)
    else if b = octet 'f' then do
      advance; restOfWord (word "alse"); fail (.invalidType (.boolean false) wanted)
    else if b = minus then do
      advance; fail (.invalidType (← number true).found wanted)
    else if isDigit b then do
      fail (.invalidType (← number false).found wanted)
    else if b = quote then do
      advance; fail (.invalidType (.string (← quotedRest)) wanted)
    else if b = listOpen then fail (.invalidType .sequence wanted)
    else if b = objectOpen then fail (.invalidType .map wanted)
    else reject .expectedValue

/-- A number of any kind. -/
def numeral (wanted : String) : Reader Numeral := do
  let b ← peek .endInValue
  if b = minus then do advance; number true
  else if isDigit b then number false
  else mismatch wanted

/-- A whole number between two bounds. -/
def integer (low high : Int) (wanted : String) : Reader Int := do
  let within (i : Int) : Reader Int :=
    if low ≤ i ∧ i ≤ high then pure i else fail (.invalidValue (.integer i) wanted)
  match ← numeral wanted with
  | .natural n => within n
  | .negative n => within (-(n : Int))
  | .float d => fail (.invalidType (.float d) wanted)

/-- A double; a whole number is rounded to one. -/
def double : Reader Double := do
  match ← numeral "f64" with
  | .natural n => pure (.ofNat false n)
  | .negative n => pure (.ofNat true n)
  | .float d => pure d

/-- A truth value. -/
def boolean : Reader Bool := do
  let b ← peek .endInValue
  if b = octet 't' then do advance; restOfWord (word "rue"); pure true
  else if b = octet 'f' then do advance; restOfWord (word "alse"); pure false
  else mismatch "a boolean"

/-- Quoted text. -/
def string : Reader String := do
  let b ← peek .endInValue
  if b = quote then do advance; quotedRest else mismatch "a string"

/-- The word for nothing. -/
def unit : Reader Unit := do
  let b ← peek .endInValue
  if b = octet 'n' then do advance; restOfWord (word "ull") else mismatch "unit"

/-- Something, or the word for nothing in its place. -/
def optional {α : Type} (item : Reader α) : Reader (Option α) := do
  match (← get).dropWhile isBlank with
  | b :: rest =>
    if b = octet 'n' then do set rest; restOfWord (word "ull"); pure none
    else some <$> item
  | [] => some <$> item

end Reader

end TwoPhase.Json
