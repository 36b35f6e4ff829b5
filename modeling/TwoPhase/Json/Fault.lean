import TwoPhase.Text.Described
/-
Why a text could not be read. A fault is either in the text itself (it is no JSON, or it ends too
early) or in what the text says (it is JSON of the wrong shape). The three categories and the
wording belong to the answer; everything else about a fault is its cause.
-/

set_option autoImplicit false

namespace TwoPhase.Json

/-- What a reader found where it wanted something else. -/
inductive Found where
  | null
  | boolean (b : Bool)
  | integer (i : Int)
  | float (d : Double)
  | string (s : String)
  | sequence
  | map
  | unitVariant
  deriving DecidableEq

/-- The causes for which reading fails. -/
inductive Fault where
  -- the text breaks off
  | endInValue
  | endInString
  | endInList
  | endInObject
  -- the text is not JSON
  | expectedValue
  | expectedWord
  | expectedColon
  | expectedListEnd
  | expectedObjectEnd
  | trailingComma
  | trailingCharacters
  | keyNotString
  | invalidNumber
  | numberOutOfRange
  | invalidEscape
  | invalidCodePoint
  | loneSurrogate
  | unfinishedSurrogate
  | controlCharacter
  | tooDeep
  -- the text says something else than was wanted
  | invalidType (found : Found) (wanted : String)
  | invalidValue (found : Found) (wanted : String)
  | invalidLength (length : Nat) (wanted : String)
  | unknownVariant (tag : String) (known : List String)
  | missingField (field : String)
  | duplicateField (field : String)
  deriving DecidableEq

/-- Where a fault lies. -/
inductive Category where
  | syntactic
  | data
  | ending
  deriving DecidableEq, Repr

/-- The category of a fault. -/
def Fault.category : Fault → Category
  | endInValue | endInString | endInList | endInObject => .ending
  | invalidType .. | invalidValue .. | invalidLength .. | unknownVariant .. | missingField ..
  | duplicateField .. => .data
  | _ => .syntactic

/-- The text of what was found. -/
def Found.message : Found → String
  | null => "null"
  | boolean b => "boolean `" ++ String.ofList (Text.truth b) ++ "`"
  | integer i => "integer `" ++ String.ofList (Number.signed i) ++ "`"
  | float d => "floating point `" ++ String.ofList (Number.wire.double d) ++ "`"
  | string s => "string " ++ String.ofList (Text.quoted s)
  | sequence => "sequence"
  | map => "map"
  | unitVariant => "unit variant"

/-- A name between the quotes that error texts use for names. -/
def backquoted (s : String) : String := "`" ++ s ++ "`"

/-- The names a reader would have accepted. -/
def alternatives : List String → String
  | [] => "nothing"
  | [a] => backquoted a
  | [a, b] => backquoted a ++ " or " ++ backquoted b
  | names => "one of " ++ ", ".intercalate (names.map backquoted)

/-- The text of a fault. -/
def Fault.message : Fault → String
  | endInValue => "EOF while parsing a value"
  | endInString => "EOF while parsing a string"
  | endInList => "EOF while parsing a list"
  | endInObject => "EOF while parsing an object"
  | expectedValue => "expected value"
  | expectedWord => "expected ident"
  | expectedColon => "expected `:`"
  | expectedListEnd => "expected `,` or `]`"
  | expectedObjectEnd => "expected `,` or `\x7d`"
  | trailingComma => "trailing comma"
  | trailingCharacters => "trailing characters"
  | keyNotString => "key must be a string"
  | invalidNumber => "invalid number"
  | numberOutOfRange => "number out of range"
  | invalidEscape => "invalid escape"
  | invalidCodePoint => "invalid unicode code point"
  | loneSurrogate => "lone leading surrogate in hex escape"
  | unfinishedSurrogate => "unexpected end of hex escape"
  | controlCharacter => "control character (\\u0000-\\u001F) found while parsing a string"
  | tooDeep => "recursion limit exceeded"
  | invalidType found wanted => "invalid type: " ++ found.message ++ ", expected " ++ wanted
  | invalidValue found wanted => "invalid value: " ++ found.message ++ ", expected " ++ wanted
  | invalidLength n wanted =>
    "invalid length " ++ String.ofList (Number.digits n) ++ ", expected " ++ wanted
  | unknownVariant tag known =>
    "unknown variant " ++ backquoted tag ++ ", expected " ++ alternatives known
  | missingField f => "missing field " ++ backquoted f
  | duplicateField f => "duplicate field " ++ backquoted f

/-! ## Places -/

/-- Where in a text something was met: the number of its line, from one, and how many octets of that
line lie before or at it. -/
structure Place where
  line : Nat
  column : Nat
  deriving DecidableEq, Repr

/-- The place at which a text breaks off. -/
def Place.endOf (text : List UInt8) : Place where
  line := 1 + text.countP (· == 0x0A)
  column := (text.reverse.takeWhile (· != 0x0A)).length

/-- The text of a place, as it follows the text of a fault. -/
def Place.message (p : Place) : String :=
  " at line " ++ String.ofList (Number.digits p.line) ++ " column " ++
    String.ofList (Number.digits p.column)

/-- Why a text could not be read, and where. -/
structure ReadError where
  fault : Fault
  place : Place
  deriving DecidableEq

/-- The text of a reading error. -/
def ReadError.message (e : ReadError) : String := e.fault.message ++ e.place.message

end TwoPhase.Json
