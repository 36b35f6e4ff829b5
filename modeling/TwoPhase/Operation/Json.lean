import TwoPhase.Operation.Failure
import TwoPhase.Value.Json
/-
The wire forms of the words about operations. An alternative without content is its bare tag, a
record lists its fields in a fixed order, and an identifier is just its number.
-/

set_option autoImplicit false

namespace TwoPhase

open Json Json.Reader

/-- A whole number of sixty-four bits without sign. -/
def unsigned (wanted : String) : Reader UInt64 :=
  (fun i => UInt64.ofNat i.toNat) <$> Reader.integer 0 (UInt64.size - 1) wanted

namespace OperationId

def toJson (id : OperationId) : List UInt8 := Json.integer id.val.toNat

def ofJson : Reader OperationId := OperationId.mk <$> unsigned "u64"

end OperationId

namespace Decision

/-- The decisions by their tags. -/
def alternatives : List (String × Decision) := [("Commit", .commit), ("Rollback", .rollback)]

def toJson (d : Decision) : List UInt8 := Json.quoted d.tag

def ofJson (depth : Nat) : Reader Decision := enumerated alternatives (depth != 0)

end Decision

namespace Severity

/-- The severities by their tags. -/
def alternatives : List (String × Severity) :=
  [("Error", .error), ("Warn", .warn), ("Info", .info)]

def toJson (s : Severity) : List UInt8 := Json.quoted s.tag

def ofJson (depth : Nat) : Reader Severity := enumerated alternatives (depth != 0)

end Severity

namespace FailureKind

/-- The kinds by their tags. -/
def alternatives : List (String × FailureKind) :=
  [("Rejected", .rejected), ("ChannelClosed", .channelClosed), ("SendFailed", .sendFailed)]

def toJson (k : FailureKind) : List UInt8 := Json.quoted k.tag

def ofJson (depth : Nat) : Reader FailureKind := enumerated alternatives (depth != 0)

end FailureKind

namespace Failure

def toJson (f : Failure) : List UInt8 :=
  Json.object [Json.member "kind" f.kind.toJson, Json.member "message" (Json.quoted f.message)]

/-- The fields of a failure met so far. -/
structure Fields where
  kind : Option FailureKind := none
  message : Option String := none

/-- How a failure is read, with so many levels of brackets left inside it. -/
def shape (depth : Nat) : Shape Fields Failure where
  slots := [
    ⟨"kind", (·.kind.isSome), fun p => do pure { p with kind := some (← FailureKind.ofJson depth) }⟩,
    ⟨"message", (·.message.isSome), fun p => do pure { p with message := some (← Reader.string) }⟩]
  blank := {}
  lenient := false
  finish p := do pure ⟨← required "kind" p.kind, ← required "message" p.message⟩

def ofJson (depth : Nat) : Reader Failure :=
  record "struct FailureDescription" <| match depth with
    | 0 => none
    | inner + 1 => some (shape inner)

end Failure

namespace Attachment

def toJson (a : Attachment) : List UInt8 :=
  Json.object [Json.member "name" (Json.quoted a.name),
    Json.member "data" (Json.list (a.data.map fun o => Json.integer o.toNat))]

/-- The fields of an attachment met so far. -/
structure Fields where
  name : Option String := none
  data : Option (List UInt8) := none

/-- A list of octets. -/
def dataOfJson (depth : Nat) : Reader (List UInt8) :=
  (List.map fun i => UInt8.ofNat i.toNat) <$>
    Reader.list (if depth = 0 then none else some Value.octetReader)

/-- How an attachment is read, with so many levels of brackets left inside it. -/
def shape (depth : Nat) : Shape Fields Attachment where
  slots := [
    ⟨"name", (·.name.isSome), fun p => do pure { p with name := some (← Reader.string) }⟩,
    ⟨"data", (·.data.isSome), fun p => do pure { p with data := some (← dataOfJson depth) }⟩]
  blank := {}
  lenient := false
  finish p := do pure ⟨← required "name" p.name, ← required "data" p.data⟩

def ofJson (depth : Nat) : Reader Attachment :=
  record "struct Attachment" <| match depth with
    | 0 => none
    | inner + 1 => some (shape inner)

/-- The wire form of all attachments of an operation. -/
def allToJson (attachments : List Attachment) : List UInt8 :=
  Json.list (attachments.map toJson)

def allOfJson (depth : Nat) : Reader (List Attachment) :=
  Reader.list <| match depth with
    | 0 => none
    | inner + 1 => some (ofJson inner)

end Attachment

end TwoPhase
