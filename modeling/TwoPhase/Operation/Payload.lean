import TwoPhase.Operation.Json
/-
The payload of a submission: the request and its attachments, as they travel. Where reports go stays
with the client. Encoding refuses two things, a request that has no wire form and a text longer than
a frame may be; decoding refuses whatever is not such a text.
-/

set_option autoImplicit false

namespace TwoPhase

/-- The part of an operation that the participant gets to see. -/
structure Payload where
  request : Value
  attachments : List Attachment

/-- Why an operation has no payload. -/
inductive EncodeError where
  | nonFiniteDouble
  | tooLarge (size limit : Nat)
  deriving DecidableEq, Repr

/-- The text of an encoding error. -/
def EncodeError.message : EncodeError → String
  | .nonFiniteDouble => "request contains a non-finite double"
  | .tooLarge size limit =>
    "encoded operation is " ++ String.ofList (Number.digits size) ++ " bytes, limit is " ++
      String.ofList (Number.digits limit)

namespace Payload

open Json Json.Reader

def toJson (p : Payload) : List UInt8 :=
  Json.object [Json.member "request" p.request.toJson,
    Json.member "attachments" (Attachment.allToJson p.attachments)]

/-- The fields of a payload met so far. -/
structure Fields where
  request : Option Value := none
  attachments : Option (List Attachment) := none

/-- How a payload is read, with so many levels of brackets left inside it. -/
def shape (depth : Nat) : Shape Fields Payload where
  slots := [
    ⟨"request", (·.request.isSome), fun p => do
      pure { p with request := some (← Value.ofJson depth) }⟩,
    ⟨"attachments", (·.attachments.isSome), fun p => do
      pure { p with attachments := some (← Attachment.allOfJson depth) }⟩]
  blank := {}
  lenient := false
  finish p := do
    pure ⟨← required "request" p.request, ← required "attachments" p.attachments⟩

def ofJson (depth : Nat) : Reader Payload :=
  record "struct ExecutePayload" <| match depth with
    | 0 => none
    | inner + 1 => some (shape inner)

/-- The octets of a payload, if the request has a wire form and the limit admits its length. -/
def encode (p : Payload) (limit : Nat) : Except EncodeError (List UInt8) :=
  if p.request.isFinite then
    let bytes := p.toJson
    if limit < bytes.length then .error (.tooLarge bytes.length limit) else .ok bytes
  else .error .nonFiniteDouble

/-- The payload that octets spell. -/
def decode (bytes : List UInt8) : Except ReadError Payload := Json.read (ofJson depthLimit) bytes

end Payload

/-- The payload of an operation. -/
def Operation.payload (op : Operation) : Payload := ⟨op.request, op.attachments⟩

end TwoPhase
