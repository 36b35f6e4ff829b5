import TwoPhase.Operation.Json
import TwoPhase.Participant.Journal
/-
The wire forms of journal events and entries. Every event is an object whose only key names it and
whose value holds its fields.
-/

set_option autoImplicit false

namespace TwoPhase

open Json Json.Reader

namespace JournalEvent

/-- The events by their tags. -/
def tags : List String :=
  ["Received", "Prepared", "Rejected", "Committed", "RolledBack", "FinalizeFailed"]

/-- A time as a field. -/
def timeField (name : String) (time : UInt64) : List UInt8 :=
  Json.member name (Json.integer time.toNat)

def toJson : JournalEvent → List UInt8
  | received t => Json.tagged "Received" (Json.object [timeField "received_at_millis" t])
  | prepared t => Json.tagged "Prepared" (Json.object [timeField "prepared_at_millis" t])
  | rejected f t =>
    Json.tagged "Rejected"
      (Json.object [Json.member "failure" f.toJson, timeField "rejected_at_millis" t])
  | committed t => Json.tagged "Committed" (Json.object [timeField "completed_at_millis" t])
  | rolledBack t => Json.tagged "RolledBack" (Json.object [timeField "completed_at_millis" t])
  | finalizeFailed d f t =>
    Json.tagged "FinalizeFailed"
      (Json.object [Json.member "decision" d.toJson, Json.member "failure" f.toJson,
        timeField "failed_at_millis" t])

/-- The fields of an event met so far. -/
structure Fields where
  decision : Option Decision := none
  failure : Option Failure := none
  time : Option UInt64 := none

/-- The time of an event, under the name that its kind gives it. -/
def timeSlot (name : String) : Slot Fields :=
  ⟨name, (·.time.isSome), fun p => do pure { p with time := some (← unsigned "u64") }⟩

/-- The failure of an event. -/
def failureSlot (depth : Nat) : Slot Fields :=
  ⟨"failure", (·.failure.isSome), fun p => do pure { p with failure := some (← Failure.ofJson depth) }⟩

/-- The decision of an event. -/
def decisionSlot (depth : Nat) : Slot Fields :=
  ⟨"decision", (·.decision.isSome), fun p => do
    pure { p with decision := some (← Decision.ofJson depth) }⟩

/-- How the fields of an event that is only a time are read. -/
def timeShape (name : String) (make : UInt64 → JournalEvent) : Shape Fields JournalEvent where
  slots := [timeSlot name]
  blank := {}
  lenient := false
  finish p := do pure (make (← required name p.time))

/-- How the fields of an event are read, by its tag. -/
def shape (depth : Nat) (tag : String) : Shape Fields JournalEvent :=
  match tag with
  | "Received" => timeShape "received_at_millis" .received
  | "Prepared" => timeShape "prepared_at_millis" .prepared
  | "Committed" => timeShape "completed_at_millis" .committed
  | "RolledBack" => timeShape "completed_at_millis" .rolledBack
  | "Rejected" =>
    { slots := [failureSlot depth, timeSlot "rejected_at_millis"]
      blank := {}
      lenient := false
      finish := fun p => do
        pure (.rejected (← required "failure" p.failure) (← required "rejected_at_millis" p.time)) }
  | _ =>
    { slots := [decisionSlot depth, failureSlot depth, timeSlot "failed_at_millis"]
      blank := {}
      lenient := false
      finish := fun p => do
        pure (.finalizeFailed (← required "decision" p.decision) (← required "failure" p.failure)
          (← required "failed_at_millis" p.time)) }

/-- An event whose brackets may nest to the given depth. -/
def ofJson (depth : Nat) : Reader JournalEvent :=
  let bare (_ : String) : Reader JournalEvent :=
    fail (.invalidType .unitVariant "struct variant")
  variant tags bare <| match depth with
    | 0 => none
    | inner + 1 => some fun tag =>
      record ("struct variant ParticipantEvent::" ++ tag) <| match inner with
        | 0 => none
        | rest + 1 => some (shape rest tag)

end JournalEvent

namespace JournalEntry

def toJson (e : JournalEntry) : List UInt8 :=
  Json.object [Json.member "sequence" (Json.integer e.sequence.toNat),
    Json.member "recorded_at_millis" (Json.integer e.recordedAt.toNat),
    Json.member "event" e.event.toJson]

/-- The fields of an entry met so far. -/
structure Fields where
  sequence : Option UInt64 := none
  recordedAt : Option UInt64 := none
  event : Option JournalEvent := none

/-- How an entry is read, with so many levels of brackets left inside it. -/
def shape (depth : Nat) : Shape Fields JournalEntry where
  slots := [
    ⟨"sequence", (·.sequence.isSome), fun p => do
      pure { p with sequence := some (← unsigned "u64") }⟩,
    ⟨"recorded_at_millis", (·.recordedAt.isSome), fun p => do
      pure { p with recordedAt := some (← unsigned "u64") }⟩,
    ⟨"event", (·.event.isSome), fun p => do
      pure { p with event := some (← JournalEvent.ofJson depth) }⟩]
  blank := {}
  lenient := false
  finish p := do
    pure ⟨← required "sequence" p.sequence, ← required "recorded_at_millis" p.recordedAt,
      ← required "event" p.event⟩

def ofJson (depth : Nat) : Reader JournalEntry :=
  record "struct JournalEntry" <| match depth with
    | 0 => none
    | inner + 1 => some (shape inner)

end JournalEntry

end TwoPhase
