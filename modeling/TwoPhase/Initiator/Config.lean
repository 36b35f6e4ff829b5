import TwoPhase.Operation.Json
import TwoPhase.Span
/-
What can be set about a client. A configuration text may leave any of it out.
-/

set_option autoImplicit false

namespace TwoPhase

/-- The settings of a client. -/
structure Config where
  /-- The longest payload that is submitted. -/
  maxFrameBytes : UInt64 := 16777216
  /-- The bound on a blocking wait for the prepared operation; without one the wait is unbounded. -/
  prepareTimeoutMillis : Option UInt64 := none
  /-- The bound on a wait for the outcome when the caller gives none. -/
  finalOutcomeTimeoutMillis : UInt64 := 300000
  deriving DecidableEq, Repr

namespace Config

/-- The bound on a blocking wait for the prepared operation. -/
def prepareTimeout (c : Config) : Option Span :=
  c.prepareTimeoutMillis.map fun n => Span.ofMillis n.toNat

/-- The bound on a wait for the outcome. -/
def finalOutcomeTimeout (c : Config) : Span := Span.ofMillis c.finalOutcomeTimeoutMillis.toNat

open Json Json.Reader

/-- The settings met so far. -/
structure Fields where
  maxFrameBytes : Option UInt64 := none
  prepareTimeoutMillis : Option (Option UInt64) := none
  finalOutcomeTimeoutMillis : Option UInt64 := none

/-- How a configuration is read. Whatever is left out keeps its default. -/
def shape : Shape Fields Config where
  slots := [
    ⟨"max_frame_bytes", (·.maxFrameBytes.isSome), fun p => do
      pure { p with maxFrameBytes := some (← unsigned "usize") }⟩,
    ⟨"prepare_timeout_millis", (·.prepareTimeoutMillis.isSome), fun p => do
      pure { p with prepareTimeoutMillis := some (← Reader.optional (unsigned "u64")) }⟩,
    ⟨"final_outcome_timeout_millis", (·.finalOutcomeTimeoutMillis.isSome), fun p => do
      pure { p with finalOutcomeTimeoutMillis := some (← unsigned "u64") }⟩]
  blank := {}
  lenient := true
  finish p :=
    let usual : Config := {}
    .ok {
      maxFrameBytes := p.maxFrameBytes.getD usual.maxFrameBytes
      prepareTimeoutMillis := p.prepareTimeoutMillis.getD usual.prepareTimeoutMillis
      finalOutcomeTimeoutMillis :=
        p.finalOutcomeTimeoutMillis.getD usual.finalOutcomeTimeoutMillis }

/-- The configuration that a text gives. -/
def ofText (text : List UInt8) : Except ReadError Config :=
  Json.read (record "struct ClientConfig" (some shape)) text

end Config

end TwoPhase
