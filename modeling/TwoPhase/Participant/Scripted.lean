import TwoPhase.Operation.Table
import TwoPhase.Participant.Handler
/-
A handler that does what requests tell it to. The members of a request say which reports to make,
whether to refuse, and what to answer to each decision, so every way in which a handler may behave
can be asked for.
-/

set_option autoImplicit false

namespace TwoPhase

/-- The requests that were prepared and not decided yet. -/
structure Scripted where
  requests : Table Value

namespace Scripted

/-- Nothing prepared yet. -/
def empty : Scripted := ⟨.empty⟩

/-- The kind of the failures that a request asks for. -/
def failureKind (request : Value) : FailureKind :=
  match (request.get? "reject_kind").bind Value.text? with
  | some "ChannelClosed" => .channelClosed
  | some "SendFailed" => .sendFailed
  | _ => .rejected

/-- The failure that a request asks for under a key. -/
def failure? (request : Value) (key : String) : Option Failure :=
  ((request.get? key).bind Value.text?).map fun message => ⟨failureKind request, message⟩

/-- A report is a pair of a severity and a text. A text that is no string is empty. -/
def report? : Value → Option Report
  | .list [severity, text] =>
    let severity := match severity.text? with
      | some "Error" => Severity.error
      | some "Warn" => Severity.warn
      | _ => Severity.info
    some ⟨severity, text.text?.getD ""⟩
  | _ => none

/-- The reports that a request asks for. -/
def reports (_ : Scripted) (_ : OperationId) (p : Payload) : List Report :=
  (((p.request.get? "reports").bind Value.items?).getD []).filterMap report?

/-- What a prepared request shows when it does not say: its operation and its attachments. -/
def usualResult (id : OperationId) (p : Payload) : Value :=
  (Value.empty.set "id" (.long (Int64.ofNat id.val.toNat))).set "attachments"
    (.list (p.attachments.map fun a => .string a.name))

/-- Refuses a request that asks for it, and otherwise keeps it. -/
def prepare (s : Scripted) (id : OperationId) (p : Payload) : Except Failure Value × Scripted :=
  match failure? p.request "prepare_reject" with
  | some f => (.error f, s)
  | none =>
    (.ok ((p.request.get? "prepare_result").getD (usualResult id p)),
      ⟨s.requests.insert id p.request⟩)

/-- Takes a request out and answers a decision as the request says. -/
def finalize (s : Scripted) (id : OperationId) (decision : Decision) :
    Except Failure Value × Scripted :=
  let request := (s.requests.get? id).getD .undefined
  let rest : Scripted := ⟨s.requests.erase id⟩
  match failure? request (decision.text ++ "_reject") with
  | some f => (.error f, rest)
  | none =>
    (.ok ((request.get? (decision.text ++ "_result")).getD (.string decision.text)), rest)

/-- The scripts as a handler. -/
def handler : Handler Scripted :=
  ⟨reports, prepare, fun s id => finalize s id .commit, fun s id => finalize s id .rollback⟩

end Scripted

end TwoPhase
