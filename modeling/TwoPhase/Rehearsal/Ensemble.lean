import TwoPhase.Participant.KeyValue
import TwoPhase.Rehearsal.Play
/-
Many operations at once on one client. They are all submitted, each for a recorder of its own, and
then all prepared and completed. Operations do not touch one another, so in which order the messages
about different operations come makes no difference, and the order of submission stands for all.
-/

set_option autoImplicit false

namespace TwoPhase.Rehearsal

/-- What became of one operation of many. -/
structure Part where
  id : OperationId
  /-- How many callbacks its recorder got. -/
  callbacks : Nat
  /-- How many of them announced its end. -/
  terminal : Nat
  decisionsSent : Nat
  outcome : Option Outcome

namespace Ensemble

/-- The participant of an ensemble is played by the script. -/
def stage : Stage KeyValue := ⟨KeyValue.handler, KeyValue.lookup⟩

/-- The name of the recorder of an operation. -/
def recorderName (n : Nat) : String := String.ofList (Number.digits n)

/-- The operations from one up to a count. -/
def identifiers (count : Nat) : List Nat := (List.range count).map (· + 1)

/-- Submits all operations, and then prepares and completes each of them. -/
def script (count : Nat) (policy : Policy) (request : Value) : List Step :=
  (identifiers count).map (fun n => .execute (recorderName n) policy ⟨request, [], .discard⟩)
    ++ (identifiers count).flatMap fun n =>
      let id : OperationId := ⟨UInt64.ofNat n⟩
      let number := Int64.ofNat n
      [.deliver (.prepared id (.long number)), .deliver (.completed id (.long (-number)))]

/-- Plays an ensemble to its end. -/
def play (count : Nat) (policy : Policy) (request : Value) : World KeyValue :=
  let (w, _) := (World.fresh (.recording .fresh) .sound KeyValue.empty []).connect {} ⟨false, false⟩
  (w.playAll stage (script count policy request)).1

/-- What became of an operation. -/
def part (w : World KeyValue) (n : Nat) : Part :=
  let id : OperationId := ⟨UInt64.ofNat n⟩
  let recorder := (w.recorders.lookup (recorderName n)).getD (.fresh .hold)
  let sent := match w.channel with
    | .recording c => c.decisionsSent id
    | .loopback _ => 0
  ⟨id, recorder.events.length, recorder.terminalCount, sent, (Handle.live id).outcome? w.client⟩

end Ensemble

end TwoPhase.Rehearsal
