import TwoPhase.Proofs.RecordingClient.Outcomes
import TwoPhase.Proofs.ClientThreads.Waits
/-
Callers at a recording client that wait for their operation to be prepared.

Between two actions at a recording client nothing is under way, so what is known of the slot of a waiter
where an operation is quiet holds after every action: the slot is filled if and only if the operation is
submitted no more.
-/

set_option autoImplicit false

namespace TwoPhase.RecordingClient

open Client (Task Frame Upcall Answer Event)

variable {habit : Listener → OperationId → Value → Policy}

theorem quiet_run (config : Config) (actions : List Action) (id : OperationId) :
    (run habit config actions).clientThreads.Quiet id := by
  obtain ⟨-, hidle⟩ := @visited_run habit config actions
  simp [ClientThreads.Quiet, ClientThreads.frames, clientThreads, hidle]

/-- **After every action a waiter has the handle that the prospect of its operation promises**, which is
none if and only if the operation is submitted. -/
theorem slot_run (config : Config) (actions : List Action) {n : Nat} {id : OperationId}
    (hgiven : (run habit config actions).clientThreads.given.length < 2 ^ 64 - 1)
    (hok : .ok id ∈ (run habit config actions).clientThreads.answers id)
    (hawaited : (run habit config actions).clientThreads.awaited n = [id]) :
    (((run habit config actions).clientThreads.slot n).isReady = true ↔
        (run habit config actions).client.phaseOf id ≠ some .submitted) ∧
      ∃ prospect, (run habit config actions).clientThreads.prospect id = some prospect ∧
        ((run habit config actions).clientThreads.slot n).handle = prospect.handle? id := by
  have hquiet := @quiet_run habit config actions id
  obtain ⟨hvisited, -⟩ := @visited_run habit config actions
  obtain ⟨schedule, hschedule⟩ := reachable_clientThreads hvisited
  rw [hschedule] at hgiven hok hawaited hquiet
  obtain ⟨delivery, prospect, taken⟩ := ClientThreads.taken_run config schedule hgiven hok
  have hhandle := taken.handle_of_quiet hawaited hquiet
  have hready := taken.foretold.handle_iff id
  rw [← hschedule] at hhandle hready
  refine ⟨?_, prospect, ?_, hhandle⟩
  · show ((run habit config actions).clientThreads.slot n).handle.isSome = true ↔ _
    rw [hhandle]
    exact hready
  · rw [hschedule]
    exact taken.prospect_eq

/-- A waiter whose operation the participant rejects is released before the next action. -/
example :
    ((run (fun _ _ _ => .hold) {} [.execute (.waiter 0) ⟨.undefined, [], .discard⟩,
      .deliver (.failed ⟨1⟩ (.rejected "no"))]).clientThreads.slot 0).isReady = true := by decide +kernel

end TwoPhase.RecordingClient
