import TwoPhase.Rehearsal.Move
/-
Playing a script: each step is taken, and moves are made until the stack is empty again. A script of
finite length comes to its end, since every callback, message and hook is used up once; how many moves
that may take is computed from what the step, the hooks and the world hold.
-/

set_option autoImplicit false

namespace TwoPhase.Rehearsal

namespace World

variable {σ : Type}

/-- What the hooks that are left hold. -/
def hookWeight (w : World σ) : Nat := 
  (w.hooks.map fun h => 1 + Step.weights h.steps).foldr (· + ·) 0

/-- What the deliveries of the client hold: callbacks that are owed, and subscribers. -/
def owedWeight (w : World σ) : Nat :=
  (w.client.deliveries.entries.map fun (_, d) =>
    1 + d.mailbox.queue.length + d.outcome.subscribers.length).foldr (· + ·) 0

/-- A bound on the moves that a step takes. A submission or a message takes less than a hundred with
everything that follows from it. -/
def patience (w : World σ) (s : Step) : Nat := 128 * (1 + s.weight + w.hookWeight + w.owedWeight)

/-- Moves until the stack is empty, or the given number of times. -/
def settle (stage : Stage σ) : Nat → World σ → World σ
  | 0, w => w
  | n + 1, w =>
    match w.stack with
    | [] => w
    | _ => settle stage n (w.move stage)

/-- Takes what was seen out of a world, in its order. -/
def takeSeen (w : World σ) : World σ × List Occurrence := ({ w with seen := [] }, w.seen.reverse)

end World

/-- What one step of a script came to. -/
structure Scene where
  step : Step
  reply : Reply
  seen : List Occurrence
  /-- How many operations are pending afterwards, while the script holds the client. -/
  pending : Option Nat
  /-- The operations that the participant holds prepared afterwards. -/
  prepared : List OperationId
  /-- The captures that names stand for afterwards. -/
  captures : List (String × Nat)

namespace Scene

/-- What reached the capture of a name during the scene. -/
def arrivals (s : Scene) (capture : Nat) : List Inbound :=
  s.seen.filterMap fun
    | .received n m => if n = capture then some m else none
    | _ => none

end Scene

namespace World

variable {σ : Type}

/-- Takes one step to its end. -/
def play (stage : Stage σ) (w : World σ) (s : Step) : World σ × Scene :=
  let ready := w.act [.step s]
  let (w, seen) := (settle stage (ready.patience s) ready).takeSeen
  (w, ⟨s, w.reply, seen, w.held?.map (·.pending.size), w.endpoint.preparedIds, w.captures⟩)

/-- Takes all steps of a script. -/
def playAll (stage : Stage σ) : World σ → List Step → World σ × List Scene
  | w, [] => (w, [])
  | w, s :: rest =>
    let (w, scene) := w.play stage s
    let (w, scenes) := playAll stage w rest
    (w, scene :: scenes)

end World

end TwoPhase.Rehearsal
