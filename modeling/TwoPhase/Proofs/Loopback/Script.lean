import TwoPhase.Proofs.Loopback.Rehearsal
import TwoPhase.Proofs.Loopback.Store
import TwoPhase.Rehearsal.Ensemble
/-
Scripts for a loopback channel are runs of a loopback.

A step of a script stands for an action at a loopback, or for none where it only asks something
(`Step.action?`). Playing the step lets the rehearsal come to its end, and the loopback with it
(`Follows.played`), so a script that is played shows a run (`follows_run`). What was found out about runs
is what a script sees: a name in the store, asked for at the end of a script, has what the last granted
commit asked for (`reply_committed`).
-/

set_option autoImplicit false

namespace TwoPhase.Rehearsal

variable {σ : Type}

/-- The steps that a loopback knows: what somebody does there, and questions. A recorder is only told to
do what it does anyway. -/
def Step.Plain (habit : String → Policy) : Step → Prop
  | .execute name policy _ => policy = habit name
  | .decide .. | .subscribe .. | .closeChannel | .closeClient | .phaseOf _ | .status | .inspect _
  | .describe _ | .poll _ | .isOpen | .participant _ | .committed _ | .read _ | .operations | .recover
  | .recorder _ | .reports _ => True
  | _ => False

/-- What a step does at a loopback. Questions do nothing, nor do steps with a handle that nobody has. -/
def Step.action? (w : World σ) : Step → Option Loopback.Action
  | .execute name _ operation => some (.execute (.recorder name) operation)
  | .decide name d =>
    match w.handles.lookup name with
    | some (.live id) => some (.decide id d)
    | _ => none
  | .subscribe name tag =>
    match w.handles.lookup name with
    | some (.live id) => some (.subscribe id tag)
    | _ => none
  | .closeChannel => some .closeChannel
  | .closeClient => some .closeClient
  | _ => none

/-- What a script does at a loopback. -/
def actionsOf (stage : Stage σ) : World σ → List Step → List Loopback.Action
  | _, [] => []
  | w, s :: rest => (s.action? w).toList ++ actionsOf stage (w.play stage s).1 rest

namespace World

variable {stage : Stage σ} {w w' : World σ} {s : Step}

theorem settle_eq (n : Nat) (w : World σ) :
    settle stage n w = (fun w => World.move w stage)^[n] w := by
  induction n generalizing w with
  | zero => rfl
  | succ n ih =>
    rw [settle, Function.iterate_succ_apply]
    split
    · rename_i hstack
      rw [move_nil hstack]
      exact (Function.iterate_fixed (move_nil hstack) n).symm
    · exact ih _

/-- A world comes to stand still in one way only. -/
theorem settle_of_reaches (h : Reaches stage w w') (hrest : w'.stack = []) {n : Nat}
    (hsettle : (settle stage n w).stack = []) : settle stage n w = w' := by
  obtain ⟨k, rfl⟩ := h
  rw [settle_eq] at hsettle ⊢
  have hfixed (m : Nat) {v : World σ} (hv : v.stack = []) :
      (fun w => World.move w stage)^[m] v = v := Function.iterate_fixed (move_nil hv) m
  rw [← hfixed k hsettle, ← Function.iterate_add_apply, Nat.add_comm, Function.iterate_add_apply,
    hfixed n hrest]

/-- A question is answered in one move. -/
theorem reply_of_answer (hidle : w.stack = []) {r : Reply} (hstep : w.step stage s = w.answer r) :
    (w.play stage s).2.reply = r := by
  obtain ⟨n, hn⟩ : ∃ n, (w.act [.step s]).patience s = n + 1 :=
    ⟨(w.act [.step s]).patience s - 1, by rw [patience]; omega⟩
  have hmove : (w.act [.step s]).move stage = w.answer r :=
    (move_act (w := w.act [.step s]) rfl).trans hstep
  have hanswered : (w.answer r).move stage = w.answer r := move_nil hidle
  have hsettle : settle stage ((w.act [.step s]).patience s) (w.act [.step s]) = w.answer r := by
    rw [hn, settle_eq, Function.iterate_succ_apply, hmove]
    exact Function.iterate_fixed hanswered n
  rw [play, hsettle]
  rfl

end World

namespace Follows

variable {habit : String → Policy} {stage : Stage σ} {w : World σ} {c : Loopback σ}
  {store : σ} {config : Config}

theorem pushed (h : Follows habit w c) (frames : List Frame)
    (hframes : ∀ f ∈ frames, f.Fits w.recorders) :
    Follows habit (w.push frames) { c with stack := frames.filterMap Frame.plain? ++ c.stack } := by
  refine { h with stack := ?_, fits := fun f hf => ?_ }
  · rw [World.push, List.filterMap_append, h.stack]
  · rcases List.mem_append.mp hf with hf | hf
    · exact hframes f hf
    · exact h.fits f hf

/-- A recorder may be heard of that was not heard of before. -/
theorem enlisted (h : Follows habit w c) (name : String) :
    Follows habit (w.enlistRecorder name (habit name)) c ∧
      Known (w.enlistRecorder name (habit name)).recorders (.recorder name) := by
  have hpolicy : ((w.recorders.lookup name).getD (Recorder.fresh (habit name))).policy = habit name := by
    cases hr : w.recorders.lookup name with
    | none => rfl
    | some r => exact h.policies name r hr
  refine ⟨{ h with fits := fun f hf => ?_, policies := ?_, known := fun id d hd => ?_ }, ?_⟩
  · exact (h.fits f hf).mono fun _ => known_put
  · exact policies_put h.policies hpolicy
  · exact known_put (h.known id d hd)
  · rw [Known, World.enlistRecorder, Named.update, Named.lookup_put, if_pos rfl]
    rfl

/-- A collector is of no account. -/
theorem sunk (h : Follows habit w c) (sink : Sink) : Follows habit (w.enlistSink sink) c := by
  cases sink <;> exact { h with }

variable (stage) in
/-- A step begins at a loopback what it stands for. -/
theorem begun (h : Follows habit w c) {s : Step} (hs : s.Plain habit) :
    Follows habit (w.step stage s) ((s.action? w).elim c c.take) := by
  cases s with
  | execute name policy operation =>
    obtain rfl : policy = habit name := hs
    obtain ⟨henlisted, hknown⟩ := h.enlisted name
    have hsunk := henlisted.sunk operation.sink
    have hrecorders : ((w.enlistRecorder name (habit name)).enlistSink operation.sink).recorders =
        (w.enlistRecorder name (habit name)).recorders := by
      cases operation.sink <;> rfl
    simp only [World.step, World.stepAtClient, World.withClient, World.held?, h.held, World.submit,
      hsunk.channel, Channel.isOpen]
    exact hsunk.pushed [_] fun f hf => by
      rw [List.mem_singleton.mp hf, hrecorders]
      exact hknown
  | decide name d =>
    simp only [World.step, World.stepAtHandle, World.withHandle, World.handle?, Step.action?]
    cases hname : w.handles.lookup name with
    | none => exact h.shown _ w.seen
    | some handle =>
      obtain ⟨id, rfl, hid⟩ := h.handles name handle hname
      -- a handle that has a name is one that the client knows, so the request is made
      have htake : c.take (.decide id d) =
          { c with stack := .client (.todo (.decide id d)) :: c.stack } := by
        have hin : c.client.handles.contains id = true := Option.isSome_iff_ne_none.mpr hid
        simp [Loopback.take, Loopback.request?, hin, Loopback.Action.tune, Request.task]
      show Follows habit (w.push [.client (.todo (.decide id d))]) (c.take (.decide id d))
      rw [htake]
      exact h.pushed [_] (by simp [Frame.Fits])
  | subscribe name tag =>
    simp only [World.step, World.stepAtHandle, World.withHandle, World.handle?, Step.action?]
    cases hname : w.handles.lookup name with
    | none => exact h.shown _ w.seen
    | some handle =>
      obtain ⟨id, rfl, hid⟩ := h.handles name handle hname
      exact h.pushed [_, _] (by simp [Frame.Fits])
  | closeChannel =>
    have hclosed : Follows habit { w with channel := .loopback false } { c with isOpen := false } :=
      { h with channel := rfl }
    have hstep : w.step stage .closeChannel = ({ w with channel := .loopback false } : World σ).push
        [.client (.todo (.dispatch .channelClosed)), .act (.give .nothing)] := by
      simp [World.step, World.stepAtChannel, World.arrive, World.pass, World.act, World.push,
        World.isReachable, Channel.close, h.channel, h.heard, h.held]
    rw [hstep]
    exact hclosed.pushed _ (by simp [Frame.Fits])
  | closeClient =>
    simp only [World.step, World.stepAtClient, World.withClient, World.held?, h.held]
    exact h.pushed [_, _] (by simp [Frame.Fits])
  | executeBlocking | dropClient | secondClient | await | interrupt | future | deliver | refuseSends
  | sent | decisionsSent | capture | send | receive | finalize => contradiction
  | phaseOf | status =>
    simp only [World.step, World.stepAtClient, World.withClient, World.held?, h.held]
    exact h.shown _ w.seen
  | inspect name | describe name =>
    simp only [World.step, World.stepAtHandle, World.withHandle]
    cases w.handle? name <;> exact h.shown _ w.seen
  | poll future =>
    simp only [World.step, World.stepAtHandle]
    cases w.futures.lookup future <;> exact h.shown _ w.seen
  | participant name =>
    simp only [World.step, World.stepAtParticipant, h.channel]
    exact h.shown _ w.seen
  | _ => exact h.shown _ w.seen

/-- **A step that is played to its end shows the action that it stands for.** -/
theorem played {actions : List Loopback.Action}
    (h : Follows habit w (Loopback.run (stage.setting store habit config) actions)) {s : Step}
    (hs : s.Plain habit) (hrest : (w.play stage s).1.stack = [])
    (hgiven : (Loopback.run (stage.setting store habit config)
      (actions ++ (s.action? w).toList)).clientThreads.given.length < 2 ^ 64 - 1) :
    Follows habit (w.play stage s).1
      (Loopback.run (stage.setting store habit config) (actions ++ (s.action? w).toList)) := by
  have hbegun := h.begun stage hs
  have hmove : (w.act [.step s]).move stage = w.step stage s :=
    World.move_act (w := w.act [.step s]) rfl
  obtain ⟨w', hreaches, hidle, hfollows⟩ : ∃ w', Reaches stage (w.step stage s) w' ∧ w'.stack = [] ∧
      Follows habit w'
        (Loopback.run (stage.setting store habit config) (actions ++ (s.action? w).toList)) := by
    cases haction : s.action? w with
    | none =>
      -- the loopback stands still already, and the rehearsal has only its reply to give
      rw [haction] at hbegun
      rw [Option.toList_none, List.append_nil]
      exact hbegun.idle stage (Loopback.run_idle actions)
    | some a =>
      rw [haction] at hbegun hgiven
      rw [Option.toList_some, Loopback.run_concat] at hgiven ⊢
      exact hbegun.settled ((Loopback.visited_run actions).taken (Loopback.run_idle actions) a) hgiven
  have hsettle := World.settle_of_reaches (.head (hmove ▸ hreaches)) hidle
    (n := (w.act [.step s]).patience s) hrest
  have hplay : (w.play stage s).1 = { w' with seen := [] } := by
    rw [World.play, hsettle]
    rfl
  rw [hplay]
  exact hfollows.shown w'.reply []

/-- **A script that is played shows a run of the loopback.** -/
theorem playedAll {actions : List Loopback.Action}
    (h : Follows habit w (Loopback.run (stage.setting store habit config) actions)) {steps : List Step}
    (hplain : ∀ s ∈ steps, s.Plain habit)
    (hrest : ∀ k ≤ steps.length, (w.playAll stage (steps.take k)).1.stack = [])
    (hgiven : (Loopback.run (stage.setting store habit config)
      (actions ++ actionsOf stage w steps)).clientThreads.given.length < 2 ^ 64 - 1) :
    Follows habit (w.playAll stage steps).1
      (Loopback.run (stage.setting store habit config) (actions ++ actionsOf stage w steps)) := by
  induction steps generalizing w actions with
  | nil =>
    rw [actionsOf, List.append_nil]
    exact h
  | cons s steps ih =>
    rw [actionsOf, ← List.append_assoc] at hgiven ⊢
    have hfirst : (w.play stage s).1.stack = [] := hrest 1 (by simp)
    have hplayed := h.played (hplain s List.mem_cons_self) hfirst
      (Nat.lt_of_le_of_lt (Loopback.given_le_run _ _) hgiven)
    exact ih hplayed (fun s' hs' => hplain s' (List.mem_cons_of_mem _ hs'))
      (fun k hk => hrest (k + 1) (Nat.succ_le_succ hk)) hgiven

end Follows

/-- A client at an open loopback channel, which nobody used yet. -/
def looped (store : σ) (config : Config) (observer : Observer) : World σ :=
  ((World.fresh (.loopback true) .sound store []).connect config observer).1

theorem follows_looped {habit : String → Policy} (stage : Stage σ) (store : σ) (config : Config)
    (observer : Observer) : Follows habit (looped store config observer)
      (Loopback.fresh (stage.setting store habit config)) where
  held := rfl
  heard := rfl
  unhooked := rfl
  client := rfl
  channel := rfl
  endpoint := rfl
  journal := rfl
  store := rfl
  stack := rfl
  fits _ hf := absurd hf List.not_mem_nil
  policies _ _ hr := by cases hr
  known _ _ hd := by cases hd
  handles _ _ hh := by cases hh

/-- **Scripts for a loopback channel are runs of a loopback.** -/
theorem follows_run {habit : String → Policy} {stage : Stage σ} {store : σ} {config : Config}
    {observer : Observer} {steps : List Step} (hplain : ∀ s ∈ steps, s.Plain habit)
    (hrest : ∀ k ≤ steps.length,
      ((looped store config observer).playAll stage (steps.take k)).1.stack = [])
    (hgiven : (Loopback.run (stage.setting store habit config)
      (actionsOf stage (looped store config observer) steps)).clientThreads.given.length < 2 ^ 64 - 1) :
    Follows habit ((looped store config observer).playAll stage steps).1
      (Loopback.run (stage.setting store habit config)
        (actionsOf stage (looped store config observer) steps)) := by
  have hstart : Follows habit (looped store config observer)
      (Loopback.run (stage.setting store habit config) []) := follows_looped stage store config observer
  exact hstart.playedAll hplain hrest hgiven

/-- **A script that asks for a name is given what the last granted commit asked for.** -/
theorem reply_committed {habit : String → Policy} {config : Config} {w : World KeyValue}
    {c : Loopback KeyValue} (h : Follows habit w c) (hrest : w.stack = [])
    (hvisited : Loopback.Visited (Ensemble.stage.setting KeyValue.empty habit config) c)
    (hidle : c.stack = []) (hgiven : c.clientThreads.given.length < 2 ^ 64 - 1) (name : String) :
    (w.play Ensemble.stage (.committed name)).2.reply = .value (c.committed name).getLast? := by
  have hstored := hvisited.stored hgiven (by rw [hidle, Loopback.granting_nil])
    (by rw [hidle, Loopback.ordering_nil]) name
  rw [World.reply_of_answer hrest (r := .value (w.store.lookup name)) rfl, h.store, hstored]

/-- An eager recorder commits what it is handed; the script asks afterwards. -/
example :
    let write : Operation := ⟨KeyValue.write "x" (.string "one"), [], .discard⟩
    let w := ((looped KeyValue.empty {} ⟨false, false⟩).playAll Ensemble.stage
      [.execute "eager" .commit write, .participant "x"]).1
    w.stack = [] ∧ (w.store.lookup "x").map Value.text? = some (some "one") := by
  decide +kernel

end TwoPhase.Rehearsal
