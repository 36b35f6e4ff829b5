import TwoPhase.Proofs.ClientThreads.Frames
import TwoPhase.Proofs.ClientThreads.Touch
/-
One operation's share of a client and its threads.

A share holds what there is to know about one operation: how the client sees it, the frames that
carry something of it, on whatever threads they are, and its part of the past. A step of the threads is
a step of each share (`step_share`), so an invariant of a single operation can be proved on
shares, where neither the threads nor the other operations are in the way.
-/

set_option autoImplicit false

namespace TwoPhase

open Client (Task Frame Upcall Answer Event Cause)

/-! ## Where an operation stands -/

/-- How far an operation has come, by what has reached it. -/
inductive Standing where
  | submitted
  | prepared
  | ended (outcome : Outcome)

namespace Standing

/-- What becomes of a standing when a cause arrives. Only the first end counts, and a completion only
once the operation is prepared. -/
def after : Standing → Cause → Standing
  | submitted, .prepared _ => prepared
  | submitted, .ended (.failed f) => ended (.failed f)
  | prepared, .ended outcome => ended outcome
  | standing, _ => standing

end Standing

/-! ## What the past tells about an operation -/

/-- A callback begins, or the code that it called is done with it. -/
inductive Turn where
  | began (callback : Callback)
  | ended (callback : Callback)

/-- The callback that a turn begins, if it begins one. -/
def Turn.begun? : Turn → Option Callback
  | began callback => some callback
  | ended _ => none

/-- The callback that a call out makes, if it makes one. -/
def Client.Upcall.callback? : Upcall → Option Callback
  | .notify _ callback => some callback
  | _ => none

namespace Mark

/-- The callbacks that were queued for an operation. -/
def queued (id : OperationId) : Mark → List Callback
  | moved _ shown => shown.filterMap (Event.queuedFor id)
  | _ => []

/-- The calls out that began and concern an operation. -/
def begun (id : OperationId) : Mark → List Upcall
  | moved _ shown => shown.filterMap (Event.begunAbout id)
  | _ => []

/-- The callbacks of an operation that began or ended. -/
def turns (id : OperationId) : Mark → List Turn
  | moved _ shown =>
    ((shown.filterMap (Event.begunAbout id)).filterMap Upcall.callback?).map .began
  | answered u _ => if u.about id then (u.callback?.map Turn.ended).toList else []
  | _ => []

/-- What the submitter of an operation was told. -/
def answers (id : OperationId) : Mark → List (Except ClientError OperationId)
  | moved _ shown => shown.filterMap (Event.answerFor id)
  | _ => []

/-- Where an operation stands afterwards. -/
def stand (id : OperationId) (standing : Option Standing) : Mark → Option Standing
  | enlisted i => if i = id then some .submitted else standing
  | moved t _ =>
    match t.cause? id with
    | some cause => standing.map (·.after cause)
    | none => standing
  | answered .. => standing

end Mark

namespace ClientThreads

/-- The callbacks that were queued for an operation. -/
def queued (s : ClientThreads) (id : OperationId) : List Callback := s.past.flatMap (Mark.queued id)

/-- The calls out that began and concern an operation. -/
def begun (s : ClientThreads) (id : OperationId) : List Upcall := s.past.flatMap (Mark.begun id)

/-- The callbacks of an operation that began or ended. -/
def turns (s : ClientThreads) (id : OperationId) : List Turn := s.past.flatMap (Mark.turns id)

/-- What the submitter of an operation was told. -/
def answers (s : ClientThreads) (id : OperationId) : List (Except ClientError OperationId) :=
  s.past.flatMap (Mark.answers id)

/-- Where an operation stands. -/
def standing (s : ClientThreads) (id : OperationId) : Option Standing :=
  s.past.foldl (Mark.stand id) none

end ClientThreads

/-! ## Shares -/

/-- What there is to know about one operation. -/
structure OperationShare where
  view : View
  frames : List Frame
  enlistings : Nat
  queued : List Callback
  begun : List Upcall
  turns : List Turn
  answers : List (Except ClientError OperationId)
  standing : Option Standing

/-- The share of an operation. -/
def ClientThreads.share (s : ClientThreads) (id : OperationId) : OperationShare where
  view := s.client.view id
  frames := s.frames.filter (Frame.about id)
  enlistings := s.given.count id
  queued := s.queued id
  begun := s.begun id
  turns := s.turns id
  answers := s.answers id
  standing := s.standing id

namespace Client

/-- Whether a frame calls the listener or the sink of an operation, or is about to. -/
def Frame.calls (id : OperationId) : Frame → Bool
  | .todo (.raise (.notify i _)) | .inside (.notify i _) => i = id
  | _ => false

/-- Whether a frame is the deliverer of an operation. -/
def Frame.drains (id : OperationId) : Frame → Bool
  | .todo (.drain i) => i = id
  | _ => false

end Client

/-- Where an operation stands after a move. -/
def Standing.next (id : OperationId) (standing : Option Standing) (t : Task) (enlisted : Bool) :
    Option Standing :=
  if enlisted then some .submitted
  else
    match t.cause? id with
    | some cause => standing.map (·.after cause)
    | none => standing

/-- The frame that a task has among those of an operation, if it concerns the operation. -/
def heldFor (id : OperationId) (t : Task) : List Frame :=
  [Frame.todo t].filter (Frame.about id)

theorem mem_heldFor {id : OperationId} {t : Task} {f : Frame} (h : f ∈ heldFor id t) :
    f = .todo t := List.mem_singleton.mp (List.mem_filter.mp h).1

/-- One thing that can happen to a share. -/
inductive OperationShare.Step (id : OperationId) : OperationShare → OperationShare → Prop
  /-- A thread makes a move. Where it is the deliverer's, nobody is being called: whoever is called
  sits above a deliverer that waits. -/
  | moved {v v' : View} {t : Task} {y : Yield} {before after : List Frame} {n : Nat}
      {queued : List Callback} {begun : List Upcall} {turns : List Turn}
      {answers : List (Except ClientError OperationId)} {standing : Option Standing}
      (touch : Touch id v t v' y)
      (hroom : t = .drain id →
        (before ++ after).countP (Frame.calls id) ≤ (before ++ after).countP (Frame.drains id)) :
      Step id ⟨v, before ++ heldFor id t ++ after, n, queued, begun, turns, answers, standing⟩
        ⟨v', before ++ y.frames ++ after, n + y.enlisted.toNat, queued ++ y.queued,
          begun ++ y.began, turns ++ (y.began.filterMap Upcall.callback?).map .began,
          answers ++ y.answers, Standing.next id standing t y.enlisted⟩
  /-- Foreign code answers. -/
  | answered {v : View} {before after : List Frame} {n : Nat}
      {queued : List Callback} {begun : List Upcall} {turns : List Turn}
      {answers : List (Except ClientError OperationId)} {standing : Option Standing}
      (u : Upcall) (a : Answer) (hu : u.about id = true) :
      Step id ⟨v, before ++ [.inside u] ++ after, n, queued, begun, turns, answers, standing⟩
        ⟨v, before ++ u.resume a ++ after, n, queued, begun,
          turns ++ (u.callback?.map Turn.ended).toList, answers, standing⟩

/-! ## Deliverers and those they call

On every thread, whoever is called sits right above the deliverer that made the call. -/

/-- From any frame of a thread downwards there are at least as many deliverers as callbacks. -/
def Seated (id : OperationId) : List Frame → Prop
  | [] => True
  | f :: rest =>
    (f :: rest).countP (Frame.calls id) ≤ (f :: rest).countP (Frame.drains id) ∧ Seated id rest

namespace Seated

variable {id : OperationId}

/-- Whoever calls the listener of an operation delivers to it. -/
theorem le {stack : List Frame} (h : Seated id stack) :
    stack.countP (Frame.calls id) ≤ stack.countP (Frame.drains id) := by
  cases stack with
  | nil => exact Nat.le_refl _
  | cons f rest => exact h.1

theorem tail {f : Frame} {rest : List Frame} (h : Seated id (f :: rest)) : Seated id rest := h.2

end Seated

namespace Client.Frame

variable {id : OperationId} {f : Frame}

theorem about_of_calls (h : f.calls id = true) : f.about id = true := by
  rcases f with t | u
  · cases t with
    | raise u => cases u <;> simp_all [calls, about, Upcall.about]
    | _ => simp [calls] at h
  · cases u <;> simp_all [calls, about, Upcall.about]

theorem about_of_drains (h : f.drains id = true) : f.about id = true := by
  rcases f with t | u
  · cases t <;> simp_all [drains, about]
  · simp [drains] at h

theorem calls_of_not_about (h : ¬ f.about id = true) : f.calls id = false :=
  Bool.eq_false_iff.mpr fun hcalls => h (about_of_calls hcalls)

theorem drains_of_not_about (h : ¬ f.about id = true) : f.drains id = false :=
  Bool.eq_false_iff.mpr fun hdrains => h (about_of_drains hdrains)

end Client.Frame

/-- The frames that do not concern an operation make no difference to who calls it. -/
theorem countP_calls_filter (id : OperationId) (l : List Frame) :
    (l.filter (Frame.about id)).countP (Frame.calls id) = l.countP (Frame.calls id) := by
  rw [List.countP_filter]
  refine List.countP_congr fun f _ => ?_
  simp only [Bool.and_eq_true, and_iff_left_iff_imp]
  exact Frame.about_of_calls

theorem countP_drains_filter (id : OperationId) (l : List Frame) :
    (l.filter (Frame.about id)).countP (Frame.drains id) = l.countP (Frame.drains id) := by
  rw [List.countP_filter]
  refine List.countP_congr fun f _ => ?_
  simp only [Bool.and_eq_true, and_iff_left_iff_imp]
  exact Frame.about_of_drains

/-- Frames of other operations make no difference to that. -/
theorem seated_filter (id : OperationId) (l : List Frame) :
    Seated id (l.filter (Frame.about id)) ↔ Seated id l := by
  -- frames that are left out add to neither count
  induction l with
  | nil => rfl
  | cons f rest ih =>
    by_cases hf : f.about id = true
    · rw [List.filter_cons_of_pos hf, Seated, Seated, ih, List.countP_cons, List.countP_cons,
        List.countP_cons, List.countP_cons, countP_calls_filter, countP_drains_filter]
    · rw [List.filter_cons_of_neg hf, Seated, ih, List.countP_cons, List.countP_cons,
        Frame.calls_of_not_about hf, Frame.drains_of_not_about hf]
      exact ⟨fun h => ⟨h.le, h⟩, And.right⟩

namespace Seated

variable {id : OperationId}

theorem of_append {first rest : List Frame} (h : Seated id (first ++ rest)) : Seated id rest := by
  induction first with
  | nil => exact h
  | cons f first ih => exact ih h.tail

/-- Frames that call nobody may stand on top of anything. -/
theorem append_of_silent {first rest : List Frame} (hfirst : ∀ f ∈ first, f.calls id = false)
    (h : Seated id rest) : Seated id (first ++ rest) := by
  induction first with
  | nil => exact h
  | cons f first ih =>
    have hrest := ih fun g hg => hfirst g (List.mem_cons_of_mem f hg)
    have hle := hrest.le
    rw [List.cons_append, Seated, List.countP_cons, List.countP_cons,
      hfirst f List.mem_cons_self]
    refine ⟨?_, hrest⟩
    simp only [Bool.false_eq_true, if_false]
    omega

end Seated

theorem calls_drainIf (id : OperationId) (owed : Bool) :
    ∀ f ∈ Client.drainIf id owed, f.calls id = false := by
  intro f hf
  cases owed with
  | false => simp [Client.drainIf] at hf
  | true =>
    obtain rfl : f = .todo (.drain id) := by simpa [Client.drainIf] using hf
    rfl

/-- A move keeps everyone seated: the only move that calls somebody is the deliverer's, which stays
below, and the call itself takes the place of its announcement. -/
theorem Touch.seated {id : OperationId} {v v' : View} {t : Task} {y : Yield} {rest : List Frame}
    (touch : Touch id v t v' y) (h : Seated id (heldFor id t ++ rest)) :
    Seated id (y.frames ++ rest) := by
  have hrest : Seated id rest := h.of_append
  cases touch with
  | accepted | finished | reported | swept => exact hrest.append_of_silent (calls_drainIf id v.owed)
  | popped hdelivery hqueue =>
    -- whoever is called sits right above the deliverer that stays
    have hle := hrest.le
    refine ⟨?_, ?_, hrest⟩
    · simp [Frame.calls, Frame.drains]
      omega
    · simp [Frame.calls, Frame.drains]
      omega
  | @raised u hu =>
    refine ⟨?_, hrest⟩
    have hheld : heldFor id (.raise u) = [.todo (.raise u)] := List.filter_cons_of_pos hu
    rw [hheld] at h
    have hle := h.le
    cases u <;> simpa [List.countP_cons, Frame.calls, Frame.drains] using hle
  | @called callback panicked =>
    refine hrest.append_of_silent fun f hf => ?_
    obtain ⟨o, _, rfl⟩ : ∃ o, callback.outcome? = some o ∧ Frame.todo (.resolve id o) = f := by
      simpa using hf
    rfl
  | resolved =>
    refine hrest.append_of_silent fun f hf => ?_
    obtain ⟨tag, _, rfl⟩ := List.mem_map.mp hf
    rfl
  | @subscribed d tag =>
    refine hrest.append_of_silent fun f hf => ?_
    obtain ⟨o, _, rfl⟩ : ∃ o, (d.outcome.subscribe tag).2 = some o ∧
        Frame.todo (.raise (.outcome id tag o)) = f := by simpa using hf
    rfl
  | _ => exact hrest.append_of_silent (by simp [Frame.calls])

/-! ## From the threads to a share -/

/-- No request is owed anything yet. -/
theorem Request.not_about (id : OperationId) (r : Request) :
    (Frame.todo r.task).about id = false := by
  cases r <;> rfl

/-- What foreign code answers concerns the operation that the call concerned. -/
theorem Client.Upcall.Resumes.filter_about {u : Upcall} {frames : List Frame} (h : u.Resumes frames)
    (id : OperationId) : frames.filter (Frame.about id) = if u.about id then frames else [] := by
  cases h with
  | observed => exact (ite_self []).symm
  | told => exact (ite_self []).symm
  | @decided i d result => cases d <;> exact List.filter_cons
  | _ => exact List.filter_cons

/-- What a call out leaves makes no call by itself. -/
theorem Client.Upcall.Resumes.silent {u : Upcall} {frames : List Frame} (h : u.Resumes frames)
    (id : OperationId) : ∀ f ∈ frames, f.calls id = false := by
  cases h <;> simp [Frame.calls]

namespace ClientThreads

/-- Every thread is seated. -/
def Orderly (s : ClientThreads) (id : OperationId) : Prop := ∀ stack ∈ s.threads, Seated id stack

theorem orderly_fresh (config : Config) (id : OperationId) : (fresh config).Orderly id :=
  fun _ h => by contradiction

/-- Where only one thread changes, only that thread is to be looked at. -/
theorem Orderly.replace {c c' : Client} {past past' : List Mark} {before after : List (List Frame)}
    {stack stack' : List Frame} {id : OperationId}
    (h : Orderly ⟨c, before ++ stack :: after, past⟩ id)
    (hstack : Seated id stack → Seated id stack') :
    Orderly ⟨c', before ++ stack' :: after, past'⟩ id := by
  intro other hother
  simp only [List.mem_append, List.mem_cons] at hother
  rcases hother with hbefore | rfl | hafter
  · exact h other (by simp [hbefore])
  · exact hstack (h stack (by simp))
  · exact h other (by simp [hafter])

/-- Every step keeps the stacks in order: a call of the listener is put right above the deliverer that
makes it. -/
theorem Step.orderly {s s' : ClientThreads} (step : Step s s') {id : OperationId} (h : s.Orderly id) :
    s'.Orderly id := by
  cases step with
  | join =>
    intro stack hstack
    rcases List.mem_append.mp hstack with hold | hnew
    · exact h stack hold
    · rw [List.mem_singleton.mp hnew]
      exact trivial
  | ask r haway =>
    refine h.replace fun hstack => ?_
    rw [← seated_filter, List.filter_cons_of_neg (Bool.eq_false_iff.mp (r.not_about id)), seated_filter]
    exact hstack
  | @move c past before after rest t =>
    refine h.replace fun hstack => ?_
    have touch := c.perform_touch id t
    rw [← seated_filter, List.filter_append]
    refine touch.seated ?_
    rw [heldFor, ← List.filter_append, seated_filter]
    exact hstack
  | answer u a =>
    exact h.replace fun hstack => hstack.tail.append_of_silent ((u.resumes a).silent id)

/-- What one move adds to what the past tells about an operation. -/
theorem marks_digest (c : Client) (t : Task) (id : OperationId) :
    ((c.marks t).flatMap Mark.given).count id = (c.yield t id).enlisted.toNat ∧
      (c.marks t).flatMap (Mark.queued id) = (c.yield t id).queued ∧
      (c.marks t).flatMap (Mark.begun id) = (c.yield t id).began ∧
      (c.marks t).flatMap (Mark.turns id) =
        ((c.yield t id).began.filterMap Upcall.callback?).map .began ∧
      (c.marks t).flatMap (Mark.answers id) = (c.yield t id).answers := by
  rw [Client.marks, Client.yield]
  cases hallots : c.allots t with
  | none => simp [Mark.given, Mark.queued, Mark.begun, Mark.turns, Mark.answers]
  | some i =>
    by_cases hid : i = id
    · simp [Mark.given, Mark.queued, Mark.begun, Mark.turns, Mark.answers, hid]
    · simp [Mark.given, Mark.queued, Mark.begun, Mark.turns, Mark.answers,
        beq_eq_false_iff_ne.mpr hid, hid]

/-- The standing of an operation after a move is the next one of what the move was to it. -/
theorem marks_standing (c : Client) (t : Task) (id : OperationId) (standing : Option Standing) :
    (c.marks t).foldl (Mark.stand id) standing =
      Standing.next id standing t (c.yield t id).enlisted := by
  rw [Client.marks, Client.yield]
  cases hallots : c.allots t with
  | none => simp [Mark.stand, Standing.next]
  | some i =>
    have hcause : t.cause? id = none := by
      cases t <;> simp_all [Client.allots, Client.Task.cause?]
    by_cases hid : i = id
    · simp [Mark.stand, Standing.next, hid]
    · simp [Mark.stand, Standing.next, hid, hcause, beq_eq_false_iff_ne.mpr hid]

/-- The frames of all threads, around the topmost ones of a thread. -/
theorem frames_around (c : Client) (past : List Mark) (before after : List (List Frame))
    (first rest : List Frame) :
    frames ⟨c, before ++ (first ++ rest) :: after, past⟩ =
      before.flatten ++ first ++ (rest ++ after.flatten) := by
  simp [frames]

/-- Where only one thread changes, only its frames are to be looked at. -/
theorem forall_frames_put {P : Frame → Prop} {c c' : Client} {past past' : List Mark}
    {before after : List (List Frame)} {stack stack' : List Frame}
    (h : ∀ f ∈ frames ⟨c, before ++ stack :: after, past⟩, P f)
    (hstack : (∀ f ∈ stack, P f) → ∀ f ∈ stack', P f) :
    ∀ f ∈ frames ⟨c', before ++ stack' :: after, past'⟩, P f := by
  simp only [frames, List.flatten_append, List.flatten_cons, List.forall_mem_append] at h ⊢
  exact ⟨h.1, hstack h.2.1, h.2.2⟩

/-- What concerns an operation stands on the stack that moves, or on one of the others. -/
theorem frames_split (c : Client) (past : List Mark) (before after : List (List Frame))
    (first rest : List Frame) (id : OperationId) :
    (frames ⟨c, before ++ (first ++ rest) :: after, past⟩).filter (Frame.about id) =
      before.flatten.filter (Frame.about id) ++ first.filter (Frame.about id) ++
        (rest.filter (Frame.about id) ++ after.flatten.filter (Frame.about id)) := by
  rw [frames_around, List.filter_append, List.filter_append, List.filter_append]

/-- So there are no more calls of a listener than deliverers, on all stacks together. -/
theorem flatten_le {id : OperationId} {threads : List (List Frame)}
    (h : ∀ stack ∈ threads, Seated id stack) :
    threads.flatten.countP (Frame.calls id) ≤ threads.flatten.countP (Frame.drains id) := by
  induction threads with
  | nil => exact Nat.le_refl _
  | cons stack rest ih =>
    have hfirst := (h stack List.mem_cons_self).le
    have hrest := ih fun other hother => h other (List.mem_cons_of_mem stack hother)
    rw [List.flatten_cons, List.countP_append, List.countP_append]
    omega

/-- Besides a frame that moves there are at least as many deliverers as callbacks. -/
theorem Orderly.others_le {c : Client} {past : List Mark} {before after : List (List Frame)}
    {f : Frame} {rest : List Frame} {id : OperationId}
    (h : Orderly ⟨c, before ++ (f :: rest) :: after, past⟩ id) :
    (before.flatten ++ (rest ++ after.flatten)).countP (Frame.calls id) ≤
      (before.flatten ++ (rest ++ after.flatten)).countP (Frame.drains id) := by
  have hbefore : before.flatten.countP (Frame.calls id) ≤ before.flatten.countP (Frame.drains id) :=
    flatten_le fun stack hstack => h stack (by simp [hstack])
  have hafter : after.flatten.countP (Frame.calls id) ≤ after.flatten.countP (Frame.drains id) :=
    flatten_le fun stack hstack => h stack (by simp [hstack])
  have hrest := (h (f :: rest) (by simp)).tail.le
  simp only [List.countP_append]
  omega

/-- **A step of the threads is a step of each share**, unless it leaves the share as it is. -/
theorem Step.share {s s' : ClientThreads} (step : Step s s') {id : OperationId} (h : s.Orderly id) :
    s'.share id = s.share id ∨ OperationShare.Step id (s.share id) (s'.share id) := by
  cases step with
  | join =>
    exact Or.inl (by simp [ClientThreads.share, frames, given, queued, begun, turns, answers, standing])
  | ask r haway =>
    have hr : ¬ (Frame.todo r.task).about id = true := Bool.eq_false_iff.mp (r.not_about id)
    exact Or.inl (by simp [ClientThreads.share, frames, given, queued, begun, turns, answers, standing, hr])
  | @move c past before after rest t =>
    have touch := c.perform_touch id t
    obtain ⟨hgiven, hqueued, hbegun, hturns, hanswers⟩ := marks_digest c t id
    have hframes := frames_split c past before after [.todo t] rest id
    have hframes' := frames_split (c.perform t).client (past ++ c.marks t) before after
      (c.perform t).frames rest id
    refine Or.inr ?_
    simp only [ClientThreads.share, given, queued, begun, turns, answers, standing,
      List.flatMap_append, List.count_append, List.foldl_append, hgiven, hqueued, hbegun, hturns,
      hanswers, marks_standing, hframes']
    rw [← List.singleton_append (l := rest), hframes]
    refine .moved touch fun _ => ?_
    have hothers := h.others_le
    rw [← countP_calls_filter, ← countP_drains_filter] at hothers
    simpa only [List.filter_append] using hothers
  | @answer c past before after rest u a =>
    have hframes := frames_split c past before after [.inside u] rest id
    have hframes' := frames_split c (past ++ [.answered u a]) before after (u.resume a) rest id
    -- a call about another operation returns without a trace in this share
    by_cases hu : u.about id = true
    · refine Or.inr ?_
      simp only [ClientThreads.share, given, queued, begun, turns, answers, standing,
        List.flatMap_append, List.count_append, List.foldl_append, hframes',
        (u.resumes a).filter_about, hu]
      rw [← List.singleton_append (l := rest), hframes]
      have hheld : [Frame.inside u].filter (Frame.about id) = [.inside u] :=
        List.filter_cons_of_pos hu
      rw [hheld]
      simpa [Mark.given, Mark.queued, Mark.begun, Mark.turns, Mark.answers, Mark.stand, hu] using
        OperationShare.Step.answered u a hu
    · refine Or.inl ?_
      simp only [ClientThreads.share, given, queued, begun, turns, answers, standing,
        List.flatMap_append, List.count_append, List.foldl_append, hframes',
        (u.resumes a).filter_about, hu]
      rw [← List.singleton_append (l := rest), hframes]
      have hheld : [Frame.inside u].filter (Frame.about id) = [] :=
        List.filter_cons_of_neg hu
      rw [hheld]
      simp [Mark.given, Mark.queued, Mark.begun, Mark.turns, Mark.answers, Mark.stand, hu]

end ClientThreads

/-! ## The course of a share -/

namespace OperationShare

/-- The share of an operation that does not exist. -/
def blank : OperationShare := ⟨⟨none, none, none⟩, [], 0, [], [], [], [], none⟩

/-- The share of an operation that was just given its identifier. -/
def newcomer (id : OperationId) (listener : Listener) (operation : Operation)
    (payload : List UInt8) : OperationShare where
  view := ⟨some ⟨operation, .submitted, none⟩,
    some ⟨listener, operation.sink, .idle, .vacant⟩, none⟩
  frames := [.todo (.raise (.send (.execute id payload)))]
  enlistings := 1
  queued := []
  begun := []
  turns := []
  answers := []
  standing := some .submitted

/-- No step takes back that an operation was given its identifier. -/
theorem Step.enlistings_le {id : OperationId} {d d' : OperationShare} (step : Step id d d') :
    d.enlistings ≤ d'.enlistings := by
  cases step with
  | moved touch hroom => exact Nat.le_add_right _ _
  | answered u a hu => exact Nat.le_refl _

/-- What happens to an operation that has its identifier to itself does not give it away again. -/
theorem unenlisted {n : Nat} {enlisted : Bool} (hone : n = 1) (hone' : n + enlisted.toNat = 1) :
    enlisted = false := by
  cases enlisted with
  | false => rfl
  | true =>
    rw [Bool.toNat_true] at hone'
    omega

/-- Nothing happens to an operation before it is given its identifier. -/
theorem Step.of_blank {id : OperationId} {d : OperationShare} (step : Step id blank d) :
    d = blank ∨ ∃ listener operation payload, d = newcomer id listener operation payload := by
  generalize hblank : blank = b at step
  cases step with
  | @answered v before after n queued begun turns answers standing u a hu =>
    have hframes : ([] : List Frame) = before ++ [.inside u] ++ after := congrArg frames hblank
    exact absurd hframes (by simp)
  | @moved v v' t y before after n queued begun turns answers standing touch hroom =>
    have hframes : ([] : List Frame) = before ++ heldFor id t ++ after := congrArg frames hblank
    obtain ⟨hbefore, hheld, hafter⟩ : before = [] ∧ heldFor id t = [] ∧ after = [] := by
      simpa using hframes.symm
    obtain rfl : v = ⟨none, none, none⟩ := (congrArg view hblank).symm
    obtain rfl : n = 0 := (congrArg OperationShare.enlistings hblank).symm
    obtain rfl : queued = [] := (congrArg OperationShare.queued hblank).symm
    obtain rfl : begun = [] := (congrArg OperationShare.begun hblank).symm
    obtain rfl : turns = [] := (congrArg OperationShare.turns hblank).symm
    obtain rfl : answers = [] := (congrArg OperationShare.answers hblank).symm
    obtain rfl : standing = none := (congrArg OperationShare.standing hblank).symm
    subst hbefore hafter
    have hout : (Frame.todo t).about id = false := by
      rw [heldFor, List.filter_eq_nil_iff] at hheld
      exact Bool.eq_false_iff.mpr (hheld _ List.mem_cons_self)
    -- without entry, delivery and handle nothing can happen but the enlistment
    cases touch with
    | aside hframe hcause =>
      refine Or.inl ?_
      have hstanding : Standing.next id none t false = none := by
        rw [Standing.next]
        cases t.cause? id <;> rfl
      simp [hheld, hstanding]
    | enlisted listener operation payload =>
      refine Or.inr ⟨listener, operation, payload, ?_⟩
      simp [newcomer, Standing.next]
    | withdrawn hentry => contradiction
    | asked hhandle hasked => contradiction
    | claimed hentry hphase hdecision => contradiction
    | accepted hentry hphase => contradiction
    | finished hentry hallows => contradiction
    | reported hentry => contradiction
    | swept hentry => contradiction
    | released hdelivery hqueue => contradiction
    | popped hdelivery hqueue => contradiction
    | resolved hdelivery => contradiction
    | subscribed hdelivery => contradiction
    | raised hu => exact absurd hu (Bool.eq_false_iff.mp hout)
    | _ => simp [Frame.about] at hout

end OperationShare

namespace ClientThreads

/-- What holds of every newcomer, and survives every step of an operation that has its identifier to
itself, holds of every operation that exists. -/
theorem share_induction {id : OperationId} {P : OperationShare → Prop}
    (hnew : ∀ listener operation payload, P (.newcomer id listener operation payload))
    (hstep : ∀ d d', P d → d.enlistings = 1 → d'.enlistings = 1 → OperationShare.Step id d d' → P d')
    {config : Config} (schedule : List Choice)
    (hgiven : ((run config schedule).share id).enlistings ≤ 1) :
    (run config schedule).share id = .blank ∨
      ((run config schedule).share id).enlistings = 1 ∧ P ((run config schedule).share id) := by
  -- enlistments are never taken back, so a bound in the end is a bound all along
  revert hgiven
  refine run_induction (P := fun s => s.Orderly id ∧ ((s.share id).enlistings ≤ 1 →
    s.share id = .blank ∨ (s.share id).enlistings = 1 ∧ P (s.share id)))
    ⟨orderly_fresh config id, fun _ => Or.inl rfl⟩ (fun s s' h step => ?_) schedule |>.2
  obtain ⟨horderly, hs⟩ := h
  refine ⟨step.orderly horderly, fun hle => ?_⟩
  rcases step.share horderly with hsame | hstep'
  · rw [hsame] at hle ⊢
    exact hs hle
  · have hmono := hstep'.enlistings_le
    rcases hs (Nat.le_trans hmono hle) with hblank | ⟨hone, hP⟩
    · rw [hblank] at hstep'
      rcases hstep'.of_blank with hstill | ⟨listener, operation, payload, hnewcomer⟩
      · exact Or.inl hstill
      · rw [hnewcomer]
        exact Or.inr ⟨rfl, hnew listener operation payload⟩
    · have hone' : (s'.share id).enlistings = 1 := by omega
      exact Or.inr ⟨hone', hstep _ _ hP hone hone' hstep'⟩

end ClientThreads

end TwoPhase
