import Mathlib.Data.List.Induction
import TwoPhase.Initiator.PreparedWait
/-
A waiter's slot and what is retrieved from it.

The state of a slot is a function of its history (`slot_run`): the handle in it is the first that arrived,
and its mark says whether an interrupt came since a retrieval was last ended by one. So what a retrieval
returns is told by what happened before it, in whatever order that was. Arrivals may also come while the
consumer is blocked; such a retrieval returns what one at a single moment among them would have returned
(`wait_eq`), so nothing is lost by looking at retrievals one at a time.
-/

set_option autoImplicit false

namespace TwoPhase

/-! ## Histories -/

/-- What happened at a slot: something arrived, or its consumer looked for the handle, and this is what it
got. A retrieval that got nothing goes on waiting. -/
inductive Occasion where
  | arrived (a : Arrival)
  | retrieved (result : Option (Except WaitError Handle))

namespace Occasion

/-- The handle that an arrival brings. -/
def handle? : Occasion → Option Handle
  | arrived (.handle h) => some h
  | arrived (.failure id f) => some (.failed id f)
  | _ => none

/-- Whether the slot was interrupted. -/
def interrupts : Occasion → Bool
  | arrived .interrupt => true
  | _ => false

/-- Whether a retrieval was ended by an interrupt. -/
def interrupted : Occasion → Bool
  | retrieved (some (.error .interrupted)) => true
  | _ => false

end Occasion

/-- The handle that arrived first. -/
def firstHandle (past : List Occasion) : Option Handle := past.findSome? Occasion.handle?

/-- What happened since a retrieval was last ended by an interrupt, or since the start; latest first. -/
def sinceInterrupted (past : List Occasion) : List Occasion :=
  past.reverse.takeWhile fun o => !o.interrupted

/-- Whether the slot was interrupted and no retrieval was ended by that. -/
def isPending (past : List Occasion) : Bool := (sinceInterrupted past).any Occasion.interrupts

theorem firstHandle_concat (past : List Occasion) (o : Occasion) :
    firstHandle (past ++ [o]) = (firstHandle past).or o.handle? := by
  unfold firstHandle
  rw [List.findSome?_append, List.findSome?_singleton]

/-- What happens last is looked at first: a retrieval that an interrupt ends takes back all interrupts
before it. -/
theorem isPending_concat (past : List Occasion) (o : Occasion) :
    isPending (past ++ [o]) = (!o.interrupted && (o.interrupts || isPending past)) := by
  unfold isPending sinceInterrupted
  rw [List.reverse_append, List.reverse_singleton, List.singleton_append, List.takeWhile_cons]
  rcases o.interrupted with _ | _
  · rfl
  · rfl

/-! ## Slots -/

/-- A slot, and what has happened at it. -/
structure SlotHistory where
  slot : PreparedSlot
  past : List Occasion

namespace SlotHistory

/-- What can happen next. -/
inductive Step where
  /-- A callback of the operation comes, or an interrupt. -/
  | arrive (a : Arrival)
  /-- The consumer looks for the handle, with a bound on its wait or without. -/
  | retrieve (bound : Option Span)

/-- Whether a step brings the news that the operation is completed. -/
def Step.completes : Step → Bool
  | arrive (.completion _) => true
  | _ => false

/-- What a step leads to. -/
def act (v : SlotHistory) : Step → SlotHistory
  | .arrive a => ⟨v.slot.after a, v.past ++ [.arrived a]⟩
  | .retrieve bound => ⟨(v.slot.wait bound []).2, v.past ++ [.retrieved (v.slot.wait bound []).1]⟩

/-- A slot at which nothing happened yet. -/
def start : SlotHistory := ⟨.vacant, []⟩

/-- A slot after some steps. -/
def run (steps : List Step) : SlotHistory := steps.foldl act start

/-- What the retrievals returned, first to last. -/
def answers (v : SlotHistory) : List (Option (Except WaitError Handle)) :=
  v.past.filterMap fun
    | .retrieved result => some result
    | .arrived _ => none

end SlotHistory

namespace PreparedSlot

/-- The slot that a history leaves behind. -/
def ofPast (past : List Occasion) : PreparedSlot := ⟨firstHandle past, isPending past⟩

/-- A handle that arrives goes into the slot if it is the first. -/
theorem fill_ofPast {past : List Occasion} {a : Arrival} {h : Handle}
    (hhandle : (Occasion.arrived a).handle? = some h) :
    (ofPast past).fill h = ofPast (past ++ [.arrived a]) := by
  have hpending : isPending (past ++ [.arrived a]) = isPending past := by
    rw [isPending_concat]
    rcases a with _ | _ | _ | _
    · rfl
    · rfl
    · contradiction
    · contradiction
  unfold ofPast
  rw [firstHandle_concat, hhandle, hpending]
  unfold fill
  rcases firstHandle past with _ | first
  · rfl
  · rfl

/-- **An arrival takes the slot along with the history.** -/
theorem after_ofPast (past : List Occasion) (a : Arrival) :
    (ofPast past).after a = ofPast (past ++ [.arrived a]) := by
  rcases a with h | ⟨id, f⟩ | id | _
  · exact fill_ofPast rfl
  · exact fill_ofPast rfl
  · -- a completion leaves both as they are
    unfold ofPast
    rw [firstHandle_concat, isPending_concat]
    show _ = PreparedSlot.mk ((firstHandle past).or none) (isPending past)
    rw [Option.or_none]
    rfl
  · unfold ofPast
    rw [firstHandle_concat, isPending_concat]
    show _ = PreparedSlot.mk ((firstHandle past).or none) true
    rw [Option.or_none]
    rfl

/-! ## Retrievals -/

section
variable {s : PreparedSlot} {bound : Option Span}

/-- How a wait ends in which nothing is seen: by its deadline, if it has one. -/
def deadline (bound : Option Span) : Option (Except WaitError Handle) :=
  (bound.filter Span.hasDeadline).map fun span => .error (.timeout span)

theorem deadline_of_bounded {span : Span} (h : span.hasDeadline = true) :
    deadline (some span) = some (.error (.timeout span)) := by
  unfold deadline
  rw [Option.filter_some_pos h]
  rfl

theorem deadline_of_unbounded (h : ∀ span ∈ bound, span.hasDeadline = false) : deadline bound = none := by
  unfold deadline
  rw [Option.map_eq_none_iff, Option.filter_eq_none_iff]
  intro span hspan hdeadline
  rw [h span hspan] at hdeadline
  contradiction

theorem wait_nil (s : PreparedSlot) (bound : Option Span) :
    s.wait bound [] = (s.poll.1.or (deadline bound), s.poll.2) := rfl

theorem wait_cons (s : PreparedSlot) (bound : Option Span) (a : Arrival) (rest : List Arrival) :
    s.wait bound (a :: rest) =
      ((watch s.poll.1 (s.poll.2.after a) rest).1.or (deadline bound),
        (watch s.poll.1 (s.poll.2.after a) rest).2) := rfl

/-- An interrupt is taken by the retrieval that it ends. -/
theorem wait_of_interrupted (hs : s.handle = none) (hinterrupted : s.interrupted = true)
    (bound : Option Span) : s.wait bound [] = (some (.error .interrupted), .vacant) := by
  rw [wait_nil]
  unfold poll
  rw [hs]
  simp only [hinterrupted, if_true]
  rfl

/-- Where there is nothing to see the deadline decides, and the slot stays as it is. -/
theorem wait_of_calm_vacant (hs : s.handle = none) (hinterrupted : s.interrupted = false)
    (bound : Option Span) : s.wait bound [] = (deadline bound, s) := by
  rw [wait_nil]
  unfold poll
  rw [hs]
  simp only [hinterrupted, Bool.false_eq_true, if_false]
  rfl

theorem poll_unseen (h : s.poll.1 = none) : s.poll.2 = s := by
  unfold poll at h ⊢
  rcases hs : s.handle with _ | handle
  · rw [hs] at h
    by_cases hinterrupted : s.interrupted = true
    · simp [hinterrupted] at h
    · simp [hinterrupted]
  · rfl

/-- **A retrieval during which things arrive is like one at a single moment**, before some of them and
after the others: the first moment at which there is anything to see, or the end. -/
theorem wait_eq (s : PreparedSlot) (bound : Option Span) (arrivals : List Arrival) :
    ∃ before after, arrivals = before ++ after ∧
      (after ≠ [] → (before.foldl PreparedSlot.after s).poll.1 ≠ none) ∧
      s.wait bound arrivals =
        (((before.foldl PreparedSlot.after s).wait bound []).1,
          after.foldl PreparedSlot.after ((before.foldl PreparedSlot.after s).wait bound []).2) := by
  induction arrivals generalizing s with
  | nil => exact ⟨[], [], rfl, fun h => absurd rfl h, rfl⟩
  | cons a rest ih =>
    rcases hpoll : s.poll.1 with _ | seen
    · -- nothing to see yet: the moment is among the rest
      obtain ⟨before, after, hrest, hsees, hwait⟩ := ih (s.after a)
      refine ⟨a :: before, after, by rw [hrest, List.cons_append], hsees, ?_⟩
      have hlater : s.wait bound (a :: rest) = (s.after a).wait bound rest := by
        rw [wait_cons, hpoll, poll_unseen hpoll]
        rfl
      rw [hlater, hwait, List.foldl_cons]
    · refine ⟨[], a :: rest, rfl, ?_, ?_⟩
      · intro _
        rw [List.foldl_nil, hpoll]
        exact Option.some_ne_none seen
      · rw [List.foldl_nil, wait_nil, wait_cons, hpoll, watch_seen, List.foldl_cons]

end

end PreparedSlot

/-! ## Every history -/

namespace SlotHistory

open PreparedSlot

theorem run_concat (steps : List Step) (step : Step) : run (steps ++ [step]) = (run steps).act step := by
  unfold run
  rw [List.foldl_append]
  rfl

/-- A retrieval takes the slot along with the history: the interrupt that it returns is pending no more. -/
theorem retrieve_ofPast (past : List Occasion) (bound : Option Span) :
    ((ofPast past).wait bound []).2 =
      ofPast (past ++ [.retrieved ((ofPast past).wait bound []).1]) := by
  have hkeeps {result : Option (Except WaitError Handle)}
      (hresult : (Occasion.retrieved result).interrupted = false) :
      ofPast past = ofPast (past ++ [.retrieved result]) := by
    unfold ofPast
    rw [firstHandle_concat, isPending_concat, hresult]
    show _ = PreparedSlot.mk ((firstHandle past).or none) (isPending past)
    rw [Option.or_none]
  rcases hfirst : firstHandle past with _ | h
  · by_cases hpending : isPending past = true
    · rw [wait_of_interrupted hfirst hpending]
      unfold ofPast
      rw [firstHandle_concat, isPending_concat, hfirst]
      rfl
    · rw [wait_of_calm_vacant hfirst (Bool.eq_false_iff.mpr hpending)]
      apply hkeeps
      unfold deadline
      rcases bound.filter Span.hasDeadline with _ | span
      · rfl
      · rfl
  · rw [wait_of_filled hfirst, List.foldl_nil]
    exact hkeeps rfl

/-- **The slot is what its history makes of it.** -/
theorem slot_run (steps : List Step) : (run steps).slot = ofPast (run steps).past := by
  induction steps using List.reverseRecOn with
  | nil => rfl
  | append_singleton steps step ih =>
    rw [run_concat]
    rcases step with a | bound
    · show (run steps).slot.after a = _
      rw [ih]
      exact after_ofPast _ a
    · show ((run steps).slot.wait bound []).2 =
        ofPast ((run steps).past ++ [.retrieved ((run steps).slot.wait bound []).1])
      rw [ih]
      exact retrieve_ofPast _ bound

theorem answers_act (v : SlotHistory) (step : Step) : (v.act step).answers = v.answers ++
    match step with
    | .arrive _ => []
    | .retrieve bound => [(v.slot.wait bound []).1] := by
  unfold act answers
  rcases step with a | bound
  · rw [List.filterMap_append]
    rfl
  · rw [List.filterMap_append]
    rfl

/-- Without the completions the slot is the same, and so are the answers. -/
theorem run_uncompleted (steps : List Step) :
    (run (steps.filter fun step => !step.completes)).slot = (run steps).slot ∧
      (run (steps.filter fun step => !step.completes)).answers = (run steps).answers := by
  induction steps using List.reverseRecOn with
  | nil => exact ⟨rfl, rfl⟩
  | append_singleton steps step ih =>
    obtain ⟨hslot, hanswers⟩ := ih
    rw [List.filter_append, run_concat, answers_act]
    by_cases hcompletes : step.completes = true
    · rw [List.filter_cons_of_neg (by simp [hcompletes]), List.filter_nil, List.append_nil]
      rcases step with ⟨h | ⟨id, f⟩ | id | _⟩ | bound
      case arrive.completion => exact ⟨hslot, by rw [hanswers, List.append_nil]⟩
      all_goals contradiction
    · rw [List.filter_cons_of_pos (by simp [hcompletes]), List.filter_nil, run_concat, answers_act,
        hanswers]
      rcases step with a | bound
      · exact ⟨congrArg (·.after a) hslot, rfl⟩
      · constructor
        · show ((run _).slot.wait bound []).2 = ((run steps).slot.wait bound []).2
          rw [hslot]
        · simp only
          rw [hslot]

/-- What a consumer may rely on that retrieves from a slot after some steps. -/
structure Retrieves (steps : List Step) : Prop where
  /-- Once a handle has arrived every retrieval returns the first one, whatever else happened, and
  changes nothing. -/
  handle : ∀ h bound, firstHandle (run steps).past = some h →
    (run steps).slot.wait bound [] = (some (.ok h), (run steps).slot)
  /-- Before that, a retrieval is ended by an interrupt that none was ended by yet. It takes all of them:
  the slot is as it was at the start. -/
  interrupted : ∀ bound, firstHandle (run steps).past = none → isPending (run steps).past = true →
    (run steps).slot.wait bound [] = (some (.error .interrupted), .vacant)
  /-- Otherwise it ends by its deadline, with the bound that was given, and changes nothing. -/
  timeout : ∀ span, firstHandle (run steps).past = none → isPending (run steps).past = false →
    span.hasDeadline = true →
      (run steps).slot.wait (some span) [] = (some (.error (.timeout span)), (run steps).slot)
  /-- Without a bound, or with one so far ahead that it is no deadline, it goes on waiting. -/
  patient : ∀ bound, firstHandle (run steps).past = none → isPending (run steps).past = false →
    (∀ span ∈ bound, span.hasDeadline = false) →
      (run steps).slot.wait bound [] = (none, (run steps).slot)
  /-- Where things arrive while the consumer is blocked, it gets what a retrieval at one moment among them
  gets: the first at which there is anything to see, or the end. -/
  moment : ∀ bound arrivals, ∃ before after, arrivals = before ++ after ∧
    (after ≠ [] → (run (steps ++ before.map .arrive)).slot.poll.1 ≠ none) ∧
    (run steps).slot.wait bound arrivals =
      (((run (steps ++ before.map .arrive)).slot.wait bound []).1,
        after.foldl PreparedSlot.after ((run (steps ++ before.map .arrive)).slot.wait bound []).2)
  /-- Completions make no difference to what was returned, and none to what will be. -/
  completions : (run (steps.filter fun step => !step.completes)).answers = (run steps).answers ∧
    (run (steps.filter fun step => !step.completes)).slot = (run steps).slot

theorem slot_arrivals (steps : List Step) (arrivals : List Arrival) :
    (run (steps ++ arrivals.map .arrive)).slot = arrivals.foldl PreparedSlot.after (run steps).slot := by
  induction arrivals using List.reverseRecOn with
  | nil => rw [List.map_nil, List.append_nil, List.foldl_nil]
  | append_singleton arrivals a ih =>
    rw [List.map_append, ← List.append_assoc, List.map_singleton, run_concat, List.foldl_append, ← ih]
    rfl

/-- **Retrievals follow the slot and its one-shot interrupt exactly**, after every sequence of steps. -/
theorem retrieves (steps : List Step) : Retrieves steps := by
  have hslot := slot_run steps
  constructor
  · intro h bound hfirst
    refine wait_of_filled ?_ bound []
    rw [hslot]
    exact hfirst
  · intro bound hfirst hpending
    apply wait_of_interrupted
    · rw [hslot]
      exact hfirst
    · rw [hslot]
      exact hpending
  · intro span hfirst hpending hdeadline
    rw [← deadline_of_bounded hdeadline]
    apply wait_of_calm_vacant
    · rw [hslot]
      exact hfirst
    · rw [hslot]
      exact hpending
  · intro bound hfirst hpending hunbounded
    rw [← deadline_of_unbounded hunbounded]
    apply wait_of_calm_vacant
    · rw [hslot]
      exact hfirst
    · rw [hslot]
      exact hpending
  · intro bound arrivals
    obtain ⟨before, after, harrivals, hsees, hwait⟩ := wait_eq (run steps).slot bound arrivals
    rw [← slot_arrivals] at hsees hwait
    exact ⟨before, after, harrivals, hsees, hwait⟩
  · exact (run_uncompleted steps).symm

/-- Two interrupts end one retrieval, and none that comes after the handle. -/
example : (run [.arrive .interrupt, .arrive .interrupt, .retrieve none, .retrieve (some (.ofMillis 5)),
      .arrive (.failure ⟨1⟩ .channelClosed), .arrive .interrupt, .arrive (.handle (.live ⟨1⟩)),
      .retrieve none]).answers =
    [some (.error .interrupted), some (.error (.timeout (.ofMillis 5))),
      some (.ok (.failed ⟨1⟩ .channelClosed))] := rfl

end SlotHistory

end TwoPhase
