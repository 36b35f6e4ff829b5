import TwoPhase.Initiator.Handle
import TwoPhase.Proofs.ClientThreads.Withdrawals
/-
What there is to wait for before an operation is prepared.

Whoever submits an operation waits for the first phase to be over. Three things can end it: the operation
is prepared, it fails, or a sweep takes it. `Prospect` says which of them came first, and is read off the
past alone, from the tasks that threads have carried out. `Foretold` ties it to the phase of the entry
and to the callbacks that the listener is to hear, and holds of every operation whose submission was not
taken back (`foretold_run`).
-/

set_option autoImplicit false

namespace TwoPhase

open Client (Task Frame Upcall Answer Event Cause)

/-! ## Prospects -/

/-- How the first phase of an operation ends. A sweep is set apart from every other failure, whatever
that failure says of itself. -/
inductive Prospect where
  | pending
  | prepared (result : Value)
  | refused (f : Failure)
  | swept

namespace Prospect

/-- What a task makes of a prospect. Only the first end counts, and a completion is none. -/
def upon (id : OperationId) : Prospect → Task → Prospect
  | .pending, .accept i result => if i = id then prepared result else .pending
  | .pending, .finish i (.failed f) _ => if i = id then refused f else .pending
  | .pending, .sweep => swept
  | prospect, _ => prospect

/-- The handle that a waiter is to be given, once the first phase is over. -/
def handle? (id : OperationId) : Prospect → Option Handle
  | .pending => none
  | prepared _ => some (.live id)
  | refused f => some (.failed id f)
  | swept => some (.failed id .channelClosed)

/-- Why the operation failed before it was prepared, if it did. -/
def failure? : Prospect → Option Failure
  | .pending | prepared _ => none
  | refused f => some f
  | swept => some .channelClosed

theorem handle_of_failure {prospect : Prospect} {f : Failure} (h : prospect.failure? = some f)
    (id : OperationId) : prospect.handle? id = some (.failed id f) := by
  cases prospect with
  | pending | prepared => contradiction
  | refused reason =>
    obtain rfl := Option.some.inj h
    rfl
  | swept =>
    obtain rfl := Option.some.inj h
    rfl

end Prospect

/-- The prospect of an operation afterwards. -/
def Mark.foresee (id : OperationId) (prospect : Option Prospect) : Mark → Option Prospect
  | enlisted i => if i = id then some .pending else prospect
  | moved t _ => prospect.map (·.upon id t)
  | answered .. => prospect

/-- The prospect of an operation, from the moment at which it is given its identifier. -/
def ClientThreads.prospect (s : ClientThreads) (id : OperationId) : Option Prospect :=
  s.past.foldl (Mark.foresee id) none

/-- How the phase of an operation, its prospect and what its listener is to hear belong together. -/
inductive Foretold : Option Phase → Prospect → List Callback → Prop
  | pending : Foretold (some .submitted) .pending []
  | prepared {result : Value} :
      Foretold (some .prepared) (.prepared result) [.prepared result]
  | ended {result : Value} {outcome : Outcome} :
      Foretold none (.prepared result) [.prepared result, outcome.callback]
  | refused {f : Failure} : Foretold none (.refused f) [.failed f]
  | swept : Foretold none .swept [.failed .channelClosed]

namespace Foretold

variable {phase : Option Phase} {prospect : Prospect} {told : List Callback}

/-- The first phase is over when the operation is submitted no more. -/
theorem handle_iff (h : Foretold phase prospect told) (id : OperationId) :
    (prospect.handle? id).isSome = true ↔ phase ≠ some .submitted := by
  cases h <;> simp [Prospect.handle?]

/-- An operation that failed before it was prepared hears of that, and of nothing else. -/
theorem told_of_failure (h : Foretold phase prospect told) {f : Failure}
    (hf : prospect.failure? = some f) : phase = none ∧ told = [.failed f] := by
  cases h with
  | pending | prepared | ended => contradiction
  | refused =>
    obtain rfl := Option.some.inj hf
    exact ⟨rfl, rfl⟩
  | swept =>
    obtain rfl := Option.some.inj hf
    exact ⟨rfl, rfl⟩

/-- Whoever waits for an operation that was prepared is to hear of that. -/
theorem mem_of_prepared {result : Value} (h : Foretold phase (.prepared result) told) :
    .prepared result ∈ told := by
  cases h <;> exact List.mem_cons_self

/-- The listener hears once that the operation is prepared, and with which result. -/
theorem result_of_mem (h : Foretold phase prospect told) {result : Value}
    (hmem : .prepared result ∈ told) : prospect = .prepared result := by
  cases h with
  | pending => contradiction
  | prepared => simpa [eq_comm] using hmem
  | @ended first outcome =>
    rcases List.mem_cons.mp hmem with heq | hlast
    · obtain rfl := Callback.prepared.inj heq
      rfl
    · cases outcome <;> simp [Outcome.callback] at hlast
  | refused | swept => simp at hmem

end Foretold

/-! ## What one move does to a prospect -/

/-- A cause that is refused leaves a prospect as it is. -/
theorem Foretold.upon_of_aside {v : View} {prospect : Prospect} {told : List Callback} {id : OperationId}
    {t : Task} (h : Foretold (v.entry.map (·.phase)) prospect told)
    (hcause : ∀ cause, t.cause? id = some cause → v.Refuses cause) :
    prospect.upon id t = prospect := by
  generalize hphase : v.entry.map (·.phase) = phase at h
  cases h with
  | pending =>
    -- a submitted operation admits that it is prepared, and that it fails
    obtain ⟨entry, hentry, hsubmitted⟩ := Option.map_eq_some_iff.mp hphase
    cases t with
    | accept i result =>
      by_cases hid : i = id
      · have hrefused := hcause (.prepared result) (if_pos hid) entry hentry
        rw [hsubmitted] at hrefused
        contradiction
      · exact if_neg hid
    | finish i outcome kind =>
      cases outcome with
      | completed result => rfl
      | failed f =>
        by_cases hid : i = id
        · have hrefused := hcause (.ended (.failed f)) (if_pos hid) entry hentry
          rw [hsubmitted] at hrefused
          contradiction
        · exact if_neg hid
    | sweep =>
      have hrefused := hcause (.ended (.failed .channelClosed)) rfl entry hentry
      rw [hsubmitted] at hrefused
      contradiction
    | _ => rfl
  | _ => rfl

/-- An operation that leaves the table with an outcome has its prospect, or gets it now. -/
theorem Foretold.finish {entry : Pending} {prospect : Prospect} {told : List Callback}
    {id : OperationId} {outcome : Outcome} {kind : String}
    (h : Foretold (some entry.phase) prospect told)
    (hallows : entry.phase.allows (Client.finalPhase outcome) = true) :
    Foretold none (prospect.upon id (.finish id outcome kind)) (told ++ [outcome.callback]) := by
  generalize hphase : entry.phase = phase at h hallows
  cases h with
  | pending =>
    cases outcome with
    | completed result => contradiction
    | failed f =>
      show Foretold none (if id = id then .refused f else .pending) ([] ++ [.failed f])
      rw [if_pos rfl]
      exact .refused
  | prepared => exact .ended

theorem Foretold.sweep {entry : Pending} {prospect : Prospect} {told : List Callback}
    {id : OperationId} (h : Foretold (some entry.phase) prospect told) :
    Foretold none (prospect.upon id .sweep) (told ++ [.failed .channelClosed]) := by
  generalize entry.phase = phase at h
  cases h with
  | pending => exact .swept
  | prepared => exact @Foretold.ended _ (.failed .channelClosed)

/-- A task that is no cause leaves every prospect as it is. -/
theorem Prospect.upon_of_silent {id : OperationId} {t : Task} (h : t.cause? id = none)
    (prospect : Prospect) : prospect.upon id t = prospect := by
  cases prospect with
  | pending =>
    cases t with
    | accept i result =>
      by_cases hid : i = id
      · rw [Task.cause?, if_pos hid] at h
        contradiction
      · exact if_neg hid
    | finish i outcome kind =>
      by_cases hid : i = id
      · rw [Task.cause?, if_pos hid] at h
        contradiction
      · cases outcome with
        | completed result => rfl
        | failed f => exact if_neg hid
    | sweep => contradiction
    | _ => rfl
  | _ => rfl

/-- A move takes an operation along with its prospect, or takes its submission back. -/
theorem Touch.foretold {id : OperationId} {v v' : View} {t : Task} {y : Yield}
    (touch : Touch id v t v' y) (hknown : y.enlisted = false) {prospect : Prospect}
    {queued : List Callback} (h : Foretold (v.entry.map (·.phase)) prospect (heard queued)) :
    (∃ e, .error e ∈ y.answers) ∨
      Foretold (v'.entry.map (·.phase)) (prospect.upon id t) (heard (queued ++ y.queued)) := by
  -- what takes effect on the entry is what the prospect goes by; the rest queues reports at most
  cases touch with
  | enlisted => contradiction
  | withdrawn hentry => exact Or.inl ⟨_, List.mem_singleton_self _⟩
  | aside hframe hcause =>
    refine Or.inr ?_
    rw [h.upon_of_aside hcause, List.append_nil]
    exact h
  | @accepted entry result hentry hphase =>
    refine Or.inr ?_
    rw [hentry, Option.map_some, hphase] at h
    rw [heard_append, heard_prepared]
    cases hheard : heard queued with
    | nil =>
      rw [hheard] at h
      cases h with
      | pending =>
        show Foretold (some .prepared) (if id = id then .prepared result else .pending) _
        rw [if_pos rfl]
        exact .prepared
    | cons callback rest =>
      rw [hheard] at h
      cases h
  | @finished entry outcome kind hentry hallows =>
    refine Or.inr ?_
    rw [hentry] at h
    rw [heard_append, heard_callback]
    exact Foretold.finish h hallows
  | @swept entry hentry =>
    refine Or.inr ?_
    rw [hentry] at h
    rw [heard_append, heard_failed]
    exact Foretold.sweep h
  | @reported entry severity text hentry =>
    refine Or.inr ?_
    rw [heard_append, heard_report, List.append_nil, Prospect.upon_of_silent rfl]
    exact h
  | @claimed entry d hentry hphase hdecision =>
    refine Or.inr ?_
    rw [List.append_nil, Prospect.upon_of_silent rfl]
    rw [hentry] at h
    exact h
  | _ =>
    refine Or.inr ?_
    rw [List.append_nil, Prospect.upon_of_silent rfl]
    exact h

/-- Whoever is given its identifier is submitted, and nothing was queued for it. -/
theorem Touch.of_enlisted {id : OperationId} {v v' : View} {t : Task} {y : Yield}
    (touch : Touch id v t v' y) (h : y.enlisted = true) :
    v'.entry.map (·.phase) = some .submitted ∧ y.queued = [] := by
  cases touch with
  | enlisted listener operation payload => exact ⟨rfl, rfl⟩
  | _ => contradiction

namespace ClientThreads

/-- What one move makes of a prospect. -/
theorem marks_prospect (c : Client) (t : Task) (id : OperationId) (prospect : Option Prospect) :
    (c.marks t).foldl (Mark.foresee id) prospect =
      if (c.yield t id).enlisted = true then some .pending else prospect.map (·.upon id t) := by
  rw [Client.marks, Client.yield]
  cases hallots : c.allots t with
  | none => rfl
  | some i => by_cases hid : i = id <;> simp [Mark.foresee, hid]

/-! ## Every schedule -/

/-- What is known of the prospect of an operation, before and after it is given its identifier. -/
structure Foreseen (s : ClientThreads) (id : OperationId) : Prop where
  unknown : id ∉ s.given → s.client.pending.get? id = none ∧ s.queued id = []
  known : id ∈ s.given → ∃ prospect, s.prospect id = some prospect ∧
    Foretold (s.client.phaseOf id) prospect (heard (s.queued id))

theorem Foreseen.move {c : Client} {past : List Mark} {threads threads' : List (List Frame)}
    {id : OperationId} (t : Task) (h : Foreseen ⟨c, threads, past⟩ id)
    (hcount : ((past ++ c.marks t).flatMap Mark.given).count id ≤ 1) :
    Refused ⟨(c.perform t).client, threads', past ++ c.marks t⟩ id ∨
      Foreseen ⟨(c.perform t).client, threads', past ++ c.marks t⟩ id := by
  have touch := c.perform_touch id t
  obtain ⟨hgiven, hqueued, -, -, hanswers⟩ := marks_digest c t id
  have hprospect := marks_prospect c t id (past.foldl (Mark.foresee id) none)
  rw [← List.foldl_append] at hprospect
  have hmem : id ∈ (past ++ c.marks t).flatMap Mark.given ↔
      id ∈ past.flatMap Mark.given ∨ (c.yield t id).enlisted = true := by
    rw [List.flatMap_append, List.mem_append, ← List.count_pos_iff (l := (c.marks t).flatMap _),
      hgiven]
    cases (c.yield t id).enlisted <;> simp
  have hqueued' : (past ++ c.marks t).flatMap (Mark.queued id) =
      past.flatMap (Mark.queued id) ++ (c.yield t id).queued := by
    rw [List.flatMap_append, hqueued]
  rw [List.flatMap_append, List.count_append, hgiven] at hcount
  by_cases hold : id ∈ past.flatMap Mark.given
  · have henlisted : (c.yield t id).enlisted = false := by
      have hpos := List.count_pos_iff.mpr hold
      cases henlisted : (c.yield t id).enlisted with
      | false => rfl
      | true =>
        rw [henlisted, Bool.toNat_true] at hcount
        omega
    obtain ⟨p, hp, foretold⟩ := h.known hold
    have hp : past.foldl (Mark.foresee id) none = some p := hp
    rcases touch.foretold henlisted foretold with ⟨e, he⟩ | hforetold
    · refine Or.inl ⟨e, ?_⟩
      rw [answers, List.flatMap_append, hanswers]
      exact List.mem_append_right _ he
    · refine Or.inr ⟨fun hunknown => absurd (hmem.mpr (Or.inl hold)) hunknown, fun _ => ?_⟩
      refine ⟨p.upon id t, ?_, ?_⟩
      · rw [prospect, hprospect, henlisted, hp]
        rfl
      · rw [queued, hqueued']
        exact hforetold
  · -- it stays unknown, or this is the move that gives it
    obtain ⟨hentry, hnone⟩ := h.unknown hold
    have hnone : past.flatMap (Mark.queued id) = [] := hnone
    refine Or.inr ?_
    cases henlisted : (c.yield t id).enlisted with
    | false =>
      obtain ⟨hentry', hqueued⟩ := touch.of_gone henlisted hentry
      refine ⟨fun _ => ⟨hentry', ?_⟩, fun hknown => ?_⟩
      · rw [queued, hqueued', hnone, hqueued]
        rfl
      · rw [given, hmem, henlisted] at hknown
        exact absurd hknown (by simp [hold])
    | true =>
      obtain ⟨hphase, hqueued⟩ := touch.of_enlisted henlisted
      refine ⟨fun hunknown => absurd (hmem.mpr (Or.inr henlisted)) hunknown, fun _ => ?_⟩
      refine ⟨.pending, ?_, ?_⟩
      · rw [prospect, hprospect, henlisted]
        rfl
      · rw [queued, hqueued', hnone, hqueued]
        show Foretold (((c.perform t).client.pending.get? id).map (·.phase)) .pending []
        rw [show ((c.perform t).client.pending.get? id).map (·.phase) = some .submitted from hphase]
        exact .pending

/-- **Every operation whose submission was not taken back has the prospect that its phase and its
callbacks show.** -/
theorem foretold_run (config : Config) (schedule : List Choice) (id : OperationId)
    (hgiven : (run config schedule).given.length < 2 ^ 64 - 1) :
    (run config schedule).Refused id ∨ (run config schedule).Foreseen id := by
  -- identifiers are never taken back, so a bound in the end is a bound all along
  have hcount := count_given_le config schedule id hgiven
  revert hcount
  refine run_induction (P := fun s => s.given.count id ≤ 1 → s.Refused id ∨ s.Foreseen id)
    (fun _ => Or.inr ⟨fun _ => ⟨rfl, rfl⟩, fun h => by contradiction⟩) (fun s s' h step hcount => ?_)
    schedule
  cases step with
  | join => exact (h hcount).imp_right fun h => ⟨h.unknown, h.known⟩
  | ask r haway => exact (h hcount).imp_right fun h => ⟨h.unknown, h.known⟩
  | @answer c past before after rest u a =>
    have hgiven : (past ++ [Mark.answered u a]).flatMap Mark.given = past.flatMap Mark.given := by
      simp [Mark.given]
    rw [given, hgiven] at hcount
    rcases h hcount with ⟨e, he⟩ | ⟨unknown, known⟩
    · refine Or.inl ⟨e, ?_⟩
      rw [answers, List.flatMap_append]
      exact List.mem_append_left _ he
    · refine Or.inr ⟨?_, ?_⟩
      · simpa [given, queued, Mark.given, Mark.queued] using unknown
      · simpa [given, queued, prospect, Mark.given, Mark.queued, Mark.foresee] using known
  | @move c past before after rest t =>
    have hle : (past.flatMap Mark.given).count id ≤ 1 := by
      rw [given, List.flatMap_append, List.count_append] at hcount
      omega
    rcases h hle with ⟨e, he⟩ | h
    · refine Or.inl ⟨e, ?_⟩
      rw [answers, List.flatMap_append]
      exact List.mem_append_left _ he
    · exact h.move t hcount

end ClientThreads

end TwoPhase
