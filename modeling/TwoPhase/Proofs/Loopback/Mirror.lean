import TwoPhase.Initiator.Handle
import TwoPhase.Participant.KeyValue
import TwoPhase.Proofs.Loopback.Labor
/-
Both ends of a loopback hold the same operations.

Between two actions no operation is on its way, so each is absent at both ends or held at both
(`Engaged.settled`): those that are pending are those whose change the participant holds. An operation
whose decision is granted was decided, and from then on it is under way until its end is queued
(`Open.ending`); so by the time the loopback stands still its outcome is published.
-/

set_option autoImplicit false

namespace TwoPhase

open Client (Task)

/-- An operation that was decided stays decided until its end is queued, unless its submission is
taken back. -/
theorem Touch.ending {id : OperationId} {v v' : View} {t : Task} {y : Yield}
    (touch : Touch id v t v' y) (hknown : y.enlisted = false)
    (hsent : ∀ e, t ≠ .submissionSent id (.error e)) {entry : Pending}
    (hentry : v.entry = some entry) (hdecision : entry.decision ≠ none) :
    (∃ entry', v'.entry = some entry' ∧ entry'.decision ≠ none) ∨
      ∃ outcome, outcome ∈ finals y.queued := by
  cases touch with
  | enlisted => contradiction
  | withdrawn => exact absurd rfl (hsent _)
  | claimed => exact Or.inl ⟨_, rfl, Option.some_ne_none _⟩
  | @accepted other result hother hphase =>
    obtain rfl := Option.some.inj (hentry.symm.trans hother)
    exact Or.inl ⟨_, rfl, hdecision⟩
  | @finished other outcome => exact Or.inr ⟨outcome, by simp⟩
  | swept => exact Or.inr ⟨.failed .channelClosed, List.mem_singleton_self _⟩
  | _ => exact Or.inl ⟨entry, hentry, hdecision⟩

namespace Loopback

variable {σ : Type} {S : Setting σ} {c : Loopback σ}

/-! ## At rest -/

/-- Between two actions an operation is absent at both ends, or held at both. -/
theorem Engaged.settled (h : Engaged c) (hidle : c.stack = []) (id : OperationId) :
    (c.client.pending.get? id = none ∧ c.endpoint.transactions.get? id = none) ∨
      ∃ op t, c.client.pending.get? id = some ⟨op, .prepared, none⟩ ∧
        c.endpoint.transactions.get? id = some (.prepared t) := by
  have link := h.links id
  rw [hidle, legs_nil] at link
  generalize c.client.pending.get? id = entry at link
  generalize c.endpoint.transactions.get? id = x at link
  cases link with
  | absent => exact Or.inl ⟨rfl, rfl⟩
  | held ht => exact Or.inr ⟨_, _, rfl, rfl⟩

theorem Engaged.same_ids (h : Engaged c) (hidle : c.stack = []) :
    c.client.pending.ids = c.endpoint.preparedIds := by
  refine Table.ids_ext c.client.pending.ascending_ids c.endpoint.ascending_preparedIds fun id => ?_
  rw [Table.mem_ids, Endpoint.mem_preparedIds]
  rcases h.settled hidle id with ⟨hentry, hnone⟩ | ⟨op, t, hentry, hheld⟩
  · simp [hentry, hnone]
  · simp [hentry, hheld, Transaction.isPrepared]

/-! ## Decisions that are granted -/

/-- The operation was decided and is under way, or its end was queued. -/
def Ending (c : Loopback σ) (id : OperationId) : Prop :=
  (∃ entry, c.client.pending.get? id = some entry ∧ entry.decision ≠ none) ∨
    ∃ outcome, outcome ∈ finals (c.clientThreads.queued id)

/-- What is pending is not given its identifier once more. -/
theorem unenlisted_of_pending {k : Client} (hunused : k.pending.get? k.nextId = none)
    {id : OperationId} {entry : Pending} (hentry : k.pending.get? id = some entry) (t : Task) :
    (k.yield t id).enlisted = false := by
  rw [Client.yield, beq_eq_false_iff_ne]
  intro hallots
  have hid : id = k.nextId := by
    cases t <;> simp_all [Client.allots]
  rw [hid, hunused] at hentry
  contradiction

theorem queued_move {t : Task} (hpast : (c.move S).past = c.past ++ c.client.marks t)
    (id : OperationId) :
    (c.move S).clientThreads.queued id = c.clientThreads.queued id ++ (c.client.yield t id).queued := by
  show List.flatMap (Mark.queued id) (c.move S).past = _
  rw [hpast, List.flatMap_append, (ClientThreads.marks_digest c.client t id).2.1]
  rfl

theorem Ending.moved {id : OperationId} (h : Ending c id) (engaged : Engaged c)
    (hunused : c.client.pending.get? c.client.nextId = none) : Ending (c.move S) id := by
  rcases client_move (S := S) c with ⟨t, rest, hstack, hclient, hpast⟩ | ⟨hclient, hpast⟩
  · rw [Ending, queued_move hpast, hclient, finals_append]
    rcases h with ⟨entry, hentry, hdecision⟩ | ⟨outcome, houtcome⟩
    · have htouch := c.client.perform_touch id t
      refine (htouch.ending (unenlisted_of_pending hunused hentry t) ?_ hentry hdecision).imp_right
        fun ⟨outcome, houtcome⟩ => ⟨outcome, List.mem_append_right _ houtcome⟩
      -- a submission that the channel refused would be on a leg of its own
      rintro e rfl
      have link := engaged.links id
      rw [hstack] at link
      exact Link.not_lost (by simpa [Frame.leg?, Client.Frame.leg?] using link)
    · exact Or.inr ⟨outcome, List.mem_append_left _ houtcome⟩
  · have hqueued : (c.move S).clientThreads.queued id = c.clientThreads.queued id := by
      show List.flatMap (Mark.queued id) (c.move S).past = _
      rcases hpast with hpast | ⟨u, a, hpast⟩
      · rw [hpast]
        rfl
      · rw [hpast, List.flatMap_append]
        exact List.append_nil _
    rw [Ending, hclient, hqueued]
    exact h

/-- **An operation whose decision is granted, or about to be, has been decided.** -/
theorem Open.ending (h : Open S c) (hgiven : c.clientThreads.given.length < 2 ^ 64) :
    ∀ grant ∈ c.grants, Ending c grant.1 := by
  induction h with
  | fresh => simp [grants, granted, Loopback.fresh]
  | @taken c h hidle a ha ih =>
    intro grant hgrant
    have hrequest : granting (c.take a).stack = [] := by
      rw [stack_take hidle]
      cases hr : c.request? a with
      | none => rfl
      | some r => cases r <;> rfl
    have hsame : (c.take a).grants = c.grants := by
      rw [grants, hrequest, grants, hidle]
      rfl
    exact ih hgiven grant (hsame ▸ hgrant)
  | @moved c h ih =>
    have hbefore := Nat.lt_of_le_of_lt (h.visited.given_le (S := S)) hgiven
    have engaged := h.engaged hbefore
    have hunused := (h.visited.unused hbefore).2
    intro grant hgrant
    refine Ending.moved ?_ engaged hunused
    by_cases hsend : ∃ m rest, c.stack = .client (.inside (.send m)) :: rest
    · obtain ⟨m, rest, hstack⟩ := hsend
      have hold : c.grants = c.granted ++ granting rest := by
        rw [grants, hstack]
        rfl
      have link := engaged.links grant.1
      rw [hstack] at link
      rw [grants_handed hstack engaged.isOpen, List.mem_append, List.mem_append] at hgrant
      rcases hgrant with hgrant | hgrant | hgrant
      · exact ih hbefore grant (hold ▸ List.mem_append_left _ hgrant)
      · -- the decision that is handed over now is the one that was taken down
        obtain rfl := Outbound.eq_decide (Option.mem_toList.mp hgrant)
        obtain ⟨op, t, ht, hentry, -, -⟩ := Link.of_decision
          (by simpa [Frame.leg?, Client.Frame.leg?] using link)
        exact Or.inl ⟨_, hentry, Option.some_ne_none _⟩
      · exact ih hbefore grant (hold ▸ List.mem_append_right _ hgrant)
    · have hkept : (c.move S).grants = c.grants :=
        grants_kept fun m rest hstack => absurd ⟨m, rest, hstack⟩ hsend
      exact ih hbefore grant (hkept ▸ hgrant)

/-! ## Both ends -/

/-- What both ends of an open loopback have in common between two actions. -/
structure Mirrored (c : Loopback σ) : Prop where
  /-- What is pending at the client is what the participant holds. -/
  same : c.client.pending.ids = c.endpoint.preparedIds
  /-- Each of these operations is prepared, and nobody has decided it yet. -/
  undecided : ∀ id entry, c.client.pending.get? id = some entry →
    entry.phase = .prepared ∧ entry.decision = none
  /-- A decision that was granted has led to an outcome. -/
  resolved : ∀ id d, (id, d) ∈ c.granted → ((Handle.live id).outcome? c.client).isSome = true

/-- What is left of a loopback after a close. -/
structure Severed (S : Setting σ) (actions : List Action) : Prop where
  /-- Nothing is pending at the client. -/
  empty : (run S actions).client.pending.ids = []
  /-- What the participant holds never changes again. -/
  stuck : ∀ more, (run S (actions ++ more)).endpoint.preparedIds =
    (run S actions).endpoint.preparedIds

theorem Open.resolved (h : Open S c) (hidle : c.stack = [])
    (hgiven : c.clientThreads.given.length < 2 ^ 64 - 1) {id : OperationId} {d : Decision}
    (hgranted : (id, d) ∈ c.granted) : ((Handle.live id).outcome? c.client).isSome = true := by
  have hgiven' : c.clientThreads.given.length < 2 ^ 64 := by omega
  -- it is under way no longer, so its end was queued
  obtain ⟨outcome, hqueued⟩ : ∃ outcome, outcome ∈ finals (c.clientThreads.queued id) := by
    refine (h.ending hgiven' _ (List.mem_append_left _ hgranted)).resolve_left ?_
    rintro ⟨entry, hentry, hdecision⟩
    rcases (h.engaged hgiven').settled hidle id with ⟨hnone, -⟩ | ⟨op, t, hheld, -⟩
    · exact absurd (hnone.symm.trans hentry) (by simp)
    · obtain rfl := Option.some.inj (hheld.symm.trans hentry)
      exact hdecision rfl
  obtain ⟨schedule, hschedule⟩ := reachable_clientThreads h.visited
  -- without frames whatever was queued is published
  have hquiet : c.clientThreads.frames.filter (Client.Frame.about id) = [] := by
    simp [ClientThreads.frames, clientThreads, hidle]
  rw [hschedule] at hgiven hquiet hqueued
  have htold := ClientThreads.told_of_quiet S.config schedule id hgiven hquiet hqueued
  rw [← hschedule] at htold
  exact Option.isSome_of_eq_some htold

/-- **Both ends of a loopback hold the same operations**, as long as nobody closes anything; and after a
close the client holds none, and the participant is left with what it has. -/
theorem mirrored (S : Setting σ) (actions : List Action)
    (hgiven : (run S actions).clientThreads.given.length < 2 ^ 64 - 1) :
    ((∀ a ∈ actions, a.closes = false) → Mirrored (run S actions)) ∧
      ((∃ a ∈ actions, a.closes = true) → Severed S actions) := by
  have hidle := run_idle (S := S) actions
  refine ⟨fun hopen => ?_, fun hclose => ?_⟩
  · have h := open_run (S := S) hopen
    have engaged := h.engaged (by omega)
    refine ⟨engaged.same_ids hidle, fun id entry hentry => ?_, fun id d hgranted =>
      h.resolved hidle hgiven hgranted⟩
    rcases engaged.settled hidle id with ⟨hnone, -⟩ | ⟨op, t, hheld, -⟩
    · exact absurd (hnone.symm.trans hentry) (by simp)
    · obtain rfl := Option.some.inj (hheld.symm.trans hentry)
      exact ⟨rfl, rfl⟩
  · have hsilent := silent_run (S := S) hclose
    refine ⟨?_, fun more => ?_⟩
    · have hswept : (run S actions).client.Swept := hsilent.swept.resolve_right (by simp [hidle])
      refine List.eq_nil_iff_forall_not_mem.mpr fun id hid => ?_
      rw [Table.mem_ids, hswept.empty id] at hid
      contradiction
    · rw [Endpoint.preparedIds, (hsilent.run more).2.endpoint]
      rfl

/-- A store behind the channel, and listeners of whom one commits as soon as it is called. -/
def exchange : Setting KeyValue where
  handler := KeyValue.handler
  store := .empty
  habit listener _ _ := if listener = .recorder "eager" then .commit else .hold
  clock _ := 0
  config := {}

/-- Three operations: one that waits for its decision, one that is committed from inside the callback,
and one that the store refuses. -/
def exchanged : List Action :=
  [.execute (.recorder "patient") ⟨KeyValue.write "x" (.int 1), [], .discard⟩,
    .execute (.recorder "eager") ⟨KeyValue.write "y" (.boolean true), [], .discard⟩,
    .execute (.recorder "patient") ⟨.undefined, [], .discard⟩]

theorem mirrored_of_exchanged :
    (run exchange exchanged).clientThreads.given.length < 2 ^ 64 - 1 ∧
      (∀ a ∈ exchanged, a.closes = false) ∧
      (run exchange exchanged).client.pending.ids = [⟨1⟩] ∧
      (run exchange exchanged).granted = [(⟨2⟩, .commit)] ∧
      Mirrored (run exchange exchanged) ∧ Severed exchange (exchanged ++ [.closeChannel]) := by
  have hopen : ∀ a ∈ exchanged, a.closes = false := by simp [exchanged, Action.closes]
  have hrun : run exchange exchanged = rehearse exchange 80 exchanged :=
    run_eq_rehearse (by decide +kernel)
  have hclosed : run exchange (exchanged ++ [.closeChannel]) =
      rehearse exchange 80 (exchanged ++ [.closeChannel]) := run_eq_rehearse (by decide +kernel)
  have hgiven : (run exchange exchanged).clientThreads.given.length < 2 ^ 64 - 1 := by
    rw [hrun]
    decide +kernel
  have hgiven' : (run exchange (exchanged ++ [.closeChannel])).clientThreads.given.length < 2 ^ 64 - 1 := by
    rw [hclosed]
    decide +kernel
  refine ⟨hgiven, hopen, ?_, ?_, (mirrored exchange exchanged hgiven).1 hopen,
    (mirrored exchange _ hgiven').2 ⟨.closeChannel, by simp, rfl⟩⟩
  · rw [hrun]
    decide +kernel
  · rw [hrun]
    decide +kernel

end Loopback

end TwoPhase
