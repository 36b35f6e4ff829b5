import TwoPhase.Participant.KeyValue
import TwoPhase.Proofs.SerialEndpoint.Basic
import TwoPhase.Proofs.EndpointThreads.Staging
/-
What a store of named values has staged behind an endpoint.

The endpoint and the store keep a table each: of the operations that are held prepared, and of the writes
that are staged. Neither looks at the other's. They agree whenever a message can be handed in; in between,
the frame on top may know of one operation whose write is staged though the endpoint does not hold it.
With that frame counted in they agree at every move (`Lockstep`), and so the store always finds what it is
asked to commit.
-/

set_option autoImplicit false

namespace TwoPhase

open Endpoint (Task Upcall Stride)

/-! ## What tells of a decision that failed -/

theorem append_ne_of_not_prefix {first rest text : String} (h : ¬ first.toList <+: text.toList) :
    first ++ rest ≠ text := by
  intro heq
  apply h
  rw [← heq, String.toList_append]
  exact List.prefix_append _ _

/-- A request that the store refuses is not refused for want of what is staged. -/
theorem KeyValue.message_of_target {request : Value} {f : Failure}
    (h : KeyValue.target request = .error f) : f.message ≠ "nothing staged" := by
  unfold KeyValue.target at h
  split at h
  · split at h
    · contradiction
    · obtain rfl := Except.error.inj h
      decide
  · obtain rfl := Except.error.inj h
    decide

namespace Endpoint

/-- A call that does not tell of a decision that failed. -/
def Upcall.Dutiful : Upcall → Prop
  | .record _ (.finalizeFailed ..) => False
  | .reply (.failed _ f) => f.message ≠ "nothing staged"
  | _ => True

/-- A frame that does not lead to one. -/
def Frame.Dutiful : Frame → Prop
  | .todo (.raise u) | .inside u => u.Dutiful
  | .todo (.prepared _ (.error f)) => f.message ≠ "nothing staged"
  | .todo (.finalized _ _ (.error _)) => False
  | _ => True

attribute [local simp] Frame.Dutiful Upcall.Dutiful

/-- The endpoint refuses decisions and payloads in words of its own. -/
theorem dutiful_perform {e : Endpoint} {now : UInt64} {t : Task} (h : (Frame.todo t).Dutiful) :
    ∀ f ∈ (e.perform now t).frames, f.Dutiful := by
  have htake (id : OperationId) (decision : Decision) :
      ∀ f ∈ (e.take id decision).frames, f.Dutiful := by
    -- the two texts already differ in how they begin, whatever the identifier is
    have hrefusal :
        (Failure.rejected ("no prepared operation " ++ id.text)).message ≠ "nothing staged" := by
      apply append_ne_of_not_prefix
      decide
    unfold take
    split
    · simp
    · simp [hrefusal]
  -- the other failures are the handler's own, of which `h` says that they are dutiful
  unfold perform
  split
  · unfold enter
    split <;> simp
  · exact htake _ .commit
  · exact htake _ .rollback
  · unfold decode
    split
    · simp
    · rename_i f _
      have hrefusal :
          (Failure.rejected ("malformed operation: " ++ f.message)).message ≠ "nothing staged" := by
        apply append_ne_of_not_prefix
        decide
      simp [hrefusal]
  · rename_i id result
    rcases result with f | result
    · have hmessage : f.message ≠ "nothing staged" := h
      simp [prepared, hmessage]
    · simp [prepared]
  · rename_i t decision result
    rcases result with f | result
    · exact h.elim
    · rcases decision with _ | _ <;> simp [finalized, finishedEvent, PreparedTransaction.finish]
  · simp
  · simp
  · simp
  · rename_i u
    intro f hf
    rw [List.mem_singleton.mp hf]
    exact h

end Endpoint

namespace SerialEndpoint

variable {κ : Type} {id : OperationId}

/-- A frame that does not lead to a decision that fails. -/
def Frame.Dutiful : Frame → Prop
  | .endpoint f => f.Dutiful
  | .preparing .. => True

/-- A sign that does not tell of a decision that failed. -/
def Sign.Dutiful : Sign → Prop
  | .finalized _ _ (.error _) => False
  | .replied (.failed _ f) => f.message ≠ "nothing staged"
  | _ => True

theorem dutiful_signs {t : Task} (h : (Endpoint.Frame.todo t).Dutiful) :
    ∀ sign ∈ signs t, sign.Dutiful := by
  unfold signs
  split
  · rename_i m
    intro sign hsign
    rw [List.mem_singleton.mp hsign]
    rcases m with _ | _ | ⟨id, f⟩ | _ | _
    · trivial
    · trivial
    · exact h
    · trivial
    · trivial
  · intro sign hsign
    contradiction

/-! ## Staged, but not held -/

/-- The operation whose write is staged though the endpoint does not hold it. -/
def Frame.staged? : Frame → Option OperationId
  | .endpoint f => f.staged?
  | .preparing .. => none

/-- Whether a frame may wait below others. -/
def Frame.isCalm : Frame → Bool
  | .endpoint f => f.isCalm
  | .preparing .. => true

/-- The operations whose writes are staged for some frames alone. -/
def staging (stack : List Frame) : List OperationId := stack.filterMap Frame.staged?

theorem staging_append (first rest : List Frame) :
    staging (first ++ rest) = staging first ++ staging rest := List.filterMap_append

theorem staging_map_endpoint (frames : List Endpoint.Frame) :
    staging (frames.map .endpoint) = Endpoint.staging frames := List.filterMap_map

theorem staging_of_calm {stack : List Frame} (h : ∀ f ∈ stack, f.isCalm = true) :
    staging stack = [] := by
  apply List.filterMap_eq_nil_iff.mpr
  intro f hf
  have hcalm := h f hf
  rcases f with f | ⟨id, p, left⟩
  · exact Endpoint.staged_of_calm hcalm
  · rfl

/-- Where a message can be handed in, nothing is half done. -/
theorem calm_of_free {stack : List Frame} (hfree : isFree stack = true)
    (htail : ∀ f ∈ stack.tail, f.isCalm = true) : ∀ f ∈ stack, f.isCalm = true := by
  intro f hf
  unfold isFree at hfree
  split at hfree
  · contradiction
  · rcases List.mem_cons.mp hf with rfl | hf
    · rfl
    · exact htail f hf
  · rcases List.mem_cons.mp hf with rfl | hf
    · rfl
    · exact htail f hf
  · contradiction

attribute [local simp] staging Frame.staged? Frame.isCalm Frame.Dutiful Endpoint.Frame.staged?
  Endpoint.Frame.isCalm Endpoint.Frame.Dutiful Upcall.Dutiful

/-! ## The store and the endpoint -/

/-- An endpoint in front of an empty store. -/
def keyValueSetting (A : Archive κ) (clock : Nat → UInt64) : Setting KeyValue κ :=
  ⟨KeyValue.handler, .empty, A, clock⟩

/-- The request that a sign tells to be accepted for an operation. -/
def Sign.accepted? (id : OperationId) : Sign → Option Payload
  | .prepared i p (.ok _) => if i = id then some p else none
  | _ => none

/-- The request that was last accepted for an operation. -/
def lastAccepted (id : OperationId) (past : List Sign) : Option Payload :=
  (past.filterMap (Sign.accepted? id)).getLast?

theorem lastAccepted_of_none {past later : List Sign}
    (h : ∀ sign ∈ later, sign.accepted? id = none) :
    lastAccepted id (past ++ later) = lastAccepted id past := by
  unfold lastAccepted
  rw [List.filterMap_append, List.filterMap_eq_nil_iff.mpr h, List.append_nil]

theorem lastAccepted_concat {past : List Sign} {sign : Sign} {p : Payload}
    (h : sign.accepted? id = some p) : lastAccepted id (past ++ [sign]) = some p := by
  unfold lastAccepted
  rw [List.filterMap_append, List.filterMap_cons_some h, List.filterMap_nil,
    List.getLast?_concat]

/-- The store has staged what the endpoint holds, and what the frame on top knows of; and nothing at the
serial endpoint leads to a decision that fails. -/
structure Lockstep (d : SerialEndpoint KeyValue κ) : Prop where
  calm : ∀ f ∈ d.stack.tail, f.isCalm = true
  staged : ∀ id, (d.store.staged.get? id).isSome = true ↔
    id ∈ d.endpoint.preparedIds ∨ id ∈ staging d.stack
  apart : ∀ id ∈ staging d.stack, id ∉ d.endpoint.preparedIds
  wanted : ∀ id w, d.store.staged.get? id = some w →
    ∃ p, lastAccepted id d.past = some p ∧ KeyValue.target p.request = .ok w
  frames : ∀ f ∈ d.stack, f.Dutiful
  past : ∀ sign ∈ d.past, sign.Dutiful
  events : ∀ e ∈ d.events, (Upcall.record e.1 e.2).Dutiful

namespace Lockstep

variable {d d' : SerialEndpoint KeyValue κ} {A : Archive κ} {clock : Nat → UInt64} {f : Frame}
  {rest : List Frame}

/-- Of the frames, only those on top of what is calm matter. -/
theorem above (frames rest : List Frame) (hstack : d.stack = frames ++ rest)
    (hbelow : ∀ g ∈ rest, g.isCalm = true ∧ g.Dutiful)
    (calm : ∀ g ∈ frames.tail, g.isCalm = true)
    (staged : ∀ id, (d.store.staged.get? id).isSome = true ↔
      id ∈ d.endpoint.preparedIds ∨ id ∈ staging frames)
    (apart : ∀ id ∈ staging frames, id ∉ d.endpoint.preparedIds)
    (wanted : ∀ id w, d.store.staged.get? id = some w →
      ∃ p, lastAccepted id d.past = some p ∧ KeyValue.target p.request = .ok w)
    (dutiful : ∀ g ∈ frames, g.Dutiful) (past : ∀ sign ∈ d.past, sign.Dutiful)
    (events : ∀ e ∈ d.events, (Upcall.record e.1 e.2).Dutiful) : Lockstep d := by
  -- what is calm knows of nothing that is staged
  have hstaging : staging d.stack = staging frames := by
    rw [hstack, staging_append, staging_of_calm fun g hg => (hbelow g hg).1, List.append_nil]
  refine ⟨?_, ?_, ?_, wanted, ?_, past, events⟩
  · intro g hg
    rw [hstack] at hg
    rcases mem_tail_append hg with hg | hg
    · exact calm g hg
    · exact (hbelow g hg).1
  · rw [hstaging]
    exact staged
  · rw [hstaging]
    exact apart
  · intro g hg
    rw [hstack] at hg
    rcases List.mem_append.mp hg with hg | hg
    · exact dutiful g hg
    · exact (hbelow g hg).2

section

variable (h : Lockstep d) (hstack : d.stack = f :: rest)
include h hstack

theorem below : ∀ g ∈ rest, g.isCalm = true ∧ g.Dutiful := by
  intro g hg
  constructor
  · apply h.calm
    rw [hstack]
    exact hg
  · apply h.frames
    rw [hstack]
    exact List.mem_cons_of_mem f hg

theorem staging_top : staging d.stack = staging [f] := by
  rw [hstack, ← List.singleton_append, staging_append,
    staging_of_calm fun g hg => (h.below hstack g hg).1, List.append_nil]

theorem staged_top (id : OperationId) : (d.store.staged.get? id).isSome = true ↔
    id ∈ d.endpoint.preparedIds ∨ id ∈ staging [f] := by
  rw [← h.staging_top hstack]
  exact h.staged id

theorem apart_top : ∀ id ∈ staging [f], id ∉ d.endpoint.preparedIds := by
  rw [← h.staging_top hstack]
  exact h.apart

theorem dutiful_top : f.Dutiful := by
  apply h.frames
  rw [hstack]
  exact List.mem_cons_self

end

theorem past_append (h : Lockstep d) {later : List Sign} (hlater : ∀ sign ∈ later, sign.Dutiful) :
    ∀ sign ∈ d.past ++ later, sign.Dutiful := by
  intro sign hsign
  rcases List.mem_append.mp hsign with hsign | hsign
  · exact h.past sign hsign
  · exact hlater sign hsign

/-- Where nothing more is accepted, what is staged is still what was accepted last. -/
theorem kept (h : Lockstep d) {later : List Sign}
    (hlater : ∀ sign ∈ later, ∀ id, sign.accepted? id = none) (id : OperationId)
    (w : String × Value) (hw : d.store.staged.get? id = some w) :
    ∃ p, lastAccepted id (d.past ++ later) = some p ∧ KeyValue.target p.request = .ok w := by
  rw [lastAccepted_of_none fun sign hsign => hlater sign hsign id]
  exact h.wanted id w hw

/-- A move that reaches neither table passes on what the frame on top knew. -/
theorem passed (h : Lockstep d) (hstack : d.stack = f :: rest) (frames : List Frame)
    (later : List Sign) (hstack' : d'.stack = frames ++ rest) (hpast : d'.past = d.past ++ later)
    (hendpoint : d'.endpoint = d.endpoint) (hstore : d'.store = d.store)
    (calm : ∀ g ∈ frames.tail, g.isCalm = true) (hstaging : staging frames = staging [f])
    (dutiful : ∀ g ∈ frames, g.Dutiful)
    (haccepted : ∀ sign ∈ later, ∀ id, sign.accepted? id = none)
    (hlater : ∀ sign ∈ later, sign.Dutiful)
    (events : ∀ e ∈ d'.events, (Upcall.record e.1 e.2).Dutiful) : Lockstep d' := by
  apply above frames rest hstack' (h.below hstack) calm
  · rw [hstore, hendpoint, hstaging]
    exact h.staged_top hstack
  · rw [hendpoint, hstaging]
    exact h.apart_top hstack
  · rw [hstore, hpast]
    exact h.kept haccepted
  · exact dutiful
  · rw [hpast]
    exact h.past_append hlater
  · exact events

/-- A message is put on top where nothing is half done. -/
theorem hand (h : Lockstep d) (hfree : isFree d.stack = true) (m : Outbound) :
    Lockstep (d.hand m) := by
  have hcalm := calm_of_free hfree h.calm
  apply above [.endpoint (.todo (.receive m))] d.stack rfl
  · intro g hg
    exact ⟨hcalm g hg, h.frames g hg⟩
  · simp
  · intro id
    have hstaged := h.staged id
    rw [staging_of_calm hcalm] at hstaged
    exact hstaged
  · simp
  · exact h.wanted
  · simp
  · exact h.past
  · exact h.events

/-- The endpoint moves. -/
theorem performed {t : Task} (h : Lockstep d) (hstack : d.stack = .endpoint (.todo t) :: rest)
    (hkeyed : d.endpoint.Keyed)
    (howned : ∀ id result, t = .prepared id result →
      ∃ received, d.endpoint.transactions.get? id = some (.received received)) :
    Lockstep (d.move (keyValueSetting A clock)) := by
  have hpasses : Endpoint.Passes d.endpoint t (d.endpoint.perform (clock (d.age + 1)) t) :=
    Endpoint.passes_perform t (fun id _ _ held hheld => hkeyed id (.prepared held) hheld) howned
  rw [move_cons hstack]
  apply above ((d.endpoint.perform (clock (d.age + 1)) t).frames.map .endpoint) rest rfl
    (h.below hstack)
  · intro g hg
    rw [← List.map_tail] at hg
    obtain ⟨inner, hinner, rfl⟩ := List.mem_map.mp hg
    exact hpasses.calm inner hinner
  · intro id
    rw [staging_map_endpoint]
    exact (h.staged_top hstack id).trans (hpasses.known id).symm
  · rw [staging_map_endpoint]
    exact hpasses.apart (h.apart_top hstack)
  · apply h.kept
    intro sign hsign id
    unfold signs at hsign
    split at hsign
    · rw [List.mem_singleton.mp hsign]
      rfl
    · contradiction
  · intro g hg
    obtain ⟨inner, hinner, rfl⟩ := List.mem_map.mp hg
    exact Endpoint.dutiful_perform (h.dutiful_top hstack) inner hinner
  · exact h.past_append (dutiful_signs (h.dutiful_top hstack))
  · exact h.events

/-- What was staged for a decision alone is taken out of the store. -/
theorem finalized {t : PreparedTransaction} {decision : Decision} (h : Lockstep d)
    (hstack : d.stack = .endpoint (.inside (.finalize t decision)) :: rest) :
    Lockstep (d.move (keyValueSetting A clock)) := by
  have hsome : (d.store.staged.get? t.id).isSome = true := by
    rw [h.staged_top hstack]
    simp
  obtain ⟨w, hw⟩ := Option.isSome_iff_exists.mp hsome
  obtain ⟨result, hresult⟩ := KeyValue.finalize_ok hw decision
  -- the transaction was taken out of the table before the handler was called
  have hgone : t.id ∉ d.endpoint.preparedIds := by
    apply h.apart_top hstack
    simp
  have herased (id : OperationId) : (KeyValue.handler.finalize d.store t.id decision).2.staged.get? id =
      if id = t.id then none else d.store.staged.get? id := by
    rw [KeyValue.staged_finalize hw, Table.get?_erase]
  rw [move_cons hstack]
  apply above [.endpoint (.todo (.finalized t decision
    (KeyValue.handler.finalize d.store t.id decision).1))] rest rfl (h.below hstack)
  · simp
  · intro id
    show ((KeyValue.handler.finalize d.store t.id decision).2.staged.get? id).isSome = true ↔
      id ∈ d.endpoint.preparedIds ∨ id ∈ []
    rw [herased]
    by_cases hid : id = t.id
    · simp [hid, hgone]
    · rw [if_neg hid, h.staged_top hstack]
      simp [hid]
  · simp
  · intro id w' hw'
    change (KeyValue.handler.finalize d.store t.id decision).2.staged.get? id = some w' at hw'
    rw [herased] at hw'
    split at hw'
    · contradiction
    · exact h.kept (by simp [Sign.accepted?]) id w' hw'
  · simp [hresult]
  · apply h.past_append
    show ∀ sign ∈ [Sign.finalized t.id decision
      (KeyValue.handler.finalize d.store t.id decision).1], sign.Dutiful
    simp [hresult, Sign.Dutiful]
  · exact h.events

/-- The endpoint calls out. -/
theorem served {u : Upcall} (h : Lockstep d) (hstack : d.stack = .endpoint (.inside u) :: rest) :
    Lockstep (d.move (keyValueSetting A clock)) := by
  have hdutiful : u.Dutiful := h.dutiful_top hstack
  rcases u with ⟨id, p⟩ | ⟨t, decision⟩ | ⟨id, event⟩ | m
  · rw [move_cons hstack]
    refine h.passed hstack [.preparing id p _] [.prepare id p] rfl rfl rfl rfl ?_ rfl ?_ ?_ ?_ h.events
    · simp
    · simp
    · simp [Sign.accepted?]
    · simp [Sign.Dutiful]
  · exact h.finalized hstack
  · rw [move_cons hstack]
    refine h.passed hstack [.endpoint (.todo (.recorded id _))] [] rfl ?_ rfl rfl ?_ rfl ?_ ?_ ?_ ?_
    · exact (List.append_nil _).symm
    · simp
    · simp
    · simp
    · simp
    · intro e he
      rcases List.mem_append.mp he with he | he
      · exact h.events e he
      · rw [List.mem_singleton.mp he]
        exact hdutiful
  · rw [move_cons hstack]
    refine h.passed hstack [] [] rfl ?_ rfl rfl ?_ rfl ?_ ?_ ?_ h.events
    · exact (List.append_nil _).symm
    · simp
    · simp
    · simp
    · simp

/-- The store makes a report. -/
theorem reported {id : OperationId} {p : Payload} {r : Report} {left : List Report} (h : Lockstep d)
    (hstack : d.stack = .preparing id p (r :: left) :: rest) :
    Lockstep (d.move (keyValueSetting A clock)) := by
  rw [move_cons hstack]
  refine h.passed hstack
    [.endpoint (.todo (.raise (.reply (.report id r.severity r.text)))), .preparing id p left] []
    rfl ?_ rfl rfl ?_ rfl ?_ ?_ ?_ h.events
  · exact (List.append_nil _).symm
  · simp
  · simp
  · simp
  · simp

/-- The store stages what it accepts, for the frame that is to tell of it. -/
theorem concluded {id : OperationId} {p : Payload} (h : Lockstep d)
    (hstack : d.stack = .preparing id p [] :: rest) (habsent : id ∉ d.endpoint.preparedIds) :
    Lockstep (d.move (keyValueSetting A clock)) := by
  rw [move_cons hstack]
  simp only [step, keyValueSetting]
  rcases htarget : KeyValue.target p.request with f | w
  · -- what is refused leaves the store as it is
    rw [KeyValue.prepare_of_refused htarget]
    refine h.passed hstack [.endpoint (.todo (.prepared id (.error f)))] [.prepared id p (.error f)]
      rfl rfl rfl rfl ?_ rfl ?_ ?_ ?_ h.events
    · simp
    · simpa using KeyValue.message_of_target htarget
    · simp [Sign.accepted?]
    · simp [Sign.Dutiful]
  · -- what is accepted takes the place of what was staged before, if anything was
    rw [KeyValue.prepare_of_target htarget]
    apply above [.endpoint (.todo (.prepared id (.ok _)))] rest rfl (h.below hstack)
    · simp
    · intro i
      show ((d.store.staged.insert id w).get? i).isSome = true ↔ i ∈ d.endpoint.preparedIds ∨ i ∈ [id]
      rw [Table.get?_insert, List.mem_singleton]
      by_cases hi : i = id
      · simp [hi]
      · rw [if_neg hi, h.staged_top hstack]
        simp [hi]
    · intro i hi
      rw [List.mem_singleton.mp (show i ∈ [id] from hi)]
      exact habsent
    · intro i w' hw'
      change (d.store.staged.insert id w).get? i = some w' at hw'
      rw [Table.get?_insert] at hw'
      split at hw'
      · rename_i hi
        obtain rfl := Option.some.inj hw'
        exact ⟨p, lastAccepted_concat (by simp [Sign.accepted?, hi]), htarget⟩
      · rename_i hi
        obtain ⟨p', hp', htarget'⟩ := h.wanted i w' hw'
        refine ⟨p', ?_, htarget'⟩
        rw [← hp']
        apply lastAccepted_of_none
        simp [Sign.accepted?, Ne.symm hi]
    · simp
    · apply h.past_append
      simp [Sign.Dutiful]
    · exact h.events

end Lockstep

/-- **The store and the endpoint agree after every plan.** -/
theorem lockstep_run (A : Archive κ) (clock : Nat → UInt64) (plan : List Choice) :
    Lockstep (run (keyValueSetting A clock) plan) := by
  induction plan using List.reverseRecOn with
  | nil =>
    constructor
    · simp [run, fresh]
    · simp [run, fresh, keyValueSetting, KeyValue.empty, Endpoint.fresh, Endpoint.preparedIds, Table.empty,
        Table.get?]
    · simp [run, fresh]
    · intro id w hw
      contradiction
    · simp [run, fresh]
    · simp [run, fresh]
    · simp [run, fresh]
  | append_singleton plan choice ih =>
    have hkeyed := keyed_run (S := keyValueSetting A clock) plan
    rw [run_concat]
    generalize hd : run (keyValueSetting A clock) plan = d at ih hkeyed
    -- the table holds the operation whose submission a frame goes on with, and as received
    have howned (f : Frame) (id : OperationId) (hf : f ∈ d.stack) (howns : f.plain.owns id = true) :
        ∃ now, d.endpoint.transactions.get? id = some (.received ⟨id, now⟩) := by
      subst hd
      exact owned_run plan hf howns
    rcases choice with m | _
    · unfold act
      simp only
      split
      · rename_i hfree
        exact ih.hand hfree m
      · exact ih
    · show Lockstep (d.move (keyValueSetting A clock))
      rcases hstack : d.stack with _ | ⟨(t | u) | ⟨id, p, left⟩, rest⟩
      · rw [move_nil hstack]
        exact ih
      · apply ih.performed hstack hkeyed
        rintro id result rfl
        have hmem : .endpoint (.todo (.prepared id result)) ∈ d.stack := by
          rw [hstack]
          exact List.mem_cons_self
        obtain ⟨now, hheld⟩ := howned _ id hmem (by simp [Frame.plain, Endpoint.Frame.owns])
        exact ⟨_, hheld⟩
      · exact ih.served hstack
      · rcases left with _ | ⟨r, left⟩
        · apply ih.concluded hstack
          have hmem : .preparing id p [] ∈ d.stack := by
            rw [hstack]
            exact List.mem_cons_self
          obtain ⟨now, hheld⟩ := howned _ id hmem (by simp [Frame.plain, Endpoint.Frame.owns])
          rw [Endpoint.mem_preparedIds_of_get? hheld]
          simp [Transaction.isPrepared]
        · exact ih.reported hstack

end SerialEndpoint

end TwoPhase
