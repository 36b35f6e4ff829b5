import TwoPhase.Proofs.Loopback.Labor
/-
Decisions are carried out in the order in which they are granted.

The handler carries a decision out while the channel is still inside of the send, and the caller is told
when that send has returned. A listener could decide in between, and its decision would be granted first.
But an action leads to one decision at most: what it can still lead to is bounded by its weight, and a
decision that is handed over takes up all of it (`Open.light`). So what the handler has carried out, with
what it is about to, is what was granted, with what is about to be (`Open.orders`).
-/

set_option autoImplicit false

namespace TwoPhase

open Client (Task)

/-- The decision that the handler was made to carry out. -/
def HandlerCall.order? : HandlerCall → Option (OperationId × Decision)
  | .finalized id d _ => some (id, d)
  | .prepared .. => none

namespace Loopback

variable {σ : Type} {S : Setting σ} {c : Loopback σ} {rest : List Frame}

/-- The decision that a frame is about to have carried out. -/
def Frame.order? : Frame → Option (OperationId × Decision)
  | .endpoint (.todo (.receive m)) => m.decision?
  | .endpoint (.todo (.raise (.finalize t d))) | .endpoint (.inside (.finalize t d)) => some (t.id, d)
  | _ => none

/-- The decisions that some frames are about to have carried out. -/
def ordering (stack : List Frame) : List (OperationId × Decision) := stack.filterMap Frame.order?

/-- The decisions that were carried out, first to last. -/
def carriedOut (c : Loopback σ) : List (OperationId × Decision) :=
  c.handlerCalls.filterMap HandlerCall.order?

/-- The decisions that were carried out and those that are about to be. -/
def orders (c : Loopback σ) : List (OperationId × Decision) := c.carriedOut ++ ordering c.stack

@[simp] theorem ordering_nil : ordering [] = [] := rfl

@[simp] theorem ordering_cons (f : Frame) (rest : List Frame) :
    ordering (f :: rest) = f.order?.toList ++ ordering rest := filterMap_cons_toList _ f rest

@[simp] theorem ordering_append (first rest : List Frame) :
    ordering (first ++ rest) = ordering first ++ ordering rest := List.filterMap_append

@[simp] theorem ordering_map_client (frames : List Client.Frame) :
    ordering (frames.map Frame.client) = [] := filterMap_map_of_none (fun _ => rfl) frames

/-! ## What an action can lead to -/

/-- Weights that a decision takes up entirely. -/
def stock : Weight := ⟨2, 2, 2, 1, by decide, by decide, by decide⟩

/-- What weighs nothing neither grants a decision nor has one carried out. -/
theorem light_frame {f : Frame} (h : stock.frame f = 0) : f.grant? = none ∧ f.order? = none := by
  cases f with
  | client f =>
    refine ⟨?_, rfl⟩
    cases f with
    | inside u => rfl
    | todo t => cases t <;> first | rfl | cases h
  | conclude i p => cases h
  | returning m => cases m <;> first | exact ⟨rfl, rfl⟩ | cases h
  | endpoint f =>
    refine ⟨rfl, ?_⟩
    cases f with
    | inside u => cases u <;> first | rfl | cases h
    | todo t =>
      cases t with
      | receive m => cases m <;> cases h
      | raise u => cases u <;> first | rfl | cases h
      | _ => rfl

theorem light_stack {stack : List Frame} (h : stock.stack stack = 0) :
    granting stack = [] ∧ ordering stack = [] := by
  have hall : ∀ f ∈ stack, f.grant? = none ∧ f.order? = none := fun f hf =>
    light_frame (List.sum_eq_zero_iff.mp h _ (List.mem_map_of_mem hf))
  exact ⟨List.filterMap_eq_nil_iff.mpr fun f hf => (hall f hf).1,
    List.filterMap_eq_nil_iff.mpr fun f hf => (hall f hf).2⟩

/-- Between two actions nothing waits in the mailboxes. -/
theorem Visited.waiting (h : Visited S c) (hidle : c.stack = [])
    (hgiven : c.clientThreads.given.length < 2 ^ 64 - 1) (w : Weight) : w.waiting c.client = 0 := by
  refine List.sum_eq_zero fun n hn => ?_
  obtain ⟨⟨id, d⟩, hentry, rfl⟩ := List.mem_map.mp hn
  have hdelivery : (c.client.view id).delivery = some d :=
    (c.client.deliveries.mem_entries id d).mp hentry
  obtain ⟨schedule, hschedule⟩ := reachable_clientThreads h
  have hquiet : (c.clientThreads.share id).frames = [] := by
    simp [ClientThreads.share, ClientThreads.frames, clientThreads, hidle]
  rw [hschedule] at hgiven hquiet
  have hview : ((ClientThreads.run S.config schedule).share id).view = c.client.view id := by
    rw [← hschedule]
    rfl
  rcases ClientThreads.alive_run S.config schedule id hgiven with hblank | ⟨delivery, alive⟩
  · rw [← hview, hblank] at hdelivery
    contradiction
  · have hfound := alive.found
    rw [hview, hdelivery] at hfound
    obtain rfl := Option.some.inj hfound
    rw [Weight.delivery, alive.queue_of_quiet hquiet]
    rfl

theorem light_request (r : Request) : stock.client (.todo r.task) ≤ 2 := by
  cases r with
  | deliver m => cases m <;> first | exact Nat.le_refl 2 | exact Nat.zero_le 2
  | _ => first | exact Nat.le_refl 2 | exact Nat.zero_le 2

/-- **An action leads to one decision at most.** -/
theorem Open.light (h : Open S c) (hgiven : c.clientThreads.given.length < 2 ^ 64 - 1) :
    c.weight stock ≤ 2 := by
  induction h with
  | fresh => exact Nat.zero_le _
  | @taken c h hidle a ha ih =>
    have hwaiting := h.visited.waiting hidle hgiven stock
    have hclient : (c.take a).client = c.client := rfl
    rw [weight, hclient, hwaiting, stack_take hidle]
    cases hr : c.request? a with
    | none => exact Nat.zero_le _
    | some r =>
      have hlight := light_request r
      simpa [Weight.frame] using hlight
  | moved h ih =>
    exact Nat.le_trans (weight_move stock _)
      (ih (Nat.lt_of_le_of_lt h.visited.given_le hgiven))

/-! ## Orders and grants -/

/-- A decision that the participant takes on finds what it decides. -/
theorem order_take {e : Endpoint} {i : OperationId} {d : Decision} {t : PreparedTransaction}
    (hheld : e.transactions.get? i = some (.prepared t)) (ht : t.id = i) :
    ordering ((e.take i d).frames.map .endpoint) = [(i, d)] := by
  simp [Endpoint.take, hheld, Frame.order?, ht]

theorem orders_perform {e : Endpoint} {now : UInt64} {t : Endpoint.Task}
    {entries : OperationId → Option Pending}
    (links : Links entries e.transactions (.endpoint (.todo t) :: rest)) :
    ordering ((e.perform now t).frames.map .endpoint) =
      (Frame.endpoint (.todo t)).order?.toList := by
  have hdecision {i : OperationId} {d : Decision} (hm : t = .receive (.decide i d)) :
      ordering ((e.take i d).frames.map .endpoint) = [(i, d)] := by
    subst hm
    obtain ⟨op, t, ht, -, hheld, -⟩ :=
      Link.of_decision (by simpa [Frame.leg?, Endpoint.Frame.leg?] using links i)
    exact order_take hheld ht
  cases t with
  | receive m =>
    cases m with
    | execute i payload =>
      by_cases hknown : e.transactions.contains i = true <;>
        simp [Endpoint.perform, Endpoint.enter, hknown, Frame.order?, Outbound.decision?]
    | commit i => exact hdecision (d := .commit) rfl
    | rollback i => exact hdecision (d := .rollback) rfl
  | decode i payload =>
    cases hdecode : Payload.decode payload <;>
      simp [Endpoint.perform, Endpoint.decode, hdecode, Frame.order?]
  | prepared i result => cases result <;> simp [Endpoint.perform, Endpoint.prepared, Frame.order?]
  | finalized t d result =>
    cases result <;> simp [Endpoint.perform, Endpoint.finalized, Frame.order?]
  | recorded i result => cases result <;> simp [Endpoint.perform, Frame.order?]
  | note n => simp [Endpoint.perform, Frame.order?]
  | raise u => cases u <;> simp [Endpoint.perform, Frame.order?]

/-- Apart from a message that is handed over, decisions are carried out as they stand on the stack. -/
theorem orders_kept (h : Engaged c) (hsend : ∀ m rest, c.stack ≠ .client (.inside (.send m)) :: rest) :
    (c.move S).orders = c.orders := by
  rcases hstack : c.stack with _ | ⟨f, rest⟩
  · rw [move_nil hstack]
  have horders : c.orders = c.carriedOut ++ (f.order?.toList ++ ordering rest) := by
    rw [orders, hstack, ordering_cons]
  -- a decision leaves the stack in the move that carries it out, so the list stays the same
  rw [move_cons hstack, horders]
  cases f with
  | client f =>
    cases f with
    | todo t =>
      simp [step, orders, carriedOut, Frame.order?, -List.map_append]
    | inside u =>
      have hu : ∀ m, u ≠ .send m := by
        rintro m rfl
        exact hsend m rest hstack
      simp [step, call_of_ne_send hu, answer, orders, carriedOut, Frame.order?]
  | returning m => simp [step, answer, orders, carriedOut, Frame.order?]
  | conclude i p =>
    simp [step, orders, carriedOut, Frame.order?, HandlerCall.order?, List.filterMap_append]
  | endpoint f =>
    cases f with
    | todo t =>
      have hperform : ordering
          ((c.endpoint.perform (S.clock (c.age + 1)) t).frames.map .endpoint) =
            (Frame.endpoint (.todo t)).order?.toList := orders_perform (hstack ▸ h.links)
      simp [step, orders, carriedOut, hperform]
    | inside u =>
      cases u with
      | prepare id p =>
        have hreports : ordering ((S.handler.reports c.store id p).map fun r =>
            .endpoint (.todo (.raise (.reply (.report id r.severity r.text))))) = [] :=
          filterMap_map_of_none (fun _ => rfl) _
        simp [step, serve, orders, carriedOut, hreports, Frame.order?]
      | _ => simp [step, serve, orders, carriedOut, Frame.order?, HandlerCall.order?, List.filterMap_append]

/-- The decision in a message that is handed over is about to be carried out. -/
theorem orders_handed {m : Outbound} (hstack : c.stack = .client (.inside (.send m)) :: rest)
    (hopen : c.isOpen = true) :
    (c.move S).orders = c.carriedOut ++ (m.decision?.toList ++ ordering rest) := by
  rw [move_cons hstack]
  simp [step, call, hopen, orders, carriedOut, Frame.order?]

/-- **Decisions are carried out in the order in which they are granted**, whatever the handler is. -/
theorem Open.orders (h : Open S c) (hgiven : c.clientThreads.given.length < 2 ^ 64 - 1) :
    c.orders = c.grants := by
  induction h with
  | fresh => rfl
  | @taken c h hidle a ha ih =>
    have hsame := ih hgiven
    simp only [Loopback.orders, grants, hidle] at hsame
    have hstack := stack_take hidle a
    cases hr : c.request? a with
    | none =>
      simp only [Loopback.orders, grants, hstack, hr]
      exact hsame
    | some r =>
      simp only [Loopback.orders, grants, hstack, hr]
      cases r <;> exact hsame
  | @moved c h ih =>
    have hbefore := Nat.lt_of_le_of_lt (h.visited.given_le (S := S)) hgiven
    have engaged := h.engaged (by omega)
    have hsame := ih hbefore
    by_cases hsend : ∃ m rest, c.stack = .client (.inside (.send m)) :: rest
    · obtain ⟨m, rest, hstack⟩ := hsend
      rw [orders_handed hstack engaged.isOpen, grants_handed hstack engaged.isOpen]
      have hsame : c.carriedOut ++ ordering rest = c.granted ++ granting rest := by
        simpa [Loopback.orders, grants, hstack, Frame.order?, Frame.grant?, Client.Frame.grant?]
          using hsame
      cases hdecision : m.decision? with
      | none => exact hsame
      | some grant =>
        -- the decision takes up all the weight there is, so no other is under way
        have hlight := h.light hbefore
        obtain rfl := Outbound.eq_decide (d := grant.2) hdecision
        have htop : stock.frame (.client (.inside (.send (.decide grant.1 grant.2)))) = 2 := by
          cases grant.2 <;> rfl
        rw [weight, hstack, Weight.stack_cons, htop] at hlight
        obtain ⟨hgranting, hordering⟩ := @light_stack rest (by omega)
        rw [hgranting, hordering, List.append_nil, List.append_nil] at hsame
        rw [hgranting, hordering, hsame]
    · rw [orders_kept engaged fun m rest hstack => hsend ⟨m, rest, hstack⟩,
        grants_kept fun m rest hstack => absurd ⟨m, rest, hstack⟩ hsend]
      exact hsame

end Loopback

end TwoPhase
