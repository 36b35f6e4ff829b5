import TwoPhase.Proofs.Loopback.Mirror
import TwoPhase.Proofs.Loopback.Store
/-
What becomes of a submission at the far end of a loopback.

A client refuses what it cannot encode before it gives an identifier to it, so that the participant need
not refuse it afterwards. That works but for the depth of a request: a text may be written to any depth
and is read to a limited one. Here a submission is followed from the channel to the first reply about it.
Each move of a loopback is, to one operation, one line of `Passage`; the lines lead from station to station
(`Station`), with what the handler was asked to prepare and what was replied so far. Once nothing is under
way any more, an operation that was taken has been prepared as it was submitted, or it was too deep
(`Received`).
-/

set_option autoImplicit false

namespace TwoPhase

open Client (Task)

/-! ## What the handler is asked, and what is replied -/

/-- What is replied to a submission, by what the handler made of it. -/
def HandlerCall.announcement (id : OperationId) : Except Failure Value → Inbound
  | .ok result => .prepared id result
  | .error f => .failed id f

/-- What the handler was asked to prepare for an operation, and what it made of that. -/
def HandlerCall.preparation? (id : OperationId) : HandlerCall → Option (Payload × Except Failure Value)
  | .prepared i p result => if i = id then some (p, result) else none
  | .finalized .. => none

/-- The reply to an operation whose payload could not be read. -/
def Json.ReadError.refusal (e : ReadError) : Failure :=
  .rejected ("malformed operation: " ++ e.message)

/-- The message, if it is news about an operation. -/
def Inbound.newsOf? (id : OperationId) (m : Inbound) : Option Inbound :=
  if m.news? = some id then some m else none

/-- The news about an operation that reached the client. -/
def Mark.reply? (id : OperationId) : Mark → Option Inbound
  | .moved (.dispatch m) _ => m.newsOf? id
  | _ => none

namespace Loopback

/-- The news about an operation that a frame has still to bring to the client. -/
def Frame.reply? (id : OperationId) : Frame → Option Inbound
  | .endpoint (.todo (.raise (.reply m))) | .endpoint (.inside (.reply m))
  | .client (.todo (.dispatch m)) => m.newsOf? id
  | _ => none

variable {σ : Type} {S : Setting σ} {c : Loopback σ} {id : OperationId}

/-- What the handler was asked to prepare for an operation. -/
def prepares (c : Loopback σ) (id : OperationId) : List (Payload × Except Failure Value) :=
  c.handlerCalls.filterMap (HandlerCall.preparation? id)

/-- The news about an operation that reached the client, first to last. -/
def replies (c : Loopback σ) (id : OperationId) : List Inbound :=
  c.past.filterMap (Mark.reply? id)

/-- The news about an operation that some frames have still to bring. -/
def replying (id : OperationId) (stack : List Frame) : List Inbound :=
  stack.filterMap (Frame.reply? id)

@[simp] theorem replying_nil : replying id [] = [] := rfl

@[simp] theorem replying_cons (f : Frame) (rest : List Frame) :
    replying id (f :: rest) = (f.reply? id).toList ++ replying id rest :=
  filterMap_cons_toList _ f rest

@[simp] theorem replying_append (first rest : List Frame) :
    replying id (first ++ rest) = replying id first ++ replying id rest := List.filterMap_append

/-- News that are under way are a leg of the operation. -/
theorem replying_of_legs {stack : List Frame} (h : legs id stack = []) : replying id stack = [] := by
  refine List.filterMap_eq_nil_iff.mpr fun f hf => ?_
  have hleg := List.filterMap_eq_nil_iff.mp h f hf
  cases hreply : f.reply? id with
  | none => rfl
  | some m =>
    unfold Frame.reply? Inbound.newsOf? at hreply
    split at hreply
    -- wherever the news are, they are about the operation
    all_goals
      first
      | contradiction
      | obtain ⟨hnews, rfl⟩ : _ = some id ∧ _ = m := by simpa using hreply
        simp [Frame.leg?, Endpoint.Frame.leg?, Client.Frame.leg?, Inbound.leg?, hnews] at hleg

/-! ## Passages -/

end Loopback

/-- Whether a leg comes after the first reply. -/
def Leg.isLate : Leg → Bool
  | .news _ | .decision _ | .finalizing _ | .finalized .. | .lost => true
  | _ => false

/-- What one move does to an operation, of which it may be told that nobody submitted it yet: the legs
before and after it, what the handler is asked to prepare, and the news that are sent. -/
inductive Passage (id : OperationId) (unknown : Prop) :
    List Leg → List Leg → List (Payload × Except Failure Value) → List Inbound → Prop
  | still {legs : List Leg} : Passage id unknown legs legs [] []
  | submitted {payload : List UInt8} (h : unknown) :
      Passage id unknown [] [.submission payload] [] []
  | received {payload : List UInt8} :
      Passage id unknown [.submission payload] [.reading payload] [] []
  | read {payload : List UInt8} {p : Payload} (h : Payload.decode payload = .ok p) :
      Passage id unknown [.reading payload] [.preparing p] [] []
  | unreadable {payload : List UInt8} {e : Json.ReadError} (h : Payload.decode payload = .error e) :
      Passage id unknown [.reading payload] [.prepared (.error e.refusal)] [] []
  | handled {p : Payload} {result : Except Failure Value} :
      Passage id unknown [.preparing p] [.prepared result] [(p, result)] []
  | announced {result : Except Failure Value} :
      Passage id unknown [.prepared result] [.news (HandlerCall.announcement id result)] []
        [HandlerCall.announcement id result]
  | decided {d : Decision} : Passage id unknown [] [.decision d] [] []
  | late {l : Leg} {after : List Leg} {news : List Inbound} (hl : l.isLate = true)
      (hafter : ∀ l ∈ after, l.isLate = true) : Passage id unknown [l] after [] news

theorem Passage.of_eq {id : OperationId} {unknown : Prop} {before after : List Leg}
    (h : before = after) : Passage id unknown before after [] [] := h ▸ .still

namespace Loopback

variable {σ : Type} {S : Setting σ} {c : Loopback σ} {id : OperationId} {rest : List Frame}

/-- An operation is on one leg at most. -/
theorem Link.single {entry : Option Pending} {x : Option Transaction} {l : Leg} {below : List Leg}
    (link : Link id entry x (l :: below)) : below = [] := by
  cases link <;> rfl

attribute [local simp] Frame.leg? Client.Frame.leg? Endpoint.Frame.leg? Inbound.leg? Inbound.news?
  Frame.reply? Inbound.newsOf? Mark.reply?

/-! ### The client -/

/-- Apart from the tasks that go on with a message, none leaves a frame that carries an operation on. -/
theorem legs_of_leaves {k : Client} {t : Task} (henlist : ∀ listener op payload,
    t ≠ .enlist listener op payload) (hclaim : ∀ i d, t ≠ .claim i d)
    (hsent : ∀ i d e, t ≠ .decisionSent i d (.error e)) (hdispatch : ∀ m, t ≠ .dispatch m)
    (hraise : ∀ u, t ≠ .raise u) : legs id ((k.perform t).frames.map Frame.client) = [] := by
  refine legs_client_of_none fun f hf => ?_
  cases k.perform_leaves t f hf with
  | submitting => exact absurd rfl (henlist _ _ _)
  | deciding => exact absurd rfl (hclaim _ _)
  | failing => exact absurd rfl (hsent _ _ _)
  | inbound => exact absurd rfl (hdispatch _)
  | entering => exact absurd rfl (hraise _)
  | _ => rfl

/-- What the client does is a passage of each operation, short of a sweep. -/
theorem passage_perform {k : Client} {t : Task} {unknown : Prop} {entries : OperationId → Option Pending}
    {x y : Option Transaction} (hsweep : t ≠ .sweep) (hunknown : k.allots t = some id → unknown)
    (link : Link id (k.pending.get? id) x (legs id (.client (.todo t) :: rest)))
    (link' : Link id (entries id) y (legs id ((k.perform t).frames.map .client ++ rest))) :
    Passage id unknown (legs id (.client (.todo t) :: rest))
      (legs id ((k.perform t).frames.map .client ++ rest)) [] [] := by
  rw [legs_append] at link' ⊢
  by_cases hplain : t.isPlain = true
  · rw [legs_client_of_none (Client.legs_of_plain hplain), legs_cons, Frame.leg?,
      Client.leg_of_plain hplain]
    exact .still
  cases t with
  | enlist listener op payload =>
    cases hclosed : k.closed with
    | true =>
      simp only [Client.perform, Client.enlist, hclosed, Client.refuse, if_true]
      exact .still
    | false =>
      by_cases hid : k.nextId = id
      · have hframes : legs id ((k.perform (.enlist listener op payload)).frames.map .client) =
            [.submission payload] := by
          simp [Client.perform, Client.enlist, hclosed, hid]
        rw [hframes] at link' ⊢
        have hbelow : legs id rest = [] := link'.single
        rw [legs_cons, hbelow]
        exact .submitted (hunknown (by simp [Client.allots, hclosed, hid]))
      · have hframes : legs id ((k.perform (.enlist listener op payload)).frames.map .client) =
            [] := by
          simp [Client.perform, Client.enlist, hclosed, legOf_of_ne hid]
        rw [hframes]
        exact .still
  | claim i d =>
    cases hframes : legs id ((k.perform (.claim i d)).frames.map .client) with
    | nil => exact .still
    | cons l more =>
      -- the only leg that a claim begins is that of a decision
      rw [hframes] at link'
      have hmem : l ∈ legs id ((k.perform (.claim i d)).frames.map .client) := by simp [hframes]
      have hl : l = .decision d := by
        obtain ⟨f, hf, hleg⟩ := List.mem_filterMap.mp hmem
        obtain ⟨g, hg, rfl⟩ := List.mem_map.mp hf
        cases k.perform_leaves _ g hg with
        | @deciding i =>
          by_cases hid : i = id
          · simpa [hid, eq_comm] using hleg
          · simp [legOf_of_ne hid] at hleg
        | _ => simp at hleg
      have hbelow := List.append_eq_nil_iff.mp link'.single
      rw [hl, hbelow.1, legs_cons, hbelow.2]
      exact .decided
  | accept i result =>
    rw [legs_of_leaves (by simp) (by simp) (by simp) (by simp) (by simp)]
    by_cases hid : i = id
    · subst hid
      have hbelow : legs i rest = [] := Link.single (l := .news (.prepared i result)) (by simpa using link)
      simpa [hbelow] using Passage.late rfl (by simp)
    · simpa [legOf_of_ne hid] using Passage.still
  | finish i outcome kind =>
    rw [legs_of_leaves (by simp) (by simp) (by simp) (by simp) (by simp)]
    obtain ⟨m, hm⟩ : ∃ m, (Client.Frame.todo (.finish i outcome kind)).leg? = some (i, .news m) := by
      cases outcome <;> exact ⟨_, rfl⟩
    rw [legs_cons, Frame.leg?, hm] at link ⊢
    by_cases hid : i = id
    · subst hid
      rw [legOf_self] at link ⊢
      have hbelow : legs i rest = [] := Link.single link
      rw [hbelow]
      exact .late rfl (by simp)
    · rw [legOf_of_ne hid]
      exact .still
  | dispatch m => exact .of_eq (by cases m <;> simp [Client.perform, Client.taskOf])
  | raise u => exact .of_eq (by cases u <;> simp [Client.perform])
  | submissionSent i result =>
    rcases result with e | ok
    · rw [legs_of_leaves (by simp) (by simp) (by simp) (by simp) (by simp)]
      by_cases hid : i = id
      · subst hid
        exact (Link.not_lost (by simpa using link)).elim
      · simpa [legOf_of_ne hid] using Passage.still
    · exact absurd rfl hplain
  | decisionSent i d result =>
    rcases result with e | ok
    · by_cases hid : i = id
      · subst hid
        exact (Link.not_lost (by simpa using link)).elim
      · simpa [Client.perform, Client.decisionSent, legOf_of_ne hid] using Passage.still
    · exact absurd rfl hplain
  | sweep => exact absurd rfl hsweep
  | _ => exact absurd rfl hplain

/-- News that are about to reach the client do so next, and a task brings no others. -/
theorem replies_perform (id : OperationId) {k : Client} {t : Task} :
    (k.marks t).filterMap (Mark.reply? id) ++
        replying id ((RecordingClient.wishes S.habit k t ++ (k.perform t).frames).map .client) =
      ((Frame.client (.todo t)).reply? id).toList := by
  have hframes :
      replying id ((RecordingClient.wishes S.habit k t ++ (k.perform t).frames).map .client) = [] := by
    refine List.filterMap_eq_nil_iff.mpr fun f hf => ?_
    obtain ⟨g, hg, rfl⟩ := List.mem_map.mp hf
    rcases List.mem_append.mp hg with hg | hg
    · obtain ⟨i, d, -, rfl⟩ := RecordingClient.mem_wishes hg
      rfl
    · cases k.perform_leaves t g hg with
      | @inbound m => cases m <;> rfl
      | _ => rfl
  have hmarks : (k.marks t).filterMap (Mark.reply? id) =
      ((Frame.client (.todo t)).reply? id).toList := by
    cases t with
    | dispatch m => exact (filterMap_cons_toList _ _ []).trans (List.append_nil _)
    | enlist listener op payload => cases hclosed : k.closed <;> simp [Client.marks, Client.allots, hclosed]
    | _ => rfl
  rw [hframes, hmarks, List.append_nil]

/-! ### The participant -/

section

variable {e : Endpoint} {entries : OperationId → Option Pending} {now : UInt64} {unknown : Prop}
  {i : OperationId}

theorem passage_enter {payload : List UInt8}
    (links : Links entries e.transactions
      (.endpoint (.todo (.receive (.execute i payload))) :: rest)) :
    ∃ news, Passage id unknown (legs id (.endpoint (.todo (.receive (.execute i payload))) :: rest))
        (legs id ((e.enter now i payload).frames.map .endpoint ++ rest)) [] news ∧
      replying id ((e.enter now i payload).frames.map .endpoint) = news ∧
      (news = [] ∨ legs id rest = []) := by
  obtain ⟨op, -, -, hnone, hbelow⟩ := Link.of_submission (by simpa using links i)
  refine ⟨[], ?_, by simp [Endpoint.enter, Table.contains, hnone], Or.inl rfl⟩
  by_cases hid : i = id
  · subst hid
    simpa [Endpoint.enter, Table.contains, hnone, hbelow] using Passage.received
  · simpa [Endpoint.enter, Table.contains, hnone, legOf_of_ne hid] using Passage.still

theorem passage_take {d : Decision}
    (links : Links entries e.transactions (.endpoint (.todo (.receive (.decide i d))) :: rest)) :
    ∃ news, Passage id unknown (legs id (.endpoint (.todo (.receive (.decide i d))) :: rest))
        (legs id ((e.take i d).frames.map .endpoint ++ rest)) [] news ∧
      replying id ((e.take i d).frames.map .endpoint) = news ∧
      (news = [] ∨ legs id rest = []) := by
  obtain ⟨op, t, ht, -, hheld, hbelow⟩ := Link.of_decision (by simpa using links i)
  refine ⟨[], ?_, by simp [Endpoint.take, hheld], Or.inl rfl⟩
  by_cases hid : i = id
  · subst hid
    have hlate : Passage i unknown [.decision d] [.finalizing d] [] [] := .late rfl (by simp [Leg.isLate])
    simpa [Endpoint.take, hheld, ht, hbelow] using hlate
  · simpa [Endpoint.take, hheld, ht, legOf_of_ne hid] using Passage.still

/-- What the participant does is a passage of each operation. Where it sends news, they are the only
ones. -/
theorem passage_serve (id : OperationId) (now : UInt64) (unknown : Prop) {t : Endpoint.Task}
    (links : Links entries e.transactions (.endpoint (.todo t) :: rest)) :
    ∃ news, Passage id unknown (legs id (.endpoint (.todo t) :: rest))
        (legs id ((e.perform now t).frames.map .endpoint ++ rest)) [] news ∧
      replying id ((e.perform now t).frames.map .endpoint) =
        ((Frame.endpoint (.todo t)).reply? id).toList ++ news ∧
      (news = [] ∨ legs id rest = []) := by
  -- `Link.single` says that the operation has no other leg while the participant works on it, which is
  -- what makes the step a passage; a task about another operation leaves this one where it is
  have link := links id
  cases t with
  | receive m =>
    cases m with
    | execute i payload => exact passage_enter links
    | commit i => exact passage_take (d := .commit) links
    | rollback i => exact passage_take (d := .rollback) links
  | decode i payload =>
    cases hdecode : Payload.decode payload with
    | ok p =>
      refine ⟨[], ?_, by simp [Endpoint.perform, Endpoint.decode, hdecode], Or.inl rfl⟩
      by_cases hid : i = id
      · subst hid
        have hbelow : legs i rest = [] := Link.single (l := .reading payload) (by simpa using link)
        simpa [Endpoint.perform, Endpoint.decode, hdecode, hbelow] using Passage.read hdecode
      · simpa [Endpoint.perform, Endpoint.decode, hdecode, legOf_of_ne hid] using Passage.still
    | error e =>
      refine ⟨[], ?_, by simp [Endpoint.perform, Endpoint.decode, hdecode], Or.inl rfl⟩
      by_cases hid : i = id
      · subst hid
        have hbelow : legs i rest = [] := Link.single (l := .reading payload) (by simpa using link)
        simpa [Endpoint.perform, Endpoint.decode, hdecode, hbelow, Json.ReadError.refusal] using
          Passage.unreadable hdecode
      · simpa [Endpoint.perform, Endpoint.decode, hdecode, legOf_of_ne hid] using Passage.still
  | prepared i result =>
    by_cases hid : i = id
    · subst hid
      have hbelow : legs i rest = [] := Link.single (l := .prepared result) (by simpa using link)
      refine ⟨[HandlerCall.announcement i result], ?_, ?_, Or.inr hbelow⟩
      · cases result <;>
          simpa [Endpoint.perform, Endpoint.prepared, hbelow, HandlerCall.announcement]
            using Passage.announced
      · cases result <;> simp [Endpoint.perform, Endpoint.prepared, HandlerCall.announcement]
    · refine ⟨[], ?_, ?_, Or.inl rfl⟩
      · cases result <;>
          simpa [Endpoint.perform, Endpoint.prepared, legOf_of_ne hid] using Passage.still
      · cases result <;> simp [Endpoint.perform, Endpoint.prepared, hid]
  | finalized t d result =>
    by_cases hid : t.id = id
    · subst hid
      have hbelow : legs t.id rest = [] := Link.single (l := .finalized d result) (by simpa using link)
      refine ⟨[HandlerCall.reply t.id result], ?_, ?_, Or.inr hbelow⟩
      · cases result <;>
          simpa [Endpoint.perform, Endpoint.finalized, hbelow, HandlerCall.reply] using
            Passage.late rfl (by simp [Leg.isLate])
      · cases result <;> simp [Endpoint.perform, Endpoint.finalized, HandlerCall.reply]
    · refine ⟨[], ?_, ?_, Or.inl rfl⟩
      · cases result <;>
          simpa [Endpoint.perform, Endpoint.finalized, legOf_of_ne hid] using Passage.still
      · cases result <;> simp [Endpoint.perform, Endpoint.finalized, hid]
  | recorded i result =>
    refine ⟨[], .of_eq ?_, ?_, Or.inl rfl⟩
    · cases result <;> simp [Endpoint.perform]
    · cases result <;> simp [Endpoint.perform]
  | note n => exact ⟨[], .of_eq (by simp [Endpoint.perform]), rfl, Or.inl rfl⟩
  | raise u =>
    refine ⟨[], .of_eq ?_, ?_, Or.inl rfl⟩
    · cases u <;> simp [Endpoint.perform]
    · cases u <;> simp [Endpoint.perform]

end

/-! ### The whole loopback -/

/-- A move of a loopback, as an operation sees it. -/
def Passes (id : OperationId) (c c' : Loopback σ) : Prop :=
  ∃ asked news, Passage id (id ∉ c.clientThreads.given) (legs id c.stack) (legs id c'.stack) asked news ∧
    c'.prepares id = c.prepares id ++ asked ∧
    c'.replies id ++ replying id c'.stack = c.replies id ++ replying id c.stack ++ news

/-- What asks the handler for nothing and tells the client nothing new is a passage if it leaves the legs
as they are. -/
theorem Passes.of_eq {c' : Loopback σ} (hlegs : legs id c'.stack = legs id c.stack)
    (hcalls : c'.handlerCalls = c.handlerCalls) (hpast : c'.replies id = c.replies id)
    (hreplying : replying id c'.stack = replying id c.stack) : Passes id c c' := by
  refine ⟨[], [], .of_eq hlegs.symm, ?_, ?_⟩
  · rw [prepares, hcalls, List.append_nil]
    rfl
  · rw [hpast, hreplying, List.append_nil]

/-- Foreign code that answers brings no news and, where it was handed nothing, carries nothing on. -/
theorem passes_answered {u : Client.Upcall} {a : Client.Answer} {f : Frame}
    (hstack : c.stack = f :: rest) (hleg : f.leg? = none) (hreply : f.reply? id = none)
    (hresume : ∀ g ∈ u.resume a, g.leg? = none) : Passes id c (c.answer u a rest) := by
  have hlegs : legs id ((u.resume a).map Frame.client) = [] := legs_client_of_none hresume
  have hreplying : replying id ((u.resume a).map Frame.client) = [] := replying_of_legs hlegs
  refine .of_eq ?_ rfl ?_ ?_
  · rw [hstack, legs_cons, hleg, answer, legs_append, hlegs]
    rfl
  · simp [replies, answer]
  · rw [hstack, replying_cons, hreply, answer, replying_append, hreplying]
    rfl

section

variable (engaged : Engaged c) {f : Frame} (hstack : c.stack = f :: rest)
include engaged hstack

theorem passes_performed {t : Task} (hf : f = .client (.todo t))
    (hunused : c.client.nextId ∉ c.clientThreads.given) (engaged' : Engaged (c.move S)) :
    Passes id c (c.move S) := by
  subst hf
  have hmove := move_cons (S := S) hstack
  -- an open loopback has no sweep due, and the wishes of a listener are no legs of any operation
  have hsweep : t ≠ .sweep := by
    rintro rfl
    exact engaged.sound _ (hstack ▸ List.mem_cons_self)
  have hwishes : legs id ((RecordingClient.wishes S.habit c.client t).map Frame.client) = [] := by
    refine legs_client_of_none fun g hg => ?_
    obtain ⟨i, d, -, rfl⟩ := RecordingClient.mem_wishes hg
    rfl
  have hlegs : legs id (c.move S).stack =
      legs id ((c.client.perform t).frames.map .client ++ rest) := by
    rw [hmove]
    show legs id ((RecordingClient.wishes S.habit c.client t ++
      (c.client.perform t).frames).map Frame.client ++ rest) = _
    rw [List.map_append, List.append_assoc, legs_append, hwishes, List.nil_append]
  -- an identifier that is given now was not given before, so nothing can have been about it
  have hunknown : c.client.allots t = some id → id ∉ c.clientThreads.given := by
    intro hallots
    have hid : id = c.client.nextId := by
      cases t <;> simp_all [Client.allots]
    exact hid ▸ hunused
  have link := engaged.links id
  have link' := engaged'.links id
  rw [hlegs] at link'
  rw [hstack] at link
  refine ⟨[], [], ?_, ?_, ?_⟩
  · rw [hlegs, hstack]
    exact passage_perform hsweep hunknown link link'
  · rw [hmove, List.append_nil]
    rfl
  · have hreplies := replies_perform (S := S) id (k := c.client) (t := t)
    rw [hmove, List.append_nil, hstack, replying_cons, ← hreplies]
    show (c.past ++ c.client.marks t).filterMap (Mark.reply? id) ++ replying id
      ((RecordingClient.wishes S.habit c.client t ++
        (c.client.perform t).frames).map Frame.client ++ rest) = _
    simp only [List.filterMap_append, replying_append, List.append_assoc]
    rfl

theorem passes_called {u : Client.Upcall} (hf : f = .client (.inside u)) :
    Passes id c (c.call rest u) := by
  subst hf
  by_cases hu : ∃ m, u = .send m
  · obtain ⟨m, rfl⟩ := hu
    rw [call, if_pos engaged.isOpen]
    exact .of_eq (by simp [hstack]) rfl rfl (by simp [hstack])
  · rw [call_of_ne_send fun m hm => hu ⟨m, hm⟩]
    refine passes_answered hstack ?_ rfl fun g hg => (sound_resume g hg).1
    cases u with
    | send m => exact absurd ⟨m, rfl⟩ hu
    | _ => rfl

theorem passes_concluded {i : OperationId} {p : Payload} (hf : f = .conclude i p) :
    Passes id c (step S c rest f) := by
  subst hf
  have link := engaged.links id
  rw [hstack] at link
  by_cases hid : i = id
  · subst hid
    have hbelow : legs i rest = [] := Link.single (l := .preparing p) (by simpa using link)
    refine ⟨[(p, (S.handler.prepare c.store i p).1)], [], ?_, ?_, ?_⟩
    · simpa [hstack, step, hbelow] using Passage.handled
    · simp [prepares, step, HandlerCall.preparation?]
    · simp [hstack, step, replies]
  · refine ⟨[], [], ?_, ?_, ?_⟩
    · simpa [hstack, step, legOf_of_ne hid] using Passage.still
    · simp [prepares, step, HandlerCall.preparation?, hid]
    · simp [hstack, step, replies]

theorem passes_served {u : Endpoint.Upcall} (hf : f = .endpoint (.inside u)) :
    Passes id c (c.serve S rest u) := by
  subst hf
  cases u with
  | prepare i p =>
    -- the reports that are made meanwhile are no news
    have hreports : ∀ (l : List Report), legs id (l.map fun r =>
          Frame.endpoint (.todo (.raise (.reply (.report i r.severity r.text))))) = [] ∧
        replying id (l.map fun r =>
          Frame.endpoint (.todo (.raise (.reply (.report i r.severity r.text))))) = [] := by
      intro l
      have hlegs : legs id (l.map fun r =>
          Frame.endpoint (.todo (.raise (.reply (.report i r.severity r.text))))) = [] :=
        filterMap_map_of_none (fun _ => rfl) l
      exact ⟨hlegs, replying_of_legs hlegs⟩
    refine .of_eq ?_ rfl rfl ?_
    · simp [hstack, serve, (hreports _).1]
    · simp [hstack, serve, (hreports _).2]
  | finalize t d =>
    have link := engaged.links id
    rw [hstack] at link
    refine ⟨[], [], ?_, by simp [prepares, serve, HandlerCall.preparation?],
      by simp [hstack, serve, replies]⟩
    by_cases hid : t.id = id
    · subst hid
      have hbelow : legs t.id rest = [] := Link.single (l := .finalizing d) (by simpa using link)
      have hlate : Passage t.id (t.id ∉ c.clientThreads.given) [.finalizing d]
          [.finalized d (S.handler.finalize c.store t.id d).1] [] [] := .late rfl (by simp [Leg.isLate])
      simpa [hstack, serve, hbelow] using hlate
    · simpa [hstack, serve, legOf_of_ne hid] using Passage.still
  | record i event => exact .of_eq (by simp [hstack, serve]) rfl rfl (by simp [hstack, serve])
  | reply m => exact .of_eq (by simp [hstack, serve]) rfl rfl (by simp [hstack, serve])

end

/-- **Every move of an open loopback is a passage of each operation.** -/
theorem passes_move (engaged : Engaged c) (engaged' : Engaged (c.move S))
    (hunused : c.client.nextId ∉ c.clientThreads.given) : Passes id c (c.move S) := by
  rcases hstack : c.stack with _ | ⟨f, rest⟩
  · rw [move_nil hstack]
    exact .of_eq rfl rfl rfl rfl
  -- a move counts the age up first, and no leg depends on it
  have aged : Engaged { c with age := c.age + 1 } :=
    ⟨engaged.isOpen, engaged.closed, engaged.links, engaged.sound⟩
  cases f with
  | client f =>
    cases f with
    | todo t => exact passes_performed engaged hstack rfl hunused engaged'
    | inside u =>
      rw [move_cons hstack]
      exact passes_called aged hstack rfl
  | returning m =>
    rw [move_cons hstack]
    refine passes_answered (c := { c with age := c.age + 1 }) hstack rfl rfl fun g hg => ?_
    cases m <;> exact List.mem_singleton.mp hg ▸ rfl
  | conclude i p =>
    rw [move_cons hstack]
    exact passes_concluded (c := { c with age := c.age + 1 }) aged hstack rfl
  | endpoint f =>
    rw [move_cons hstack]
    cases f with
    | inside u => exact passes_served aged hstack rfl
    | todo t =>
      have links := engaged.links
      rw [hstack] at links
      obtain ⟨news, passage, hnews, hlast⟩ := passage_serve id (S.clock (c.age + 1))
        (id ∉ c.clientThreads.given) links
      refine ⟨[], news, ?_, (List.append_nil _).symm, ?_⟩
      · rw [hstack]
        exact passage
      · show c.replies id ++ replying id ((c.endpoint.perform (S.clock (c.age + 1)) t).frames.map
          Frame.endpoint ++ rest) = _
        rw [hstack, replying_append, hnews, replying_cons]
        -- where the participant sends news, nothing below is about the operation, so the news come last
        rcases hlast with rfl | hbelow
        · simp
        · simp [replying_of_legs hbelow]

end Loopback

/-! ## Stations -/

/-- What was encoded is read as it was, and it is so deep only if it cannot be read. -/
theorem Loopback.Encodes.decoded {op : Operation} {payload : List UInt8} (h : Encodes op payload) :
    (∀ p, Payload.decode payload = .ok p → p = op.payload ∧ op.payload.depth ≤ Json.depthLimit) ∧
      ∀ e, Payload.decode payload = .error e →
        Json.depthLimit < op.payload.depth ∧ e.fault = .tooDeep := by
  obtain ⟨limit, hencode⟩ := h
  obtain ⟨hok, hdeep⟩ := Payload.decode_encode hencode
  obtain ⟨hfinite, -, htext⟩ := Payload.encode_eq_ok.mp hencode
  rw [← htext, Payload.nesting_toJson hfinite, htext] at hok hdeep
  constructor
  · intro p hp
    rcases Nat.lt_or_ge Json.depthLimit op.payload.depth with hlt | hle
    · obtain ⟨e, herror, -⟩ := hdeep hlt
      cases hp.symm.trans herror
    · exact ⟨Except.ok.inj (hp.symm.trans (hok hle)), hle⟩
  · intro e he
    rcases Nat.lt_or_ge Json.depthLimit op.payload.depth with hlt | hle
    · obtain ⟨e', herror, hfault⟩ := hdeep hlt
      obtain rfl := Except.error.inj (he.symm.trans herror)
      exact ⟨hlt, hfault⟩
    · cases he.symm.trans (hok hle)

/-- How far an operation has come that was submitted, by its legs, what the handler was asked to prepare
and the news about it. -/
inductive Station (id : OperationId) (op : Operation) :
    List Leg → List (Payload × Except Failure Value) → List Inbound → Prop
  | sent {payload : List UInt8} (h : Loopback.Encodes op payload) :
      Station id op [.submission payload] [] []
  | reading {payload : List UInt8} (h : Loopback.Encodes op payload) :
      Station id op [.reading payload] [] []
  | preparing (hfits : op.payload.depth ≤ Json.depthLimit) :
      Station id op [.preparing op.payload] [] []
  | handled {result : Except Failure Value} (hfits : op.payload.depth ≤ Json.depthLimit) :
      Station id op [.prepared result] [(op.payload, result)] []
  | refused {e : Json.ReadError} (hdeep : Json.depthLimit < op.payload.depth)
      (hfault : e.fault = .tooDeep) : Station id op [.prepared (.error e.refusal)] [] []
  | announced {legs : List Leg} {result : Except Failure Value} {more : List Inbound}
      (hlate : ∀ l ∈ legs, l.isLate = true) (hfits : op.payload.depth ≤ Json.depthLimit) :
      Station id op legs [(op.payload, result)] (HandlerCall.announcement id result :: more)
  | returned {legs : List Leg} {e : Json.ReadError} {more : List Inbound}
      (hlate : ∀ l ∈ legs, l.isLate = true) (hdeep : Json.depthLimit < op.payload.depth)
      (hfault : e.fault = .tooDeep) : Station id op legs [] (.failed id e.refusal :: more)

/-- A passage leads from station to station. -/
theorem Station.pass {id : OperationId} {op : Operation} {unknown : Prop} {legs legs' : List Leg}
    {asked asked' : List (Payload × Except Failure Value)} {news news' : List Inbound}
    (station : Station id op legs asked news) (hknown : ¬ unknown)
    (passage : Passage id unknown legs legs' asked' news') :
    Station id op legs' (asked ++ asked') (news ++ news') := by
  -- the legs of a passage determine the station it starts from; the late stations have none that could
  -- be received, read or handled
  cases passage with
  | still => simpa using station
  | submitted h => exact absurd h hknown
  | received =>
    cases station with
    | sent h => exact .reading h
    | announced hlate => simp [Leg.isLate] at hlate
    | returned hlate => simp [Leg.isLate] at hlate
  | read hdecode =>
    cases station with
    | reading h =>
      obtain ⟨rfl, hfits⟩ := h.decoded.1 _ hdecode
      exact .preparing hfits
    | announced hlate => simp [Leg.isLate] at hlate
    | returned hlate => simp [Leg.isLate] at hlate
  | unreadable hdecode =>
    cases station with
    | reading h =>
      obtain ⟨hdeep, hfault⟩ := h.decoded.2 _ hdecode
      exact .refused hdeep hfault
    | announced hlate => simp [Leg.isLate] at hlate
    | returned hlate => simp [Leg.isLate] at hlate
  | handled =>
    cases station with
    | preparing hfits => exact .handled hfits
    | announced hlate => simp [Leg.isLate] at hlate
    | returned hlate => simp [Leg.isLate] at hlate
  | announced =>
    cases station with
    | handled hfits => exact .announced (by simp [Leg.isLate]) hfits
    | refused hdeep hfault => exact .returned (by simp [Leg.isLate]) hdeep hfault
    | announced hlate => simp [Leg.isLate] at hlate
    | returned hlate => simp [Leg.isLate] at hlate
  | decided =>
    cases station with
    | announced hlate hfits => simpa using Station.announced (by simp [Leg.isLate]) hfits
    | returned hlate hdeep hfault => simpa using Station.returned (by simp [Leg.isLate]) hdeep hfault
  | late hl hafter =>
    cases station with
    | announced hlate hfits => simpa using Station.announced hafter hfits
    | returned hlate hdeep hfault => simpa using Station.returned hafter hdeep hfault
    | _ => contradiction

namespace Loopback

variable {σ : Type} {S : Setting σ} {c : Loopback σ} {id : OperationId}

/-- An operation that was given no identifier has left no trace, and every other one is at a station. -/
def Followed (c : Loopback σ) (id : OperationId) : Prop :=
  (id ∉ c.clientThreads.given ∧ c.prepares id = [] ∧ c.replies id ++ replying id c.stack = []) ∨
    ∃ op, c.operation? id = some op ∧
      Station id op (legs id c.stack) (c.prepares id) (c.replies id ++ replying id c.stack)

/-- What was not given an identifier is on no leg. -/
theorem Visited.legs_of_not_given (h : Visited S c) (engaged : Engaged c)
    (hgiven : id ∉ c.clientThreads.given) :
    c.endpoint.transactions.get? id = none ∧ legs id c.stack = [] := by
  have hnone : c.client.pending.get? id = none := by
    obtain ⟨schedule, hschedule⟩ := reachable_clientThreads h
    rw [hschedule] at hgiven
    have hpending := ClientThreads.pending_given S.config schedule id hgiven
    rwa [← hschedule] at hpending
  have link := engaged.links id
  rw [hnone] at link
  generalize c.endpoint.transactions.get? id = x at link
  generalize legs id c.stack = below at link
  cases link
  exact ⟨rfl, rfl⟩

/-- An operation that was just given its identifier is on its way. -/
theorem Followed.begun (h : Visited S c) (engaged : Engaged c) (engaged' : Engaged (c.move S))
    (hunknown : id ∉ c.clientThreads.given) (hgiven : id ∈ (c.move S).clientThreads.given)
    (hprepares : c.prepares id = []) (hreplies : c.replies id ++ replying id c.stack = [])
    (passes : Passes id c (c.move S)) : Followed (c.move S) id := by
  obtain ⟨hfar, hlegs⟩ := h.legs_of_not_given engaged hunknown
  rcases client_move (S := S) c with ⟨t, rest, hstack, hclient, hpast⟩ | ⟨-, hpast⟩
  · have hallots : c.client.allots t = some id := by
      have hsplit : (c.move S).clientThreads.given =
        c.clientThreads.given ++ (c.client.allots t).toList := by
        show List.flatMap Mark.given (c.move S).past = _
        rw [hpast, List.flatMap_append, Client.flatMap_marks]
        rfl
      rw [hsplit, List.mem_append] at hgiven
      exact Option.mem_toList.mp (hgiven.resolve_left hunknown)
    obtain ⟨listener, op, payload, rfl⟩ : ∃ listener op payload, t = .enlist listener op payload := by
      cases t <;> first | contradiction | exact ⟨_, _, _, rfl⟩
    obtain ⟨hclosed, rfl⟩ : c.client.closed = false ∧ c.client.nextId = id := by
      simpa [Client.allots] using hallots
    have hnone := operation_of_not_given hunknown
    have hop : (c.move S).operation? c.client.nextId = some op := by
      rw [operation?] at hnone
      rw [operation?, hpast, submissions_append (fun _ h => by cases h), List.lookup_append, hnone,
        submissions_marks]
      simp [hclosed]
    have hentry : (c.move S).client.pending.get? c.client.nextId = some ⟨op, .submitted, none⟩ := by
      simp [hclient, Client.perform, Client.enlist, hclosed, Table.get?_insert]
    have hfar' : (c.move S).endpoint.transactions.get? c.client.nextId = none := by
      rw [move_cons hstack]
      exact hfar
    have link := engaged'.links c.client.nextId
    rw [hentry, hfar'] at link
    obtain ⟨asked, news, passage, hasked, hnews⟩ := passes
    rw [hlegs] at passage
    refine Or.inr ⟨op, hop, ?_⟩
    rw [hasked, hnews, hprepares, hreplies]
    generalize legs c.client.nextId (c.move S).stack = after at passage link
    -- it was on no leg, so it can only be on its first one
    cases link with
    | submitting hpayload =>
      cases passage
      exact .sent hpayload
    | refused => cases passage
  · refine absurd ?_ hunknown
    have hsame : (c.move S).clientThreads.given = c.clientThreads.given := by
      show List.flatMap Mark.given (c.move S).past = List.flatMap Mark.given c.past
      rcases hpast with hpast | ⟨u, a, hpast⟩
      · rw [hpast]
      · rw [hpast, List.flatMap_append]
        exact List.append_nil _
    exact hsame ▸ hgiven

theorem Followed.moved (h : Followed c id) (hvisited : Visited S c) (engaged : Engaged c)
    (engaged' : Engaged (c.move S)) (hunused : c.client.nextId ∉ c.clientThreads.given) :
    Followed (c.move S) id := by
  have passes : Passes id c (c.move S) := passes_move engaged engaged' hunused
  rcases h with ⟨hunknown, hprepares, hreplies⟩ | ⟨op, hop, station⟩
  · by_cases hgiven : id ∈ (c.move S).clientThreads.given
    · exact Followed.begun hvisited engaged engaged' hunknown hgiven hprepares hreplies passes
    · obtain ⟨asked, news, passage, hasked, hnews⟩ := passes
      rw [(hvisited.legs_of_not_given engaged hunknown).2,
        (hvisited.moved.legs_of_not_given engaged' hgiven).2] at passage
      cases passage
      exact Or.inl ⟨hgiven, by rw [hasked, hprepares]; rfl, by rw [hnews, hreplies]; rfl⟩
  · obtain ⟨asked, news, passage, hasked, hnews⟩ := passes
    obtain ⟨marks, hgrown, hmarks⟩ := past_grows (S := S) c
    have hknown : id ∈ c.clientThreads.given := by
      by_contra hunknown
      cases hop.symm.trans (operation_of_not_given hunknown)
    refine Or.inr ⟨op, operation_grows hgrown hmarks hop, ?_⟩
    rw [hasked, hnews]
    exact station.pass (not_not.mpr hknown) passage

/-- **While nobody closes anything, every operation is at a station.** -/
theorem Open.followed (h : Open S c) (hgiven : c.clientThreads.given.length < 2 ^ 64) (id : OperationId) :
    Followed c id := by
  induction h with
  | fresh => exact Or.inl ⟨List.not_mem_nil, rfl, rfl⟩
  | @taken c h hidle a ha ih =>
    -- what is asked of the client is no leg yet, and brings no news
    have hlegs : legs id (c.take a).stack = [] := by
      refine legs_of_none fun f hf => ?_
      rw [stack_take hidle, Option.mem_toList, Option.map_eq_some_iff] at hf
      obtain ⟨r, hr, rfl⟩ := hf
      exact (sound_request ha hr).1
    have hbefore := ih hgiven
    unfold Followed at hbefore ⊢
    rw [hidle, legs_nil, replying_nil] at hbefore
    rw [replying_of_legs hlegs, hlegs]
    exact hbefore
  | @moved c h ih =>
    have hbefore := Nat.lt_of_le_of_lt (h.visited.given_le (S := S)) hgiven
    exact (ih hbefore).moved h.visited (h.engaged hbefore) (h.moved.engaged hgiven)
      (h.visited.unused hbefore).1

/-! ## What becomes of a submission -/

/-- What a submission has come to: the handler was asked to prepare it as it was submitted, and what it
answered was the first news; or it was too deep to be read, and that was the first news. -/
structure Received (c : Loopback σ) (id : OperationId) (op : Operation) : Prop where
  readable : op.payload.depth ≤ Json.depthLimit → ∃ result,
    c.prepares id = [(op.payload, result)] ∧
      (c.replies id).head? = some (HandlerCall.announcement id result)
  unreadable : Json.depthLimit < op.payload.depth → c.prepares id = [] ∧ ∃ e : Json.ReadError,
    e.message = "recursion limit exceeded" ++ e.place.message ∧
      (c.replies id).head? = some (.failed id (.rejected ("malformed operation: " ++ e.message)))

theorem Followed.received (h : Followed c id) (hidle : c.stack = []) (hknown : id ∈ c.clientThreads.given) :
    ∃ op, c.operation? id = some op ∧ Received c id op := by
  rcases h with ⟨hunknown, -⟩ | ⟨op, hop, station⟩
  · exact absurd hknown hunknown
  · rw [hidle, legs_nil, replying_nil, List.append_nil] at station
    refine ⟨op, hop, ?_⟩
    generalize hasked : c.prepares id = asked at station
    generalize hnews : c.replies id = news at station
    cases station with
    | announced hlate hfits =>
      refine ⟨fun _ => ⟨_, hasked, by rw [hnews]; rfl⟩, fun hdeep => ?_⟩
      omega
    | @returned _ e more hlate hdeep hfault =>
      refine ⟨fun hfits => ?_, fun _ => ⟨hasked, e, ?_, by rw [hnews]; rfl⟩⟩
      · omega
      · rw [Json.ReadError.message, hfault]
        rfl

/-- What happens after a close does not change what a submission has come to. -/
theorem Received.still {c' : Loopback σ} {op : Operation} (h : Received c id op) (still : Still c c') :
    Received c' id op := by
  have hprepares : c'.prepares id = c.prepares id := by rw [prepares, still.handlerCalls, prepares]
  obtain ⟨marks, hpast, -⟩ := still.past
  have hhead {m : Inbound} (hm : (c.replies id).head? = some m) : (c'.replies id).head? = some m := by
    rw [replies, hpast, List.filterMap_append, List.head?_append]
    exact Option.or_eq_some_iff.mpr (Or.inl hm)
  constructor
  · intro hfits
    obtain ⟨result, hasked, hnews⟩ := h.readable hfits
    exact ⟨result, hprepares.trans hasked, hhead hnews⟩
  · intro hdeep
    obtain ⟨hasked, e, hmessage, hnews⟩ := h.unreadable hdeep
    exact ⟨hprepares.trans hasked, e, hmessage, hhead hnews⟩

/-- Only the submitter of an operation that was given its identifier is told anything. -/
theorem Visited.given_of_answered (h : Visited S c) (hgiven : c.clientThreads.given.length < 2 ^ 64 - 1)
    {answer : Except ClientError OperationId} (hanswer : answer ∈ c.clientThreads.answers id) :
    id ∈ c.clientThreads.given := by
  obtain ⟨schedule, hschedule⟩ := reachable_clientThreads h
  rw [hschedule] at hgiven hanswer ⊢
  have hexists : (ClientThreads.run S.config schedule).share id = .blank ∨
      ((ClientThreads.run S.config schedule).share id).enlistings = 1 ∧ True :=
    ClientThreads.share_induction (P := fun _ => True) (fun _ _ _ => trivial) (fun _ _ _ _ _ _ => trivial)
      schedule (ClientThreads.count_given_le S.config schedule id hgiven)
  rcases hexists with hblank | ⟨hone, -⟩
  · have hnone : (ClientThreads.run S.config schedule).answers id = [] :=
      congrArg OperationShare.answers hblank
    rw [hnone] at hanswer
    contradiction
  · have hcount : (ClientThreads.run S.config schedule).given.count id = 1 := hone
    exact List.count_pos_iff.mp (by omega)

/-- Every operation that was given an identifier has been received once the loopback stands still. -/
theorem received_run (S : Setting σ) (actions : List Action)
    (hgiven : (run S actions).clientThreads.given.length < 2 ^ 64 - 1)
    (hknown : id ∈ (run S actions).clientThreads.given) :
    ∃ op, (run S actions).operation? id = some op ∧ Received (run S actions) id op := by
  rcases (visited_run (S := S) actions).open_or_still with hopen | ⟨before, hbefore, hidle, -, still⟩
  · exact (hopen.followed (by omega) id).received (run_idle actions) hknown
  · rw [still.given] at hgiven hknown
    obtain ⟨op, hop, received⟩ := (hbefore.followed (by omega) id).received hidle hknown
    exact ⟨op, (still.operation id).trans hop, received.still still⟩

/-- **What a client takes, the participant's handler is given**: the same request with the same
attachments, unless it nests more levels of brackets than can be read. Such a submission is taken as
well, but the handler never learns of it, and the first news about it is that it is malformed. -/
theorem received_of_taken (S : Setting σ) (actions : List Action) (id : OperationId)
    (hgiven : (run S actions).clientThreads.given.length < 2 ^ 64 - 1)
    (htaken : .ok id ∈ (run S actions).clientThreads.answers id) :
    ∃ op, (run S actions).operation? id = some op ∧ Received (run S actions) id op :=
  received_run S actions hgiven ((visited_run actions).given_of_answered hgiven htaken)

/-! ## A request that is too deep -/

/-- Somebody has a value written that is inside sixty lists, and another one that is inside three more. -/
def plumbed : List Action :=
  let write (n : Nat) : Action := .execute (.recorder "patient")
    ⟨KeyValue.write "x" (Payload.nested (.boolean true) n), [⟨"plan", [0, 255]⟩], .discard⟩
  [write 60, write 63]

/-- What comes of it: both are taken, and the second one is too deep. -/
theorem rehearse_plumbed :
    (∀ k ≤ plumbed.length, (rehearse exchange 80 (plumbed.take k)).stack = []) ∧
      (rehearse exchange 80 plumbed).clientThreads.given.length < 2 ^ 64 - 1 ∧
      (∀ id ∈ ([⟨1⟩, ⟨2⟩] : List OperationId), ((rehearse exchange 80 plumbed).clientThreads.answers id).any
        (fun answer => answer.toOption == some id) = true) ∧
      ((rehearse exchange 80 plumbed).operation? ⟨2⟩).any
        (fun op => decide (Json.depthLimit < op.payload.depth)) = true := by
  -- all of it at once, since it is the same rehearsal
  decide +kernel

theorem run_plumbed : run exchange plumbed = rehearse exchange 80 plumbed :=
  run_eq_rehearse rehearse_plumbed.1

theorem given_plumbed : (run exchange plumbed).clientThreads.given.length < 2 ^ 64 - 1 := by
  rw [run_plumbed]
  exact rehearse_plumbed.2.1

theorem taken_plumbed {id : OperationId} (h : id = ⟨1⟩ ∨ id = ⟨2⟩) :
    .ok id ∈ (run exchange plumbed).clientThreads.answers id := by
  obtain ⟨answer, hmem, hanswer⟩ := List.any_eq_true.mp (rehearse_plumbed.2.2.1 id (by simpa using h))
  rw [run_plumbed]
  rcases answer with e | i
  · simp [Except.toOption] at hanswer
  · obtain rfl : i = id := by simpa [Except.toOption] using hanswer
    exact hmem

/-- The first is prepared, and the second is refused for its depth. -/
theorem received_of_plumbed :
    (run exchange plumbed).clientThreads.given.length < 2 ^ 64 - 1 ∧
      .ok ⟨1⟩ ∈ (run exchange plumbed).clientThreads.answers ⟨1⟩ ∧
      .ok ⟨2⟩ ∈ (run exchange plumbed).clientThreads.answers ⟨2⟩ ∧
      (∃ op, (run exchange plumbed).operation? ⟨1⟩ = some op ∧
        Received (run exchange plumbed) ⟨1⟩ op) ∧
      ∃ op, (run exchange plumbed).operation? ⟨2⟩ = some op ∧
        Received (run exchange plumbed) ⟨2⟩ op :=
  ⟨given_plumbed, taken_plumbed (Or.inl rfl), taken_plumbed (Or.inr rfl),
    received_of_taken exchange plumbed ⟨1⟩ given_plumbed (taken_plumbed (Or.inl rfl)),
    received_of_taken exchange plumbed ⟨2⟩ given_plumbed (taken_plumbed (Or.inr rfl))⟩

/-- **A submission is taken that nobody can read**: its identifier is returned, the handler is not asked
to prepare it, and the first news about it is that it is malformed. -/
theorem taken_unread :
    .ok ⟨2⟩ ∈ (run exchange plumbed).clientThreads.answers ⟨2⟩ ∧
      (run exchange plumbed).prepares ⟨2⟩ = [] ∧
      ∃ e : Json.ReadError, e.message = "recursion limit exceeded" ++ e.place.message ∧
        ((run exchange plumbed).replies ⟨2⟩).head? =
          some (.failed ⟨2⟩ (.rejected ("malformed operation: " ++ e.message))) := by
  have htaken := taken_plumbed (Or.inr rfl)
  obtain ⟨op, hop, received⟩ := received_run exchange plumbed given_plumbed
    ((visited_run plumbed).given_of_answered given_plumbed htaken)
  refine ⟨htaken, received.unreadable ?_⟩
  have hdeep := rehearse_plumbed.2.2.2
  rw [← run_plumbed] at hdeep
  rw [hop] at hdeep
  exact of_decide_eq_true hdeep

end Loopback

end TwoPhase
