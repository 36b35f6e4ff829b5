import TwoPhase.Proofs.Loopback.Basic
import TwoPhase.Proofs.Wire.Payloads
/-
An operation's way around a loopback.

At most one frame carries an operation on at any time: its submission on the way to the participant, the
handler that prepares it, the reply on the way back, the decision and what follows. `Link` lists how far
an operation can have come, by its entry at the client, its transaction at the participant and the leg
that it is on. Each move of either end takes it from one line of that list to another.
-/

set_option autoImplicit false

namespace TwoPhase

open Client (Task)

/-! ## Legs -/

/-- A part of an operation's way around. -/
inductive Leg where
  /-- Its submission is on the way to the participant. -/
  | submission (payload : List UInt8)
  /-- The participant is about to read its payload. -/
  | reading (payload : List UInt8)
  /-- The handler is about to prepare it. -/
  | preparing (p : Payload)
  /-- The handler has said whether it is prepared. -/
  | prepared (result : Except Failure Value)
  /-- News about it are on the way to the client. -/
  | news (m : Inbound)
  /-- Its decision is on the way to the participant. -/
  | decision (d : Decision)
  /-- The handler is about to carry out its decision. -/
  | finalizing (d : Decision)
  /-- The handler has said whether that went well. -/
  | finalized (d : Decision) (result : Except Failure Value)
  /-- The channel has refused a message about it. -/
  | lost

/-- The leg that a message of the client is. -/
def Outbound.leg : Outbound → Leg
  | .execute _ payload => .submission payload
  | .commit _ => .decision .commit
  | .rollback _ => .decision .rollback

@[simp] theorem Outbound.leg_execute (id : OperationId) (payload : List UInt8) :
    (Outbound.execute id payload).leg = .submission payload := rfl

@[simp] theorem Outbound.leg_decide (id : OperationId) (d : Decision) :
    (Outbound.decide id d).leg = .decision d := by
  cases d <;> rfl

/-- The leg that a message of the participant is. A report does not carry its operation on. -/
def Inbound.leg? (m : Inbound) : Option (OperationId × Leg) := m.news?.map (·, .news m)

/-- The operation that a frame of the client carries on, and its leg. -/
def Client.Frame.leg? : Client.Frame → Option (OperationId × Leg)
  | .todo (.raise (.send m)) | .inside (.send m) => some (m.id, m.leg)
  | .todo (.submissionSent id (.error _)) | .todo (.decisionSent id _ (.error _)) => some (id, .lost)
  | .todo (.dispatch m) => m.leg?
  | .todo (.accept id result) => some (id, .news (.prepared id result))
  | .todo (.finish id (.completed result) _) => some (id, .news (.completed id result))
  | .todo (.finish id (.failed f) _) => some (id, .news (.failed id f))
  | _ => none

/-- The operation that a frame of the participant carries on, and its leg. -/
def Endpoint.Frame.leg? : Endpoint.Frame → Option (OperationId × Leg)
  | .todo (.receive m) => some (m.id, m.leg)
  | .todo (.decode id payload) => some (id, .reading payload)
  | .todo (.raise (.prepare id p)) | .inside (.prepare id p) => some (id, .preparing p)
  | .todo (.prepared id result) => some (id, .prepared result)
  | .todo (.raise (.finalize t d)) | .inside (.finalize t d) => some (t.id, .finalizing d)
  | .todo (.finalized t d result) => some (t.id, .finalized d result)
  | .todo (.raise (.reply m)) | .inside (.reply m) => m.leg?
  | _ => none

namespace Client

/-- Whether a task touches neither the table nor any operation's leg. -/
def Task.isPlain : Task → Bool
  | .submit .. | .decide .. | .decided .. | .report .. | .announce _ | .drain _ | .called ..
  | .resolve .. | .subscribe .. => true
  | .submissionSent _ (.ok _) | .decisionSent _ _ (.ok _) => true
  | _ => false

variable {c : Client} {t : Task} {id : OperationId}

/-- A plain task carries no operation on. -/
theorem leg_of_plain (ht : t.isPlain = true) : (Frame.todo t).leg? = none := by
  cases t with
  | submissionSent id result => cases result <;> first | rfl | contradiction
  | decisionSent id d result => cases result <;> first | rfl | contradiction
  | _ => first | rfl | contradiction

/-- Plain tasks leave no frame that would carry an operation on. -/
theorem legs_of_plain (ht : t.isPlain = true) : ∀ f ∈ (c.perform t).frames, f.leg? = none := by
  intro f hf
  cases c.perform_leaves t f hf with
  | entering => contradiction
  | inbound => contradiction
  | failing => contradiction
  | deciding => contradiction
  | submitting => contradiction
  | _ => rfl

/-- Plain tasks leave the table as it is. -/
theorem pending_of_plain (ht : t.isPlain = true) :
    (c.perform t).client.pending.get? id = c.pending.get? id := by
  have hentry {v v' : View} {y : Yield} (touch : Touch id v t v' y) : v'.entry = v.entry := by
    cases touch <;> first | rfl | contradiction
  exact hentry (c.perform_touch id t)

end Client

namespace Loopback

/-- The operation that a frame carries on, and its leg. -/
def Frame.leg? : Frame → Option (OperationId × Leg)
  | .client f => f.leg?
  | .endpoint f => f.leg?
  | .conclude id p => some (id, .preparing p)
  | .returning _ => none

/-- The leg of an operation, if it is the one that is carried on. -/
def legOf (id : OperationId) (carried : Option (OperationId × Leg)) : Option Leg :=
  carried.bind fun l => if l.1 = id then some l.2 else none

/-- The legs that an operation is on. -/
def legs (id : OperationId) (stack : List Frame) : List Leg :=
  stack.filterMap fun f => legOf id f.leg?

section

variable {id : OperationId}

@[simp] theorem legOf_none : legOf id none = none := rfl

@[simp] theorem legOf_self (l : Leg) : legOf id (some (id, l)) = some l := if_pos rfl

theorem legOf_of_ne {i : OperationId} (h : i ≠ id) (l : Leg) : legOf id (some (i, l)) = none :=
  if_neg h

@[simp] theorem legs_nil : legs id [] = [] := rfl

@[simp] theorem legs_cons (f : Frame) (rest : List Frame) :
    legs id (f :: rest) = (legOf id f.leg?).toList ++ legs id rest :=
  filterMap_cons_toList _ f rest

@[simp] theorem legs_append (first rest : List Frame) :
    legs id (first ++ rest) = legs id first ++ legs id rest := List.filterMap_append

/-- Frames that carry nothing on are no leg of any operation. -/
theorem legs_of_none {frames : List Frame} (h : ∀ f ∈ frames, f.leg? = none) :
    legs id frames = [] :=
  List.filterMap_eq_nil_iff.mpr fun f hf => by rw [h f hf]; rfl

theorem legs_client_of_none {frames : List Client.Frame} (h : ∀ f ∈ frames, f.leg? = none) :
    legs id (frames.map Frame.client) = [] := by
  refine legs_of_none fun f hf => ?_
  obtain ⟨g, hg, rfl⟩ := List.mem_map.mp hf
  exact h g hg

end

/-! ## How far an operation has come -/

/-- A payload is what an operation was encoded to. -/
def Encodes (op : Operation) (payload : List UInt8) : Prop :=
  ∃ limit, op.payload.encode limit = .ok payload

/-- What was encoded is decoded to what it was, if it is decoded at all. -/
theorem Encodes.decode {op : Operation} {payload : List UInt8} (h : Encodes op payload) :
    Payload.decode payload = .ok op.payload ∨ ∃ e, Payload.decode payload = .error e := by
  obtain ⟨limit, hencode⟩ := h
  obtain ⟨hok, hdeep⟩ := Payload.decode_encode hencode
  -- a payload that nests too deeply is not read back; every other one is
  rcases Nat.lt_or_ge 127 (Json.nesting payload) with hlt | hle
  · obtain ⟨e, herror, -⟩ := hdeep hlt
    exact Or.inr ⟨e, herror⟩
  · exact Or.inl (hok hle)

/-- How far an operation has come, by its entry, its transaction and its legs. -/
inductive Link (id : OperationId) : Option Pending → Option Transaction → List Leg → Prop
  | absent : Link id none none []
  | submitting {op : Operation} {payload : List UInt8} (hpayload : Encodes op payload) :
      Link id (some ⟨op, .submitted, none⟩) none [.submission payload]
  | reading {op : Operation} {payload : List UInt8} {r : ReceivedTransaction}
      (hpayload : Encodes op payload) (hr : r.id = id) :
      Link id (some ⟨op, .submitted, none⟩) (some (.received r)) [.reading payload]
  | preparing {op : Operation} {r : ReceivedTransaction} (hr : r.id = id) :
      Link id (some ⟨op, .submitted, none⟩) (some (.received r)) [.preparing op.payload]
  | prepared {op : Operation} {r : ReceivedTransaction} {result : Except Failure Value}
      (hr : r.id = id) :
      Link id (some ⟨op, .submitted, none⟩) (some (.received r)) [.prepared result]
  | announced {op : Operation} {t : PreparedTransaction} {result : Value} (ht : t.id = id) :
      Link id (some ⟨op, .submitted, none⟩) (some (.prepared t)) [.news (.prepared id result)]
  | refused {op : Operation} {f : Failure} :
      Link id (some ⟨op, .submitted, none⟩) none [.news (.failed id f)]
  | held {op : Operation} {t : PreparedTransaction} (ht : t.id = id) :
      Link id (some ⟨op, .prepared, none⟩) (some (.prepared t)) []
  | deciding {op : Operation} {t : PreparedTransaction} {d : Decision} (ht : t.id = id) :
      Link id (some ⟨op, .prepared, some d⟩) (some (.prepared t)) [.decision d]
  | finalizing {op : Operation} {d : Decision} :
      Link id (some ⟨op, .prepared, some d⟩) none [.finalizing d]
  | finalized {op : Operation} {d : Decision} {result : Except Failure Value} :
      Link id (some ⟨op, .prepared, some d⟩) none [.finalized d result]
  | answered {op : Operation} {d : Decision} {result : Except Failure Value} :
      Link id (some ⟨op, .prepared, some d⟩) none [.news (HandlerCall.reply id result)]

namespace Link

variable {id : OperationId} {entry : Option Pending} {x : Option Transaction} {below : List Leg}

/-- The news that an operation is prepared find it held at the other end, and not prepared here. -/
theorem of_prepared {result : Value}
    (link : Link id entry x (.news (.prepared id result) :: below)) :
    ∃ op t, t.id = id ∧ entry = some ⟨op, .submitted, none⟩ ∧ x = some (.prepared t) ∧
      below = [] := by
  generalize hlegs : Leg.news (.prepared id result) :: below = all at link
  cases link with
  | announced ht => exact ⟨_, _, ht, rfl, rfl, (List.cons.inj hlegs).2⟩
  | @answered op d other =>
    -- these news would be about an end
    have hreply := Leg.news.inj (List.cons.inj hlegs).1
    cases other <;> cases hreply
  | _ => cases hlegs

/-- The news that an operation has ended find nothing of it at the other end, and an entry here that
admits that end. -/
theorem of_ended {outcome : Outcome} {m : Inbound}
    (hm : m = match outcome with
      | .completed result => .completed id result
      | .failed f => .failed id f)
    (link : Link id entry x (.news m :: below)) :
    ∃ pending, entry = some pending ∧ pending.phase.allows (Client.finalPhase outcome) = true ∧
      x = none ∧ below = [] := by
  generalize hlegs : Leg.news m :: below = all at link
  cases link with
  | refused =>
    have hsame := (Leg.news.inj (List.cons.inj hlegs).1).symm.trans hm
    cases outcome with
    | completed result => cases hsame
    | failed f => exact ⟨_, rfl, rfl, rfl, (List.cons.inj hlegs).2⟩
  | answered => cases outcome <;> exact ⟨_, rfl, rfl, rfl, (List.cons.inj hlegs).2⟩
  | announced =>
    have hsame := (Leg.news.inj (List.cons.inj hlegs).1).symm.trans hm
    cases outcome <;> cases hsame
  | _ => cases hlegs

/-- A submission that is on its way belongs to an operation that is submitted here and not known at the
other end. -/
theorem of_submission {payload : List UInt8} (link : Link id entry x (.submission payload :: below)) :
    ∃ op, Encodes op payload ∧ entry = some ⟨op, .submitted, none⟩ ∧ x = none ∧ below = [] := by
  cases link with
  | submitting hpayload => exact ⟨_, hpayload, rfl, rfl, rfl⟩

/-- A payload that is about to be read belongs to an operation that is submitted here and received at
the other end. -/
theorem of_reading {payload : List UInt8} (link : Link id entry x (.reading payload :: below)) :
    ∃ op r, Encodes op payload ∧ r.id = id ∧ entry = some ⟨op, .submitted, none⟩ ∧
      x = some (.received r) ∧ below = [] := by
  cases link with
  | reading hpayload hr => exact ⟨_, _, hpayload, hr, rfl, rfl, rfl⟩

/-- What the handler is about to prepare is what was submitted. -/
theorem of_preparing {p : Payload} (link : Link id entry x (.preparing p :: below)) :
    ∃ op r, p = op.payload ∧ r.id = id ∧ entry = some ⟨op, .submitted, none⟩ ∧
      x = some (.received r) ∧ below = [] := by
  cases link with
  | preparing hr => exact ⟨_, _, rfl, hr, rfl, rfl, rfl⟩

/-- An operation that the handler has dealt with is still submitted here and received at the
other end. -/
theorem of_handled {result : Except Failure Value}
    (link : Link id entry x (.prepared result :: below)) :
    ∃ op r, r.id = id ∧ entry = some ⟨op, .submitted, none⟩ ∧ x = some (.received r) ∧
      below = [] := by
  cases link with
  | prepared hr => exact ⟨_, _, hr, rfl, rfl, rfl⟩

/-- A decision that is on its way was taken down here, and its operation is held at the other end. -/
theorem of_decision {d : Decision} (link : Link id entry x (.decision d :: below)) :
    ∃ op t, t.id = id ∧ entry = some ⟨op, .prepared, some d⟩ ∧ x = some (.prepared t) ∧
      below = [] := by
  cases link with
  | deciding ht => exact ⟨_, _, ht, rfl, rfl, rfl⟩

/-- While the handler carries out a decision, the operation is no longer held at the other end. -/
theorem of_finalizing {d : Decision} (link : Link id entry x (.finalizing d :: below)) :
    ∃ op, entry = some ⟨op, .prepared, some d⟩ ∧ x = none ∧ below = [] := by
  cases link with
  | finalizing => exact ⟨_, rfl, rfl, rfl⟩

/-- Nor is it held there afterwards, while the reply is not sent yet. -/
theorem of_finalized {d : Decision} {result : Except Failure Value}
    (link : Link id entry x (.finalized d result :: below)) :
    ∃ op, entry = some ⟨op, .prepared, some d⟩ ∧ x = none ∧ below = [] := by
  cases link with
  | finalized => exact ⟨_, rfl, rfl, rfl⟩

/-- No operation is on a leg that the channel refused. -/
theorem not_lost : ¬ Link id entry x (.lost :: below) := nofun

end Link

/-! ## What the client does to an operation -/

attribute [local simp] Frame.leg? Client.Frame.leg? Endpoint.Frame.leg? Inbound.leg?
  Inbound.news? Table.get?_insert Table.get?_erase

section

variable {c : Client} {id i : OperationId} {x : Option Transaction} {rest : List Frame}

@[simp] theorem legs_drainIf (owed : Bool) :
    legs id ((Client.drainIf i owed).map Frame.client) = [] := by
  cases owed <;> rfl

/-- An operation that is enlisted sets out with its submission, and all others stay where they are. -/
theorem Link.enlist {listener : Listener} {op : Operation} {payload : List UInt8}
    (hfresh : c.pending.get? c.nextId = none) (hpayload : Encodes op payload)
    (link : Link id (c.pending.get? id) x (legs id rest)) :
    Link id ((c.enlist listener op payload).client.pending.get? id) x
      (legs id ((c.enlist listener op payload).frames.map .client ++ rest)) := by
  by_cases hclosed : c.closed = true
  · simpa [Client.enlist, hclosed, Client.refuse] using link
  by_cases hid : id = c.nextId
  · subst hid
    -- nobody has the next identifier, so the far end knows nothing of it either
    rw [hfresh] at link
    generalize hbelow : legs c.nextId rest = below at link
    cases link
    simpa [Client.enlist, hclosed, hbelow] using Link.submitting hpayload
  · simpa [Client.enlist, hclosed, hid, legOf_of_ne (Ne.symm hid)] using link

/-- A claim sends its decision on the way, if the operation is held at the other end. -/
theorem Link.claim {d : Decision} (link : Link id (c.pending.get? id) x (legs id rest)) :
    Link id ((c.claim i d).client.pending.get? id) x
      (legs id ((c.claim i d).frames.map .client ++ rest)) := by
  cases hentry : c.pending.get? i with
  | none => simpa [Client.claim, hentry] using link
  | some entry =>
    -- what is prepared and undecided is held at the far end and on no leg
    by_cases hopen : entry.phase = .prepared ∧ entry.decision = none
    · by_cases hid : id = i
      · subst hid
        obtain ⟨op, phase, decision⟩ := entry
        obtain ⟨rfl, rfl⟩ := hopen
        rw [hentry] at link
        generalize hbelow : legs id rest = below at link
        cases link with
        | held ht => simpa [Client.claim, hentry, hbelow] using Link.deciding ht
      · simpa [Client.claim, hentry, hopen, hid, legOf_of_ne (Ne.symm hid)] using link
    · simpa [Client.claim, hentry, hopen] using link

/-- The news that an operation is prepared leave it held at the other end and prepared here. -/
theorem Link.accept {result : Value}
    (link : Link id (c.pending.get? id) x (legs id (.client (.todo (.accept i result)) :: rest))) :
    Link id ((c.accept i result).client.pending.get? id) x
      (legs id ((c.accept i result).frames.map .client ++ rest)) := by
  by_cases hid : i = id
  · subst hid
    have link : Link i (c.pending.get? i) x (.news (.prepared i result) :: legs i rest) := by
      simpa using link
    obtain ⟨op, t, ht, hentry, rfl, hbelow⟩ := of_prepared link
    rw [Client.accept_of_allows hentry rfl]
    simpa [Client.pending_enqueue, Client.promote, hbelow] using Link.held ht
  · rw [legs_cons, Frame.leg?, Client.Frame.leg?, legOf_of_ne hid] at link
    cases hentry : c.pending.get? i with
    | none =>
      by_cases hlate : i < c.nextId <;>
        simpa [Client.accept, hentry, Client.drop, hlate, Client.count] using link
    | some entry =>
      by_cases hallows : entry.phase.allows .prepared = true
      · rw [Client.accept_of_allows hentry hallows]
        simpa [Client.pending_enqueue, Client.promote, Ne.symm hid] using link
      · simpa [Client.accept, hentry, hallows, Client.count] using link

/-- The news of an end leave nothing of the operation at either end. -/
theorem Link.finish {outcome : Outcome} {kind : String}
    (link : Link id (c.pending.get? id) x
      (legs id (.client (.todo (.finish i outcome kind)) :: rest))) :
    Link id ((c.finish i outcome kind).client.pending.get? id) x
      (legs id ((c.finish i outcome kind).frames.map .client ++ rest)) := by
  by_cases hid : i = id
  · subst hid
    obtain ⟨pending, hentry, hallows, rfl, hbelow⟩ : ∃ pending, c.pending.get? i = some pending ∧
        pending.phase.allows (Client.finalPhase outcome) = true ∧ x = none ∧ legs i rest = [] := by
      cases outcome with
      | completed result =>
        exact @of_ended i _ x _ (.completed result) _ rfl (by simpa using link)
      | failed f => exact @of_ended i _ x _ (.failed f) _ rfl (by simpa using link)
    rw [Client.finish_of_allows hentry hallows]
    simpa [Client.pending_enqueue, Client.without, hbelow] using Link.absent
  · have hleg : legOf id (Frame.client (.todo (.finish i outcome kind))).leg? = none := by
      cases outcome <;> exact legOf_of_ne hid _
    rw [legs_cons, hleg] at link
    cases hentry : c.pending.get? i with
    | none =>
      by_cases hlate : i < c.nextId <;>
        simpa [Client.finish, hentry, Client.drop, hlate, Client.count] using link
    | some entry =>
      by_cases hallows : entry.phase.allows (Client.finalPhase outcome) = true
      · rw [Client.finish_of_allows hentry hallows]
        simpa [Client.pending_enqueue, Client.without, Ne.symm hid] using link
      · simpa [Client.finish, hentry, hallows] using link

/-- Nothing that the client does leads an operation astray, short of a sweep. -/
theorem Link.perform {t : Task} (hsweep : t ≠ .sweep)
    (hfresh : c.pending.get? c.nextId = none)
    (hencoded : ∀ listener op payload, t = .enlist listener op payload → Encodes op payload)
    (link : Link id (c.pending.get? id) x (legs id (.client (.todo t) :: rest))) :
    Link id ((c.perform t).client.pending.get? id) x
      (legs id ((c.perform t).frames.map .client ++ rest)) := by
  -- most tasks are plain; each of the others that carries something on has a lemma of its own
  by_cases hplain : t.isPlain = true
  · rw [legs_cons, Frame.leg?, Client.leg_of_plain hplain] at link
    rw [Client.pending_of_plain hplain, legs_append,
      legs_client_of_none (Client.legs_of_plain hplain)]
    exact link
  cases t with
  | enlist listener op payload => exact Link.enlist hfresh (hencoded _ _ _ rfl) link
  | claim i d => exact Link.claim link
  | accept i result => exact Link.accept link
  | finish i outcome kind => exact Link.finish link
  | dispatch m => cases m <;> exact link
  | raise u => cases u <;> exact link
  | submissionSent i result =>
    rcases result with e | ok
    · -- no operation is on such a leg
      by_cases hid : i = id
      · subst hid
        exact (Link.not_lost (by simpa using link)).elim
      · rw [legs_cons, Frame.leg?, Client.Frame.leg?, legOf_of_ne hid] at link
        by_cases hin : c.pending.contains i = true <;>
          simpa [Client.perform, Client.submissionSent, Client.count, hin, Ne.symm hid] using link
    · exact absurd rfl hplain
  | decisionSent i d result =>
    rcases result with e | ok
    · by_cases hid : i = id
      · subst hid
        exact (Link.not_lost (by simpa using link)).elim
      · rw [legs_cons, Frame.leg?, Client.Frame.leg?, legOf_of_ne hid] at link
        simpa [Client.perform, Client.decisionSent, Client.count, legOf_of_ne hid] using link
    · exact absurd rfl hplain
  | sweep => exact absurd rfl hsweep
  | _ => exact absurd rfl hplain

end

/-! ## What the participant does to an operation -/

section

variable {e : Endpoint} {entries : OperationId → Option Pending} {now : UInt64} {rest : List Frame}
  {i : OperationId}

/-- How far all operations have come. -/
def Links (entries : OperationId → Option Pending) (transactions : Table Transaction)
    (stack : List Frame) : Prop :=
  ∀ id, Link id (entries id) (transactions.get? id) (legs id stack)

/-- A submission that arrives is entered, and its payload is read next. -/
theorem Links.enter {payload : List UInt8}
    (links : Links entries e.transactions
      (.endpoint (.todo (.receive (.execute i payload))) :: rest)) :
    Links entries (e.enter now i payload).endpoint.transactions
      ((e.enter now i payload).frames.map .endpoint ++ rest) := by
  obtain ⟨op, hpayload, hentry, hnone, hbelow⟩ := Link.of_submission (by simpa using links i)
  intro id
  have link := links id
  by_cases hid : id = i
  · subst hid
    have hreading : Link id (some ⟨op, .submitted, none⟩) (some (.received ⟨id, now⟩))
        [.reading payload] := .reading hpayload rfl
    simpa [Endpoint.enter, Table.contains, hnone, hentry, hbelow] using hreading
  · simpa [Endpoint.enter, Table.contains, hnone, hid, legOf_of_ne (Ne.symm hid)] using link

/-- A decision that arrives takes its operation out of the table, and the handler carries it
out next. -/
theorem Links.take {d : Decision}
    (links : Links entries e.transactions (.endpoint (.todo (.receive (.decide i d))) :: rest)) :
    Links entries (e.take i d).endpoint.transactions
      ((e.take i d).frames.map .endpoint ++ rest) := by
  obtain ⟨op, t, ht, hentry, hheld, hbelow⟩ := Link.of_decision (by simpa using links i)
  intro id
  have link := links id
  by_cases hid : id = i
  · subst hid
    have hfinalizing : Link id (some ⟨op, .prepared, some d⟩) none [.finalizing d] := .finalizing
    simpa [Endpoint.take, hheld, hentry, hbelow, ht] using hfinalizing
  · simpa [Endpoint.take, hheld, ht, hid, legOf_of_ne (Ne.symm hid)] using link

/-- A payload that can be read goes on to the handler, as it was submitted. One that cannot be read goes
on as a refusal. -/
theorem Links.decode {payload : List UInt8}
    (links : Links entries e.transactions (.endpoint (.todo (.decode i payload)) :: rest)) :
    Links entries (e.decode i payload).endpoint.transactions
      ((e.decode i payload).frames.map .endpoint ++ rest) := by
  obtain ⟨op, r, hpayload, hr, hentry, hheld, hbelow⟩ := Link.of_reading (by simpa using links i)
  intro id
  have link := links id
  by_cases hid : id = i
  · subst hid
    rcases hpayload.decode with hdecode | ⟨f, hdecode⟩
    · have hpreparing : Link id (some ⟨op, .submitted, none⟩) (some (.received r))
          [.preparing op.payload] := .preparing hr
      simpa [Endpoint.decode, hdecode, hentry, hheld, hbelow] using hpreparing
    · -- what cannot be read goes on like a request that the handler refused
      have hrefused (f : Failure) : Link id (some ⟨op, .submitted, none⟩) (some (.received r))
          [.prepared (.error f)] := .prepared hr
      simpa [Endpoint.decode, hdecode, hentry, hheld, hbelow] using hrefused _
  · cases hdecode : Payload.decode payload <;>
      simpa [Endpoint.decode, hdecode, legOf_of_ne (Ne.symm hid)] using link

/-- What the handler has prepared is held and announced, and what it refused is gone. -/
theorem Links.prepared {result : Except Failure Value}
    (links : Links entries e.transactions (.endpoint (.todo (.prepared i result)) :: rest)) :
    Links entries (e.prepared now i result).endpoint.transactions
      ((e.prepared now i result).frames.map .endpoint ++ rest) := by
  obtain ⟨op, r, hr, hentry, hheld, hbelow⟩ := Link.of_handled (by simpa using links i)
  intro id
  have link := links id
  by_cases hid : id = i
  · subst hid
    rcases result with f | value
    · have hrefused : Link id (some ⟨op, .submitted, none⟩) none [.news (.failed id f)] := .refused
      simpa [Endpoint.prepared, hentry, hbelow] using hrefused
    · have hannounced : Link id (some ⟨op, .submitted, none⟩) (some (.prepared (r.prepare now)))
          [.news (.prepared id value)] := .announced hr
      simpa [Endpoint.prepared, hheld, hentry, hbelow] using hannounced
  · cases result <;>
      simpa [Endpoint.prepared, hheld, hid, legOf_of_ne (Ne.symm hid)] using link

/-- What the handler answers to a decision is the reply that goes back. -/
theorem Links.finalized {t : PreparedTransaction} {d : Decision} {result : Except Failure Value}
    (links : Links entries e.transactions (.endpoint (.todo (.finalized t d result)) :: rest)) :
    Links entries (e.finalized now t d result).endpoint.transactions
      ((e.finalized now t d result).frames.map .endpoint ++ rest) := by
  obtain ⟨op, hentry, hnone, hbelow⟩ := Link.of_finalized (by simpa using links t.id)
  intro id
  have link := links id
  by_cases hid : id = t.id
  · subst hid
    have hanswered : Link t.id (some ⟨op, .prepared, some d⟩) none
        [.news (HandlerCall.reply t.id result)] := .answered
    cases result <;>
      simpa [Endpoint.finalized, hnone, hentry, hbelow, HandlerCall.reply] using hanswered
  · cases result <;>
      simpa [Endpoint.finalized, legOf_of_ne (Ne.symm hid)] using link

/-- Nothing that the participant does leads an operation astray. -/
theorem Links.perform {t : Endpoint.Task}
    (links : Links entries e.transactions (.endpoint (.todo t) :: rest)) :
    Links entries (e.perform now t).endpoint.transactions
      ((e.perform now t).frames.map .endpoint ++ rest) := by
  cases t with
  | receive m =>
    cases m with
    | execute i payload => exact links.enter
    | commit i => exact Links.take (d := .commit) links
    | rollback i => exact Links.take (d := .rollback) links
  | decode i payload => exact links.decode
  | prepared i result => exact links.prepared
  | finalized t d result => exact links.finalized
  | recorded i result => cases result <;> exact links
  | note n => exact links
  | raise u => cases u <;> exact links

end

end Loopback

end TwoPhase
