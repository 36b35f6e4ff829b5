import TwoPhase.Proofs.Loopback.Grants
import TwoPhase.Proofs.ClientThreads.Closing
/-
The two ways a loopback can be.

While neither the channel nor the client was closed, every operation is where the list of links says
(`Engaged`), whatever the handler answers and whatever listeners decide. A close ends that: the client
is swept, nothing is handed to the channel any more (`Silent`), and so nothing happens at the other end.
-/

set_option autoImplicit false

namespace TwoPhase

open Client (Task)

/-! ## Clients that were swept -/

/-- Whether a task sweeps the client, or is about to. -/
def Client.Task.isFinal : Task → Bool
  | .sweep | .dispatch .channelClosed => true
  | _ => false

namespace Client

variable {k : Client} {t : Task}

/-- A client that was swept, or is about to be, gives no identifier. -/
theorem allots_of_final (h : t.isFinal = true ∨ k.Swept) : k.allots t = none := by
  cases t with
  | enlist listener operation payload =>
    rcases h with h | h
    · contradiction
    · exact if_pos h.closed
  | _ => rfl

end Client

namespace Loopback

variable {σ : Type} {S : Setting σ} {c : Loopback σ}

/-! ## Open -/

/-- What is asked of a frame in an open loopback: it closes nothing, and a submission on it is encoded. -/
def Frame.Sound : Frame → Prop
  | .client (.todo (.enlist _ op payload)) => Encodes op payload
  | .client (.todo .sweep) | .client (.todo (.dispatch .channelClosed)) => False
  | .endpoint (.todo (.raise (.reply .channelClosed))) | .endpoint (.inside (.reply .channelClosed)) =>
    False
  | _ => True

/-- A loopback that nobody closed. -/
structure Engaged (c : Loopback σ) : Prop where
  isOpen : c.isOpen = true
  closed : c.client.closed = false
  links : Links c.client.pending.get? c.endpoint.transactions c.stack
  sound : ∀ f ∈ c.stack, f.Sound

/-- A task that closes nothing leaves nothing that would, and submits what was encoded. -/
theorem sound_perform {k : Client} {t : Task} (ht : (Frame.client (.todo t)).Sound) :
    ∀ f ∈ (k.perform t).frames, (Frame.client f).Sound := by
  intro f hf
  cases k.perform_leaves t f hf with
  | @encoded channelOpen listener op payload =>
    -- nothing is encoded for a channel that is closed
    cases channelOpen with
    | false => contradiction
    | true =>
      cases hencode : op.payload.encode k.config.maxFrameBytes.toNat with
      | error e => simp [Client.perform, hencode, Client.refuse] at hf
      | ok encoded =>
        obtain rfl : payload = encoded := by simpa [Client.perform, hencode] using hf
        exact ⟨_, hencode⟩
  | @inbound m =>
    cases m with
    | channelClosed => exact ht.elim
    | _ => trivial
  | _ => trivial

theorem sound_wishes {k : Client} {t : Task} :
    ∀ f ∈ RecordingClient.wishes S.habit k t, (Frame.client f).Sound := by
  intro f hf
  obtain ⟨id, decision, -, rfl⟩ := RecordingClient.mem_wishes hf
  trivial

theorem sound_take {e : Endpoint} {i : OperationId} {d : Decision} :
    ∀ f ∈ (e.take i d).frames, (Frame.endpoint f).Sound := by
  rcases hheld : e.transactions.get? i with _ | _ | t <;>
    simp [Endpoint.take, hheld, Frame.Sound]

/-- The tasks of the participant close nothing either. -/
theorem sound_serve {e : Endpoint} {now : UInt64} {t : Endpoint.Task}
    (ht : (Frame.endpoint (.todo t)).Sound) :
    ∀ f ∈ (e.perform now t).frames, (Frame.endpoint f).Sound := by
  cases t with
  | receive m =>
    cases m with
    | execute i payload =>
      by_cases hknown : e.transactions.contains i = true <;>
        simp [Endpoint.perform, Endpoint.enter, hknown, Frame.Sound]
    | commit i => exact sound_take
    | rollback i => exact sound_take
  | decode i payload =>
    cases hdecode : Payload.decode payload <;>
      simp [Endpoint.perform, Endpoint.decode, hdecode, Frame.Sound]
  | prepared i result =>
    cases result <;> simp [Endpoint.perform, Endpoint.prepared, Frame.Sound]
  | finalized t d result =>
    cases result <;> simp [Endpoint.perform, Endpoint.finalized, Frame.Sound]
  | recorded i result => cases result <;> simp [Endpoint.perform]
  | note n => simp [Endpoint.perform]
  | raise u =>
    intro f hf
    rw [List.mem_singleton.mp hf]
    cases u with
    | reply m => cases m <;> exact ht
    | _ => trivial

/-- Foreign code that returns leaves nothing that carries an operation on. -/
theorem sound_resume {u : Client.Upcall} :
    ∀ f ∈ u.resume .returned, f.leg? = none ∧ (Frame.client f).Sound := by
  cases u with
  | send m => cases m <;> simp [Client.Upcall.resume, Client.Frame.leg?, Frame.Sound]
  | _ => simp [Client.Upcall.resume, Client.Frame.leg?, Frame.Sound]

/-- What is asked of a client while it is open carries no operation on. -/
theorem sound_request {a : Action} (ha : a.closes = false) {r : Request}
    (hr : c.request? a = some r) :
    (Frame.client (.todo r.task)).leg? = none ∧ (Frame.client (.todo r.task)).Sound := by
  cases a with
  | execute listener operation =>
    obtain rfl := Option.some.inj hr
    exact ⟨rfl, trivial⟩
  | decide id decision =>
    by_cases hhandle : c.client.handles.contains id = true
    · obtain rfl : _ = r := by simpa [request?, hhandle] using hr
      exact ⟨rfl, trivial⟩
    · simp [request?, hhandle] at hr
  | subscribe id tag =>
    obtain rfl := Option.some.inj hr
    exact ⟨rfl, trivial⟩
  | closeChannel => contradiction
  | closeClient => contradiction

namespace Engaged

/-- An action that closes nothing leaves every operation where it is. -/
theorem taken (h : Engaged c) (hidle : c.stack = []) {a : Action} (ha : a.closes = false) :
    Engaged (c.take a) := by
  have hrequest : ∀ f ∈ (c.take a).stack, f.leg? = none ∧ f.Sound := by
    intro f hf
    rw [stack_take hidle, Option.mem_toList, Option.map_eq_some_iff] at hf
    obtain ⟨r, hr, rfl⟩ := hf
    exact sound_request ha hr
  refine ⟨?_, h.closed, fun id => ?_, fun f hf => (hrequest f hf).2⟩
  · cases a <;> first | exact h.isOpen | contradiction
  · have link := h.links id
    rw [hidle] at link
    rw [legs_of_none fun f hf => (hrequest f hf).1]
    exact link

section

variable (h : Engaged c) {f : Frame} {rest : List Frame} (hstack : c.stack = f :: rest)
include h hstack

theorem sound_above (frames : List Frame) (hframes : ∀ g ∈ frames, g.Sound) :
    ∀ g ∈ frames ++ rest, g.Sound := by
  intro g hg
  rcases List.mem_append.mp hg with hg | hg
  · exact hframes g hg
  · exact h.sound g (hstack ▸ List.mem_cons_of_mem f hg)

/-- Frames that carry on what the one they stand for did leave all operations where they are. -/
theorem replaced (frames : List Frame) (hlegs : ∀ id, legs id frames = (legOf id f.leg?).toList)
    (hframes : ∀ g ∈ frames, g.Sound) (journal : Journal) (store : σ) (past : List Mark)
    (handlerCalls : List HandlerCall) (age : Nat) :
    Engaged ⟨c.client, c.isOpen, c.endpoint, journal, store, frames ++ rest, past, handlerCalls, age⟩ := by
  refine ⟨h.isOpen, h.closed, fun id => ?_, h.sound_above hstack frames hframes⟩
  have link := h.links id
  rw [hstack, legs_cons] at link
  rw [legs_append, hlegs]
  exact link

/-- The handler takes an operation to its next leg. -/
theorem handled {g : Frame} {i : OperationId} {l l' : Leg} (hf : f.leg? = some (i, l))
    (hg : g.leg? = some (i, l')) (hsound : g.Sound)
    (hlink : ∀ entry x below, Link i entry x (l :: below) → Link i entry x (l' :: below))
    (journal : Journal) (store : σ) (past : List Mark) (handlerCalls : List HandlerCall) (age : Nat) :
    Engaged ⟨c.client, c.isOpen, c.endpoint, journal, store, g :: rest, past, handlerCalls, age⟩ := by
  refine ⟨h.isOpen, h.closed, fun id => ?_, h.sound_above hstack [g] (by simpa)⟩
  have link := h.links id
  rw [hstack, legs_cons, hf] at link
  rw [legs_cons, hg]
  by_cases hid : i = id
  · subst hid
    rw [legOf_self] at link ⊢
    exact hlink _ _ _ link
  · rw [legOf_of_ne hid] at link ⊢
    exact link

/-- A task of the client takes its operation from leg to leg. -/
theorem performed {t : Task} (hf : f = .client (.todo t))
    (hfresh : c.client.pending.get? c.client.nextId = none) : Engaged (step S c rest f) := by
  subst hf
  have hsound : (Frame.client (.todo t)).Sound := h.sound _ (hstack ▸ List.mem_cons_self)
  have hsweep : t ≠ .sweep := by
    rintro rfl
    exact hsound
  refine ⟨h.isOpen, ?_, fun id => ?_, h.sound_above hstack _ fun g hg => ?_⟩
  · have hclosed := (c.client.header_perform t).2
    have hnot : t.sweeps = false := by cases t <;> first | rfl | exact absurd rfl hsweep
    rw [h.closed, hnot] at hclosed
    exact hclosed
  · -- a listener that decides does not carry the operation on yet
    have hwishes : legs id ((RecordingClient.wishes S.habit c.client t).map Frame.client) = [] := by
      refine legs_client_of_none fun g hg => ?_
      obtain ⟨i, decision, -, rfl⟩ := RecordingClient.mem_wishes hg
      rfl
    have link := h.links id
    rw [hstack] at link
    have hperform := Link.perform hsweep hfresh (fun _ _ _ ht => by subst ht; exact hsound) link
    show Link id _ _ (legs id ((RecordingClient.wishes S.habit c.client t ++
      (c.client.perform t).frames).map Frame.client ++ rest))
    rw [List.map_append, List.append_assoc, legs_append, hwishes]
    exact hperform
  · obtain ⟨k, hk, rfl⟩ := List.mem_map.mp hg
    rcases List.mem_append.mp hk with hk | hk
    · exact sound_wishes k hk
    · exact sound_perform hsound k hk

/-- A call out that carries nothing on returns, and leaves every operation where it is. -/
theorem returned {u : Client.Upcall} (hf : f.leg? = none) :
    Engaged (c.answer u .returned rest) := by
  refine h.replaced hstack _ (fun id => ?_) (fun g hg => ?_) _ _ _ _ _
  · rw [hf]
    exact legs_client_of_none fun g hg => (sound_resume g hg).1
  · obtain ⟨k, hk, rfl⟩ := List.mem_map.mp hg
    exact (sound_resume k hk).2

/-- A message goes over to the other end, and every other call out returns. -/
theorem called {u : Client.Upcall} (hf : f = .client (.inside u)) : Engaged (c.call rest u) := by
  subst hf
  by_cases hu : ∃ m, u = .send m
  · obtain ⟨m, rfl⟩ := hu
    rw [call, if_pos h.isOpen]
    refine h.replaced hstack [_, _] (fun id => ?_) (by simp [Frame.Sound]) _ _ _ _ _
    simp [Frame.leg?, Client.Frame.leg?, Endpoint.Frame.leg?]
  · rw [call_of_ne_send fun m hm => hu ⟨m, hm⟩]
    refine h.returned hstack ?_
    cases u with
    | send m => exact absurd ⟨m, rfl⟩ hu
    | _ => rfl

/-- The handler takes its operation to the next leg, and a reply takes it back to the client. -/
theorem served {u : Endpoint.Upcall} (hf : f = .endpoint (.inside u)) :
    Engaged (c.serve S rest u) := by
  subst hf
  have hsound : (Frame.endpoint (.inside u)).Sound := h.sound _ (hstack ▸ List.mem_cons_self)
  cases u with
  | prepare i p =>
    let reports : List Frame := (S.handler.reports c.store i p).map fun r =>
      .endpoint (.todo (.raise (.reply (.report i r.severity r.text))))
    have hreports : ∀ g ∈ reports, g.leg? = none ∧ g.Sound := by
      intro g hg
      obtain ⟨r, -, rfl⟩ := List.mem_map.mp hg
      exact ⟨rfl, trivial⟩
    have hprepare := h.replaced hstack (reports ++ [.conclude i p]) (fun id => ?_) ?_
      c.journal c.store c.past c.handlerCalls c.age
    · rw [List.append_assoc] at hprepare
      exact hprepare
    · rw [legs_append, legs_of_none fun g hg => (hreports g hg).1]
      simp [Frame.leg?, Endpoint.Frame.leg?]
    · intro g hg
      rcases List.mem_append.mp hg with hg | hg
      · exact (hreports g hg).2
      · rw [List.mem_singleton.mp hg]
        trivial
  | finalize t d =>
    refine h.handled hstack rfl rfl ?_ (fun entry x below link => ?_) _ _ _ _ _
    · trivial
    obtain ⟨op, rfl, rfl, rfl⟩ := Link.of_finalizing link
    exact .finalized
  | record i event =>
    -- the journal is of no account to any operation
    exact h.replaced hstack [_] (fun id => rfl) (by simp [Frame.Sound]) _ _ _ _ _
  | reply m =>
    refine h.replaced hstack [_] (fun id => ?_) ?_ _ _ _ _ _
    · simp [Frame.leg?, Client.Frame.leg?, Endpoint.Frame.leg?]
    · cases m <;> simp [Frame.Sound]
      exact hsound

end

/-- **While nobody closes anything, every operation is where it should be.** -/
theorem moved (h : Engaged c) (hfresh : c.client.pending.get? c.client.nextId = none) :
    Engaged (c.move S) := by
  rcases hstack : c.stack with _ | ⟨f, rest⟩
  · rw [move_nil hstack]
    exact h
  rw [move_cons hstack]
  have h : Engaged { c with age := c.age + 1 } := ⟨h.isOpen, h.closed, h.links, h.sound⟩
  cases f with
  | client f =>
    cases f with
    | todo t => exact h.performed hstack rfl hfresh
    | inside u => exact h.called hstack rfl
  | returning m =>
    have hreturned : Engaged (Loopback.answer { c with age := c.age + 1 } (.send m) .returned rest) :=
      h.returned hstack rfl
    cases m <;> exact ⟨hreturned.isOpen, hreturned.closed, hreturned.links, hreturned.sound⟩
  | conclude i p =>
    refine h.handled hstack rfl rfl ?_ (fun entry x below link => ?_) _ _ _ _ _
    · trivial
    obtain ⟨op, r, rfl, hr, rfl, rfl, rfl⟩ := Link.of_preparing link
    exact .prepared hr
  | endpoint f =>
    cases f with
    | inside u => exact h.served hstack rfl
    | todo t =>
      refine ⟨h.isOpen, h.closed, ?_, h.sound_above hstack _ fun g hg => ?_⟩
      · exact Links.perform (hstack ▸ h.links)
      · obtain ⟨k, hk, rfl⟩ := List.mem_map.mp hg
        exact sound_serve (h.sound _ (hstack ▸ List.mem_cons_self)) k hk

end Engaged

/-! ## Closed -/

/-- Whether a frame leaves the participant alone: it hands nothing to the channel, and comes from
nothing that was handed over. -/
def Frame.isMute : Frame → Bool
  | .client (.todo (.raise (.send _))) | .client (.inside (.send _)) => false
  | .client (.todo (.submissionSent ..)) | .client (.todo (.decisionSent ..)) => false
  | .client (.todo (.decided _ _ (.ok _))) => false
  | .client (.todo (.dispatch .channelClosed)) => true
  | .client (.todo (.dispatch _)) => false
  | .client (.todo (.accept ..)) | .client (.todo (.finish ..)) => false
  | .client _ => true
  | _ => false

/-- A mute frame carries no operation on and grants no decision. -/
theorem Frame.leg_of_mute {f : Frame} (h : f.isMute = true) : f.leg? = none ∧ f.grant? = none := by
  cases f with
  | client f =>
    cases f with
    | inside u => cases u <;> first | exact ⟨rfl, rfl⟩ | contradiction
    | todo t =>
      cases t with
      | raise u => cases u <;> first | exact ⟨rfl, rfl⟩ | contradiction
      | dispatch m => cases m <;> first | exact ⟨rfl, rfl⟩ | contradiction
      | decided id d result => cases result <;> first | exact ⟨rfl, rfl⟩ | contradiction
      | _ => first | exact ⟨rfl, rfl⟩ | contradiction
  | _ => contradiction

/-- Mute tasks leave mute frames once the client was swept, and so does what sweeps it. -/
theorem mute_perform {k : Client} {t : Task} (hfinal : t.isFinal = true ∨ k.Swept)
    (ht : (Frame.client (.todo t)).isMute = true) :
    ∀ f ∈ (k.perform t).frames, (Frame.client f).isMute = true := by
  intro f hf
  cases k.perform_leaves t f hf with
  | submitting =>
    rcases hfinal with hfinal | hswept
    · contradiction
    · simp [Client.perform, Client.enlist, hswept.closed, Client.refuse] at hf
  | deciding =>
    rcases hfinal with hfinal | hswept
    · contradiction
    · simp [Client.perform, Client.claim, hswept.empty] at hf
  | failing => contradiction
  | @inbound m => cases m <;> first | rfl | contradiction
  | @entering u => cases u <;> first | rfl | contradiction
  | @answering t id d result =>
    rcases result with e | ok
    · rfl
    · -- a frame that grants a decision comes from one that is not mute
      have hmem : (id, d) ∈ (k.perform t).frames.filterMap Client.Frame.grant? :=
        List.mem_filterMap.mpr ⟨_, hf, rfl⟩
      have hgrants := k.grants_perform t
      have hnone : (Client.Frame.todo t).grant? = none := (Frame.leg_of_mute ht).2
      rw [hnone] at hgrants
      rw [(List.append_eq_nil_iff.mp hgrants).2] at hmem
      contradiction
  | _ => rfl

/-- A loopback whose client was swept, or is about to be. -/
structure Silent (c : Loopback σ) : Prop where
  mute : ∀ f ∈ c.stack, f.isMute = true
  swept : c.client.Swept ∨ ∃ t : Task, t.isFinal = true ∧ c.stack = [.client (.todo t)]

/-- What does not change any more. -/
structure Still (c c' : Loopback σ) : Prop where
  endpoint : c'.endpoint = c.endpoint
  store : c'.store = c.store
  handlerCalls : c'.handlerCalls = c.handlerCalls
  past : ∃ marks : List Mark, c'.past = c.past ++ marks ∧
    ∀ mark ∈ marks, mark.given = [] ∧ mark.granted = []

namespace Silent

variable (h : Silent c) {rest : List Frame}
include h

/-- What is done on top of a mute stack leaves it mute. -/
theorem performed {t : Task} (hstack : c.stack = .client (.todo t) :: rest) :
    Silent (step S c rest (.client (.todo t))) ∧ Still c (step S c rest (.client (.todo t))) := by
  have hmute := h.mute
  rw [hstack] at hmute
  have ht := hmute _ List.mem_cons_self
  -- the sweep is the only frame while the client is not swept yet
  have hfinal : t.isFinal = true ∨ c.client.Swept := by
    rcases h.swept with hswept | ⟨t', ht', hlast⟩
    · exact Or.inr hswept
    · rw [hstack] at hlast
      cases hlast
      exact Or.inl ht'
  refine ⟨⟨fun f hf => ?_, ?_⟩, rfl, rfl, rfl, c.client.marks t, rfl, fun mark hmark => ?_⟩
  · rcases List.mem_append.mp hf with hf | hf
    · obtain ⟨k, hk, rfl⟩ := List.mem_map.mp hf
      rcases List.mem_append.mp hk with hk | hk
      · obtain ⟨id, decision, -, rfl⟩ := RecordingClient.mem_wishes hk
        rfl
      · exact mute_perform hfinal ht k hk
    · exact hmute f (List.mem_cons_of_mem _ hf)
  · rcases h.swept with hswept | ⟨t', ht', hlast⟩
    · exact Or.inl (hswept.perform t)
    · rw [hstack] at hlast
      cases hlast
      cases t with
      | sweep => exact Or.inl (Client.swept_of_sweep c.client)
      | dispatch m => cases m <;> first | exact Or.inr ⟨.sweep, rfl, rfl⟩ | contradiction
      | _ => contradiction
  · -- nothing is enlisted, and what is not about to be granted is not granted
    have hgrants := c.client.grants_perform t
    have hnone : (Client.Frame.todo t).grant? = none := (Frame.leg_of_mute ht).2
    rw [hnone, Client.marks, Client.allots_of_final hfinal] at hgrants
    rw [Client.marks, Client.allots_of_final hfinal] at hmark
    rw [List.mem_singleton.mp hmark]
    exact ⟨rfl, by simpa using (List.append_eq_nil_iff.mp hgrants).1⟩

/-- **Once somebody closed the channel or the client, the participant is left alone.** -/
theorem moved : Silent (c.move S) ∧ Still c (c.move S) := by
  rcases hstack : c.stack with _ | ⟨f, rest⟩
  · rw [move_nil hstack]
    exact ⟨h, rfl, rfl, rfl, [], (List.append_nil _).symm, nofun⟩
  have hmute := h.mute
  rw [hstack] at hmute
  rw [move_cons hstack]
  rcases f with (t | u) | _ | _ | _
  · have h : Silent { c with age := c.age + 1 } := ⟨h.mute, h.swept⟩
    obtain ⟨hsilent, hstill⟩ := h.performed (S := S) hstack
    exact ⟨hsilent, hstill.endpoint, hstill.store, hstill.handlerCalls, hstill.past⟩
  · have hu : ∀ m, u ≠ .send m := by
      rintro m rfl
      cases hmute _ List.mem_cons_self
    simp only [step, call_of_ne_send hu]
    refine ⟨⟨fun f hf => ?_, ?_⟩, rfl, rfl, rfl, [.answered u .returned], rfl, ?_⟩
    · rcases List.mem_append.mp hf with hf | hf
      · obtain ⟨k, hk, rfl⟩ := List.mem_map.mp hf
        cases u with
        | send m => exact absurd rfl (hu m)
        | notify id callback =>
          rw [List.mem_singleton.mp hk]
          rfl
        | _ => contradiction
      · exact hmute f (List.mem_cons_of_mem _ hf)
    · refine Or.inl (h.swept.resolve_right ?_)
      rintro ⟨t, -, hlast⟩
      rw [hstack] at hlast
      cases hlast
    · simp [Mark.given, Mark.granted]
  -- no frame of the far end is mute, nor is a send that is about to return
  all_goals cases hmute _ List.mem_cons_self

end Silent

/-- A close is the beginning of silence. -/
theorem silent_of_closes (hidle : c.stack = []) {a : Action} (ha : a.closes = true) :
    Silent (c.take a) := by
  cases a with
  | closeChannel =>
    have hstack : (c.take .closeChannel).stack =
        [.client (.todo (.dispatch .channelClosed))] := stack_take hidle _
    exact ⟨by simp [hstack, Frame.isMute], Or.inr ⟨_, rfl, hstack⟩⟩
  | closeClient =>
    have hstack : (c.take .closeClient).stack = [.client (.todo .sweep)] := stack_take hidle _
    exact ⟨by simp [hstack, Frame.isMute], Or.inr ⟨_, rfl, hstack⟩⟩
  | _ => contradiction

/-- A silent loopback is not woken by anything. -/
theorem Silent.taken (h : Silent c) (hidle : c.stack = []) (a : Action) : Silent (c.take a) := by
  refine ⟨fun f hf => ?_, Or.inl (h.swept.resolve_right ?_)⟩
  · rw [stack_take hidle, Option.mem_toList, Option.map_eq_some_iff] at hf
    obtain ⟨r, hr, rfl⟩ := hf
    cases a with
    | decide id decision =>
      by_cases hhandle : c.client.handles.contains id = true
      · obtain rfl : _ = r := by simpa [request?, hhandle] using hr
        rfl
      · simp [request?, hhandle] at hr
    | _ =>
      obtain rfl := Option.some.inj hr
      rfl
  · rintro ⟨t, -, hlast⟩
    rw [hidle] at hlast
    contradiction

namespace Still

variable {c' c'' : Loopback σ}

theorem refl (c : Loopback σ) : Still c c := ⟨rfl, rfl, rfl, [], (List.append_nil _).symm, nofun⟩

theorem taken (c : Loopback σ) (a : Action) : Still c (c.take a) :=
  ⟨rfl, rfl, rfl, [], (List.append_nil _).symm, nofun⟩

theorem trans (h : Still c c') (h' : Still c' c'') : Still c c'' := by
  obtain ⟨first, hfirst, hquiet⟩ := h.past
  obtain ⟨second, hsecond, hquiet'⟩ := h'.past
  refine ⟨h'.endpoint.trans h.endpoint, h'.store.trans h.store, h'.handlerCalls.trans h.handlerCalls,
    first ++ second, by rw [hsecond, hfirst, List.append_assoc], fun mark hmark => ?_⟩
  rcases List.mem_append.mp hmark with hmark | hmark
  · exact hquiet mark hmark
  · exact hquiet' mark hmark

end Still

end Loopback

end TwoPhase
