import TwoPhase.Proofs.Loopback.Reception
import TwoPhase.Proofs.Loopback.Refusals
import TwoPhase.Proofs.ClientThreads.Deliveries
/-
Reports that are made while an operation is prepared, and how all reports are forwarded.

Over a channel that calls straight through, the handler makes its reports while the submission has not
returned yet. Nobody is being called then, so whoever brings a report hands it out at once, and the handler
goes on when the sink is done with it. So all reports have been made to the sink before the handler says
whether the operation is prepared, and before its listener is told (`reported_of_execute`). Identifiers are
given to actions that submit and to nobody else (`submitted_run`), so this holds of every operation
(`briefed_run`).
-/

set_option autoImplicit false

namespace TwoPhase

open Client (Task Upcall)

/-! ## One report -/

namespace Client

variable {c : Client} {id : OperationId} {d : Delivery}

/-- The client with another mailbox for an operation. -/
def withMailbox (c : Client) (id : OperationId) (d : Delivery) (m : Mailbox Callback) : Client :=
  { c with deliveries := c.deliveries.insert id { d with mailbox := m } }

theorem delivery_withMailbox (c : Client) (id : OperationId) (d : Delivery) (m : Mailbox Callback) :
    (c.withMailbox id d m).deliveries.get? id = some { d with mailbox := m } := by
  rw [withMailbox, Table.get?_insert, if_pos rfl]

/-- Whoever brings a report for an idle mailbox becomes its deliverer. -/
theorem report_of_idle (hpending : c.pending.contains id = true) (hdelivery : c.deliveries.get? id = some d)
    (hidle : d.mailbox = .idle) (severity : Severity) (text : String) :
    c.perform (.report id severity text) =
      ⟨c.withMailbox id d ⟨[.report severity text], true⟩, [.todo (.drain id)],
        [.queued id (.report severity text)]⟩ := by
  rw [perform, report, if_pos hpending, enqueue_of_found hdelivery, hidle]
  rfl

/-- A deliverer takes out the next callback. -/
theorem drain_of_queued (hdelivery : c.deliveries.get? id = some d) {callback : Callback}
    {rest : List Callback} {delivering : Bool} (hqueue : d.mailbox = ⟨callback :: rest, delivering⟩) :
    c.perform (.drain id) = ⟨c.withMailbox id d ⟨rest, delivering⟩,
      [.todo (.raise (.notify id callback)), .todo (.drain id)], []⟩ := by
  rw [perform, drain, hdelivery]
  simp [Mailbox.pop, hqueue, withMailbox]

/-- A deliverer without callbacks is done. -/
theorem drain_of_empty (hdelivery : c.deliveries.get? id = some d) (hqueue : d.mailbox.queue = []) :
    c.perform (.drain id) = ⟨c.withMailbox id d .idle, [], []⟩ := by
  rw [perform, drain, hdelivery]
  simp [Mailbox.pop, hqueue, withMailbox, Mailbox.idle]

end Client

/-- What a handler reports while it prepares an operation, as the sink is told of it. -/
def Setting.reports {σ : Type} (S : Setting σ) (store : σ) (id : OperationId) (p : Payload) :
    List Callback :=
  (S.handler.reports store id p).map fun r => .report r.severity r.text

namespace Loopback

variable {σ : Type} {S : Setting σ} {floor : List Frame} {c c' : Loopback σ}

/-- The frame of a participant that makes a report. -/
def reporting (id : OperationId) (r : Report) : Frame :=
  .endpoint (.todo (.raise (.reply (.report id r.severity r.text))))

namespace Returns

/-- What comes back goes on after a move of the participant. -/
theorem served {t : Endpoint.Task} {endpoint : Endpoint} {frames : List Endpoint.Frame}
    {notes : List Note} (h : Returns S floor c c') (above : List Frame)
    (hstack : c.stack = .endpoint (.todo t) :: (above ++ floor))
    (hperform : c.endpoint.perform (S.clock (c.age + 1)) t = ⟨endpoint, frames, notes⟩) :
    Returns S floor
      { c with
        endpoint := endpoint
        stack := frames.map .endpoint ++ (above ++ floor)
        age := c.age + 1 } c' := by
  have hnext := h.next hstack
  rw [move_cons hstack, step, hperform] at hnext
  exact hnext

end Returns

/-- A report that is made while its operation is pending and its mailbox is idle has been made to the sink
when the participant goes on. -/
theorem made_of_idle {id : OperationId} {d : Delivery} {r : Report} (above : List Frame)
    (hstack : c.stack = reporting id r :: (above ++ floor))
    (hpending : c.client.pending.contains id = true)
    (hdelivery : c.client.deliveries.get? id = some d) (hidle : d.mailbox = .idle)
    (h : Returns S floor c c') :
    ∃ made, made.stack = above ++ floor ∧ Returns S floor made c' ∧
      made.client.pending = c.client.pending ∧
      made.client.deliveries.get? id = some d ∧
      made.clientThreads.calls id = c.clientThreads.calls id ++ [.report r.severity r.text] := by
  -- the report is brought to the client, which queues it and has it handed out at once
  have hreplied : Returns S floor
      { c with
        stack := .client (.todo (.dispatch (.report id r.severity r.text))) :: (above ++ floor)
        age := c.age + 2 } c' := (h.served above hstack rfl).next rfl
  have hdispatched := hreplied.afterTodo above rfl rfl rfl
  have hreported := hdispatched.afterTodo above rfl rfl
    (Client.report_of_idle hpending hdelivery hidle r.severity r.text)
  have hpopped := hreported.afterTodo above rfl rfl
    (Client.drain_of_queued (Client.delivery_withMailbox ..) rfl)
  have hnotifying := hpopped.afterTodo (.client (.todo (.drain id)) :: above) rfl rfl rfl
  have hnotified := hnotifying.afterCall (.client (.todo (.drain id)) :: above) rfl nofun
  have hcalled := hnotified.afterTodo (.client (.todo (.drain id)) :: above) rfl rfl rfl
  have hreleased := hcalled.afterTodo above rfl rfl
    (Client.drain_of_empty (Client.delivery_withMailbox ..) rfl)
  refine ⟨_, rfl, hreleased, rfl, ?_, ?_⟩
  · rw [Client.delivery_withMailbox, ← hidle]
  · simp [clientThreads, ClientThreads.calls, ClientThreads.turns, ClientThreads.calls_marks,
      Client.Frame.popped?, Mark.turns, Client.Upcall.about, Client.Upcall.callback?, Turn.begun?,
      Client.taskOf, List.filterMap_cons]

/-- All reports that are made while their operation is pending and its mailbox is idle have been made to the
sink, in order, when the participant goes on. -/
theorem made_of_reporting {id : OperationId} {d : Delivery} (reports : List Report) (above : List Frame)
    (hstack : c.stack = reports.map (reporting id) ++ (above ++ floor))
    (hpending : c.client.pending.contains id = true)
    (hdelivery : c.client.deliveries.get? id = some d) (hidle : d.mailbox = .idle)
    (h : Returns S floor c c') :
    ∃ made, made.stack = above ++ floor ∧ Returns S floor made c' ∧
      made.clientThreads.calls id = c.clientThreads.calls id ++
        reports.map fun r => .report r.severity r.text := by
  -- each report finds the operation as the one before did
  induction reports generalizing c with
  | nil => exact ⟨c, hstack, h, by simp⟩
  | cons r rest ih =>
    obtain ⟨made, hmade, hreturns, hpending', hdelivery', hcalls⟩ :=
      made_of_idle (rest.map (reporting id) ++ above) (by simpa using hstack) hpending hdelivery hidle h
    obtain ⟨last, hlast, hleft, hall⟩ := ih (by simpa using hmade) (by rw [hpending']; exact hpending)
      hdelivery' hreturns
    refine ⟨last, hlast, hleft, ?_⟩
    rw [hall, hcalls]
    simp

/-! ## From the submission to the handler -/

/-- What is handed over is pending, and nobody delivers anything about it yet. -/
theorem Handed.found {listener : Listener} {operation : Operation} {payload : List UInt8}
    (h : Handed c listener operation payload c') :
    c'.client.pending.contains c.client.nextId = true ∧
      c'.client.deliveries.get? c.client.nextId = some ⟨listener, operation.sink, .idle, .vacant⟩ := by
  rw [h.client]
  simp [Client.enrolled, Client.count, Table.contains, Table.get?_insert]

/-- A submission that reached the participant is entered, journaled and read; then its handler makes its
reports. -/
theorem asked_of_handed {listener : Listener} {operation : Operation} {payload : List UInt8}
    {handed : Loopback σ} (hhanded : Handed c listener operation payload handed)
    (hfresh : c.endpoint.transactions.get? c.client.nextId = none)
    (hdecoded : Payload.decode payload = .ok operation.payload) (h : Returns S c.stack handed c') :
    ∃ asked, asked.stack =
        (S.handler.reports c.store c.client.nextId operation.payload).map (reporting c.client.nextId) ++
          ([.conclude c.client.nextId operation.payload,
            .returning (.execute c.client.nextId payload)] ++ c.stack) ∧
      asked.client = handed.client ∧ asked.past = handed.past ∧ Returns S c.stack asked c' := by
  have hunknown : handed.endpoint.transactions.contains c.client.nextId = false := by
    rw [hhanded.endpoint, Table.contains, hfresh]
    rfl
  have hentered (now : UInt64) : handed.endpoint.perform now (.receive (.execute c.client.nextId payload)) =
      ⟨⟨handed.endpoint.transactions.insert c.client.nextId (.received ⟨c.client.nextId, now⟩)⟩,
        [.todo (.raise (.record c.client.nextId (.received now))),
          .todo (.decode c.client.nextId payload)], []⟩ := by
    simp [Endpoint.perform, Endpoint.enter, hunknown]
  have hread (e : Endpoint) (now : UInt64) : e.perform now (.decode c.client.nextId payload) =
      ⟨e, [.todo (.raise (.prepare c.client.nextId operation.payload))], []⟩ := by
    simp [Endpoint.perform, Endpoint.decode, hdecoded]
  -- the send waits at the bottom until the participant is done
  let send : Frame := .returning (.execute c.client.nextId payload)
  let read : Frame := .endpoint (.todo (.decode c.client.nextId payload))
  have hrecording := (h.served [send] hhanded.stack (hentered _)).served [read, send] rfl rfl
  have hrecorded := (@Returns.next _ _ _ _ _ _ [read, send] hrecording rfl).served [read, send] rfl rfl
  have hasking := (hrecorded.served [send] rfl (hread _ _)).served [send] rfl rfl
  refine ⟨_, ?_, ?_, ?_, @Returns.next _ _ _ _ _ _ [send] hasking rfl⟩
  · rw [← hhanded.store]
    rfl
  · rfl
  · rfl

/-! ## What is kept -/

theorem past_move (c : Loopback σ) : c.past <+: (c.move S).past := by
  obtain ⟨marks, hgrown, -⟩ := past_grows (S := S) c
  rw [hgrown]
  exact List.prefix_append _ _

theorem operation_move (c : Loopback σ) {id : OperationId} {operation : Operation}
    (h : c.operation? id = some operation) : (c.move S).operation? id = some operation := by
  obtain ⟨marks, hgrown, hmarks⟩ := past_grows (S := S) c
  exact operation_grows hgrown hmarks h

namespace Returns

/-- What every move keeps holds of whatever comes back. -/
theorem keeps {P : Loopback σ → Prop} (hmove : ∀ c, P c → P (c.move S)) (h : Returns S floor c c')
    (hc : P c) : P c' := by
  induction h with
  | back => exact hc
  | on _ _ ih => exact ih (hmove _ hc)

/-- What is remembered stays remembered. -/
theorem past (h : Returns S floor c c') : c.past <+: c'.past :=
  h.keeps (P := fun k => c.past <+: k.past) (fun k hk => hk.trans (past_move k)) (List.prefix_refl _)

theorem iterate {n : Nat} (h : ((move S)^[n] c).stack = []) : Returns S [] c ((move S)^[n] c) := by
  induction n generalizing c with
  | zero => exact .back h
  | succ n ih =>
    rw [Function.iterate_succ_apply] at h ⊢
    rcases hstack : c.stack with _ | ⟨f, rest⟩
    · rw [move_nil hstack] at h ⊢
      exact ih h
    · exact @Returns.on _ _ _ _ _ f rest (by rw [hstack, List.append_nil]) (ih h)

/-- A loopback that is left to itself comes back to an empty stack. -/
theorem settle (S : Setting σ) (c : Loopback σ) : Returns S [] c (c.settle S) := iterate (settle_idle S c)

end Returns

/-- What actions and moves keep is kept by whatever is done. -/
theorem run_keeps {P : Loopback σ → Prop} (htake : ∀ c a, P c → P (c.take a))
    (hmove : ∀ c, P c → P (c.move S)) {actions : List Action} (more : List Action)
    (h : P (run S actions)) : P (run S (actions ++ more)) := by
  induction more using List.reverseRecOn with
  | nil =>
    rw [List.append_nil]
    exact h
  | append_singleton more a ih =>
    rw [← List.append_assoc, run_concat]
    exact settle_induction hmove (htake _ a ih)

theorem past_run (actions more : List Action) :
    (run S actions).past <+: (run S (actions ++ more)).past :=
  run_keeps (P := fun c => (run S actions).past <+: c.past) (fun _ _ h => h)
    (fun c h => h.trans (past_move c)) more (List.prefix_refl _)

/-- What was submitted stays submitted. -/
theorem operation_run {actions : List Action} {id : OperationId} {operation : Operation}
    (h : (run S actions).operation? id = some operation) (more : List Action) :
    (run S (actions ++ more)).operation? id = some operation :=
  run_keeps (P := fun c => c.operation? id = some operation) (fun _ _ h => h)
    (fun c => operation_move c) more h

/-! ## Where identifiers are given -/

theorem given_move {f : Frame} {rest : List Frame} (hstack : c.stack = f :: rest)
    (hf : f.submits = false) : (c.move S).clientThreads.given = c.clientThreads.given := by
  show (c.move S).past.flatMap Mark.given = c.past.flatMap Mark.given
  rcases client_move (S := S) c with ⟨t, _, htop, -, hpast⟩ | ⟨-, hpast | ⟨u, a, hpast⟩⟩
  · obtain ⟨rfl, -⟩ := List.cons.inj (hstack.symm.trans htop)
    have hnone : c.client.allots t = none := by
      cases t <;> first | rfl | contradiction
    rw [hpast, List.flatMap_append, Client.flatMap_marks, hnone, Option.toList_none, List.append_nil]
  · rw [hpast]
  · rw [hpast, List.flatMap_append]
    exact List.append_nil _

/-- Where nothing is on its way to an identifier, none is given. -/
theorem Returns.given (h : Returns S floor c c') {above : List Frame} (hstack : c.stack = above ++ floor)
    (hnone : ∀ f ∈ above, f.submits = false) : c'.clientThreads.given = c.clientThreads.given := by
  induction h generalizing above with
  | back => rfl
  | @on c _ f others hothers h ih =>
    obtain rfl : above = f :: others := List.append_cancel_right (hstack.symm.trans hothers)
    have hf := hnone f List.mem_cons_self
    obtain ⟨first, hfirst, hstill⟩ := @stack_step _ S { c with age := c.age + 1 } (others ++ floor) f
    rw [← given_move hothers hf]
    refine @ih (first ++ others) ?_ ?_
    · rw [move_cons hothers, List.append_assoc]
      exact hfirst
    · exact List.forall_mem_append.mpr ⟨hstill hf, fun g hg => hnone g (List.mem_cons_of_mem f hg)⟩

section

variable {listener : Listener} {operation : Operation}
  (h : Returns S c.stack
    { c with stack := .client (.todo (.submit c.isOpen listener operation)) :: c.stack } c')
include h

theorem given_of_refused {e : ClientError} (hrefusal : c.client.refusal? c.isOpen operation = some e) :
    c'.clientThreads.given = c.clientThreads.given := by
  obtain ⟨news, moves, hnews, hexecuted⟩ := executed_of_refusal hrefusal
  obtain ⟨-, hnone, -⟩ := hnews.quiet
  obtain rfl := h.unique hexecuted.returns
  show (c.past ++ news).flatMap Mark.given = c.past.flatMap Mark.given
  rw [List.flatMap_append, hnone, List.append_nil]

theorem given_of_unrefused (hrefusal : c.client.refusal? c.isOpen operation = none) :
    c'.clientThreads.given = c.clientThreads.given ++ [c.client.nextId] := by
  obtain ⟨payload, handed, hhanded, hreturns⟩ := handed_of_unrefused hrefusal h
  obtain ⟨news, hpast, -, -, hgiven, -⟩ := hhanded.past
  -- nothing is on its way to an identifier any more
  have hkept := @Returns.given _ _ _ _ _ hreturns [_, _] hhanded.stack (by simp [Frame.submits])
  rw [hkept]
  show handed.past.flatMap Mark.given = c.past.flatMap Mark.given ++ [c.client.nextId]
  rw [hpast, List.flatMap_append, hgiven]

/-- What was submitted under an identifier is what was asked to be submitted. -/
theorem operation_of_unrefused (hrefusal : c.client.refusal? c.isOpen operation = none)
    (hnext : c.client.nextId ∉ c.clientThreads.given) : c'.operation? c.client.nextId = some operation := by
  obtain ⟨payload, handed, hhanded, hreturns⟩ := handed_of_unrefused hrefusal h
  obtain ⟨news, hpast, hhead, hsubmitted, -⟩ := hhanded.past
  have hunknown := operation_of_not_given hnext
  refine hreturns.keeps (P := fun c' => c'.operation? c.client.nextId = some operation)
    (fun c' => operation_move c') ?_
  rw [operation?] at hunknown ⊢
  rw [hpast, submissions_append hhead, List.lookup_append, hunknown, hsubmitted]
  simp

end

/-- An action that submits is a call that comes back. -/
theorem returns_of_execute (hidle : c.stack = []) (listener : Listener) (operation : Operation) :
    Returns S c.stack
      { c with stack := .client (.todo (.submit c.isOpen listener operation)) :: c.stack }
      ((c.take (.execute listener operation)).settle S) := by
  have hsettled := Returns.settle S (c.take (.execute listener operation))
  rw [← hidle] at hsettled
  exact hsettled

/-- An identifier is given to whoever submits an operation that the client does not refuse, and it is the
one that was next. -/
theorem submitted_of_given {a : Action} {id : OperationId} (hidle : c.stack = [])
    (hbefore : id ∉ c.clientThreads.given) (h : id ∈ ((c.take a).settle S).clientThreads.given) :
    ∃ listener operation, a = .execute listener operation ∧
      c.client.refusal? c.isOpen operation = none ∧ id = c.client.nextId := by
  by_cases ha : ∃ listener operation, a = .execute listener operation
  · obtain ⟨listener, operation, rfl⟩ := ha
    have hreturns := @returns_of_execute _ S c hidle listener operation
    cases hrefusal : c.client.refusal? c.isOpen operation with
    | some e =>
      rw [given_of_refused hreturns hrefusal] at h
      exact absurd h hbefore
    | none =>
      rw [given_of_unrefused hreturns hrefusal, List.mem_append] at h
      exact ⟨listener, operation, rfl, hrefusal, List.mem_singleton.mp (h.resolve_left hbefore)⟩
  · -- every other action asks for something that submits nothing
    have hnone : ∀ f ∈ (c.take a).stack, f.submits = false := by
      intro f hf
      rw [stack_take hidle, Option.mem_toList, Option.map_eq_some_iff] at hf
      obtain ⟨r, hr, rfl⟩ := hf
      cases a with
      | execute listener operation => exact absurd ⟨listener, operation, rfl⟩ ha
      | decide i decision =>
        obtain ⟨-, hr⟩ := Option.ite_none_right_eq_some.mp hr
        obtain rfl := Option.some.inj hr
        rfl
      | _ =>
        obtain rfl := Option.some.inj hr
        rfl
    rw [(Returns.settle S (c.take a)).given (List.append_nil _).symm hnone] at h
    exact absurd h hbefore

/-- Every identifier was given to an action that submits. -/
theorem submitted_run {actions : List Action} {id : OperationId}
    (h : id ∈ (run S actions).clientThreads.given) :
    ∃ before listener operation after, actions = before ++ .execute listener operation :: after ∧
      (run S before).client.refusal? (run S before).isOpen operation = none ∧
      id = (run S before).client.nextId := by
  induction actions using List.reverseRecOn with
  | nil => contradiction
  | append_singleton actions a ih =>
    by_cases hbefore : id ∈ (run S actions).clientThreads.given
    · obtain ⟨before, listener, operation, after, rfl, hsubmitted⟩ := ih hbefore
      exact ⟨before, listener, operation, after ++ [a], by simp, hsubmitted⟩
    · rw [run_concat] at h
      obtain ⟨listener, operation, rfl, hsubmitted⟩ := submitted_of_given (run_idle actions) hbefore h
      exact ⟨actions, listener, operation, [], rfl, hsubmitted⟩

/-! ## Reports come first -/

/-- Nobody has been called about an identifier that was not given yet. -/
theorem Visited.calls_of_not_given (h : Visited S c) (hgiven : c.clientThreads.given.length < 2 ^ 64 - 1)
    {id : OperationId} (hid : id ∉ c.clientThreads.given) : c.clientThreads.calls id = [] := by
  obtain ⟨schedule, hschedule⟩ := reachable_clientThreads h
  rw [hschedule] at hgiven hid ⊢
  refine ClientThreads.calls_of_blank ?_
  by_contra hshare
  exact hid (ClientThreads.mem_given_of_share S.config schedule hgiven hshare)

/-- **Once an operation was submitted that can be read, its sink has been told all reports on it first.** -/
theorem reported_of_execute {listener : Listener} {operation : Operation} (hvisited : Visited S c)
    (hidle : c.stack = []) (hgiven : c.clientThreads.given.length < 2 ^ 64 - 1)
    (hunrefused : c.client.refusal? c.isOpen operation = none)
    (hfits : operation.payload.depth ≤ Json.depthLimit) (h : Returns S c.stack
      { c with stack := .client (.todo (.submit c.isOpen listener operation)) :: c.stack } c') :
    S.reports c.store c.client.nextId operation.payload <+: c'.clientThreads.calls c.client.nextId := by
  obtain ⟨payload, handed, hhanded, hreturns⟩ := handed_of_unrefused hunrefused h
  obtain ⟨-, -, -, hclosed, -⟩ := @Client.enroll_of_unrefused _ _ listener _ hunrefused
  obtain ⟨hnext, -⟩ := hvisited.unused (by omega)
  -- the client is not closed, so the participant knows nothing of the identifier
  have hopen := hvisited.open_of_unclosed hidle hclosed
  obtain ⟨hfresh, -⟩ := hvisited.legs_of_not_given (hopen.engaged (by omega)) hnext
  have hencodes : Encodes operation payload := ⟨_, hhanded.encoded⟩
  have hdecoded : Payload.decode payload = .ok operation.payload := by
    refine hencodes.decode.resolve_right fun ⟨e, he⟩ => ?_
    exact absurd (hencodes.decoded.2 e he).1 (by omega)
  obtain ⟨asked, hstack, hclient, hpast, hasked⟩ := asked_of_handed hhanded hfresh hdecoded hreturns
  have hcalls : asked.clientThreads.calls c.client.nextId = [] := by
    obtain ⟨news, hnews, -, -, -, hturns⟩ := hhanded.past
    have hbefore := hvisited.calls_of_not_given hgiven hnext
    rw [ClientThreads.calls, ClientThreads.turns] at hbefore ⊢
    show List.filterMap _ (asked.past.flatMap _) = []
    rw [hpast, hnews, List.flatMap_append, hturns, List.append_nil]
    exact hbefore
  obtain ⟨hpending, hdelivery⟩ := hhanded.found
  rw [← hclient] at hpending hdelivery
  obtain ⟨made, -, hleft, hmade⟩ := made_of_reporting _ _ hstack hpending hdelivery rfl hasked
  rw [hcalls, List.nil_append] at hmade
  rw [Setting.reports, ← hmade]
  exact ClientThreads.calls_grow hleft.past _

/-- What starts with the reports and goes on to the news that the operation is prepared has all reports
before that. -/
theorem reports_before {store : σ} {id : OperationId} {p : Payload} {told rest : List Callback}
    {result : Value} (h : S.reports store id p <+: told ++ .prepared result :: rest) :
    S.reports store id p <+: told := by
  refine List.prefix_of_prefix_length_le h (List.prefix_append _ _) ?_
  -- otherwise the news would be one of the reports
  by_contra hlong
  have hmem : .prepared result ∈ S.reports store id p := by
    have hget := List.IsPrefix.getElem h (Nat.not_le.mp hlong)
    rw [List.getElem_append_right (Nat.le_refl _)] at hget
    simp only [Nat.sub_self, List.getElem_cons_zero] at hget
    exact hget ▸ List.getElem_mem _
  obtain ⟨r, -, hr⟩ := List.mem_map.mp hmem
  cases hr

/-- What came of an operation that was submitted after some actions, as seen after some more: its sink was
told all that the handler reported while it prepared the operation, before anything else was told. An
operation that nobody can read is not prepared at all. -/
structure Briefed (S : Setting σ) (before after : List Action) (listener : Listener)
    (operation : Operation) (id : OperationId) : Prop where
  given : id = (run S before).client.nextId
  submitted : (run S (before ++ .execute listener operation :: after)).operation? id = some operation
  first : operation.payload.depth ≤ Json.depthLimit →
    S.reports (run S before).store id operation.payload <+:
      (run S (before ++ .execute listener operation :: after)).clientThreads.calls id
  early : operation.payload.depth ≤ Json.depthLimit → ∀ told result rest,
    (run S (before ++ .execute listener operation :: after)).clientThreads.calls id =
      told ++ .prepared result :: rest →
    S.reports (run S before).store id operation.payload <+: told
  unread : Json.depthLimit < operation.payload.depth →
    (run S (before ++ .execute listener operation :: after)).prepares id = []

/-- **Every operation that was given an identifier has been submitted, and its sink was told the reports on
it first.** -/
theorem briefed_run {actions : List Action} {id : OperationId}
    (hgiven : (run S actions).clientThreads.given.length < 2 ^ 64 - 1)
    (hid : id ∈ (run S actions).clientThreads.given) :
    ∃ before listener operation after, actions = before ++ .execute listener operation :: after ∧
      Briefed S before after listener operation id := by
  obtain ⟨before, listener, operation, after, rfl, hunrefused, rfl⟩ := submitted_run hid
  refine ⟨before, listener, operation, after, rfl, ?_⟩
  have hbefore := Nat.lt_of_le_of_lt (given_le_run before _) hgiven
  have hreturns := @returns_of_execute _ S (run S before) (run_idle before) listener operation
  rw [← run_concat] at hreturns
  -- what has come of it once the submission has come back is there at the end as well
  have hsplit : before ++ .execute listener operation :: after =
      (before ++ [.execute listener operation]) ++ after := by simp
  have hfirst (hfits : operation.payload.depth ≤ Json.depthLimit) :
      S.reports (run S before).store (run S before).client.nextId operation.payload <+:
        (run S (before ++ .execute listener operation :: after)).clientThreads.calls
          (run S before).client.nextId := by
    have hreported :=
      reported_of_execute (visited_run before) (run_idle before) hbefore hunrefused hfits hreturns
    rw [hsplit]
    exact hreported.trans (ClientThreads.calls_grow (past_run _ after) _)
  have hsubmitted : (run S (before ++ .execute listener operation :: after)).operation?
      (run S before).client.nextId = some operation := by
    rw [hsplit]
    exact operation_run (operation_of_unrefused hreturns hunrefused
      ((visited_run before).unused (by omega)).1) after
  obtain ⟨op, hop, received⟩ := received_run S _ hgiven hid
  obtain rfl := Option.some.inj (hop.symm.trans hsubmitted)
  exact {
    given := rfl
    submitted := hsubmitted
    first := hfirst
    early := fun hfits told result rest hcalls => reports_before (hcalls ▸ hfirst hfits)
    unread := fun hdeep => (received.unreadable hdeep).1 }

/-- Between two actions everything has been forwarded. -/
theorem forwarded (actions : List Action)
    (hgiven : (run S actions).clientThreads.given.length < 2 ^ 64 - 1) :
    (run S actions).clientThreads.Forwarded := by
  have hidle := run_idle (S := S) actions
  obtain ⟨schedule, hschedule⟩ := reachable_clientThreads (visited_run (S := S) actions)
  have hone : (run S actions).clientThreads.threads = [[]] := by
    rw [clientThreads, hidle]
    rfl
  rw [hschedule] at hgiven hone ⊢
  exact ClientThreads.forwarded_run S.config schedule hgiven hone

end Loopback

namespace RecordingClient

variable {habit : Listener → OperationId → Value → Policy}

/-- Between two actions everything has been forwarded. -/
theorem forwarded (config : Config) (actions : List Action)
    (hgiven : (run habit config actions).clientThreads.given.length < 2 ^ 64 - 1) :
    (run habit config actions).clientThreads.Forwarded := by
  obtain ⟨hvisited, hidle⟩ := @visited_run habit config actions
  obtain ⟨schedule, hschedule⟩ := reachable_clientThreads hvisited
  have hone : (run habit config actions).clientThreads.threads = [[]] := by
    rw [clientThreads, hidle]
  rw [hschedule] at hgiven hone ⊢
  exact ClientThreads.forwarded_run config schedule hgiven hone

/-- What is remembered of a report that came to nothing: two moves that noted it. -/
def droppedMarks (id : OperationId) (severity : Severity) (text : String) : List Mark :=
  [.moved (.dispatch (.report id severity text)) [.noted (.inbound "message" (some id))],
    .moved (.report id severity text) [.noted (.reportDropped id)]]

/-- A report that is delivered while its operation is not pending changes nothing at all. -/
theorem settle_of_report {b : RecordingClient} (hidle : b.stack = []) {id : OperationId}
    (hpending : b.client.pending.get? id = none) (severity : Severity) (text : String) :
    (b.take (.deliver (.report id severity text))).settle habit =
      { b with past := b.past ++ droppedMarks id severity text } := by
  have hdispatched : (b.take (.deliver (.report id severity text))).move habit =
      { b with
        stack := [.todo (.report id severity text)]
        past := b.past ++ [.moved (.dispatch (.report id severity text))
            [.noted (.inbound "message" (some id))]] } := by
    rw [take, hidle]
    rfl
  rw [← settle_eq (Nat.le_add_right _ 2), Function.iterate_add_apply, Function.iterate_succ_apply,
    Function.iterate_one, hdispatched, move_todo rfl, Client.marks, Client.report_of_absent hpending]
  refine (iterate_move_nil rfl _).trans ?_
  simp [droppedMarks, Client.allots, wishes, wish?, hidle]

end RecordingClient

/-- How a recording client forwards reports. -/
structure RecordingClient.Forwards (habit : Listener → OperationId → Value → Policy) (config : Config)
    (actions : List Action) : Prop where
  told : (run habit config actions).clientThreads.Forwarded
  /-- A report on an operation that has ended, or that nobody knows, changes nothing. -/
  dropped : ∀ id severity text, (run habit config actions).client.pending.get? id = none →
    run habit config (actions ++ [.deliver (.report id severity text)]) =
      { run habit config actions with
        past := (run habit config actions).past ++ droppedMarks id severity text }

theorem RecordingClient.forwards {habit : Listener → OperationId → Value → Policy} {config : Config}
    {actions : List Action} (hgiven : (run habit config actions).clientThreads.given.length < 2 ^ 64 - 1) :
    Forwards habit config actions where
  told := forwarded config actions hgiven
  dropped id severity text hpending := by
    obtain ⟨-, hidle⟩ := @visited_run habit config actions
    rw [run_append, List.foldl_cons, List.foldl_nil, settle_of_report hidle hpending]

/-- How a loopback forwards reports. -/
structure Loopback.Forwards {σ : Type} (S : Setting σ) (actions : List Action) : Prop where
  told : (run S actions).clientThreads.Forwarded
  /-- Every operation that was taken was submitted, and what its handler reported was told first. -/
  briefed : ∀ id, .ok id ∈ (run S actions).clientThreads.answers id →
    ∃ before listener operation after, actions = before ++ .execute listener operation :: after ∧
      Briefed S before after listener operation id

theorem Loopback.forwards {σ : Type} {S : Setting σ} {actions : List Action}
    (hgiven : (run S actions).clientThreads.given.length < 2 ^ 64 - 1) : Forwards S actions where
  told := forwarded actions hgiven
  briefed _ htaken := briefed_run hgiven ((visited_run actions).given_of_answered hgiven htaken)

/-- **Reports are forwarded**: whatever reaches an operation while it is pending is told to its listener
and its sink, once and in this order, and nothing else is. This holds under every interleaving of
threads; at a recording client, where nothing changes by a report that comes too late; and at a loopback,
where all reports that a handler makes while it prepares an operation come before the news that the
operation is prepared. -/
theorem reports_forwarded {config : Config} {schedule : List Choice}
    (hclientThreads : (ClientThreads.run config schedule).given.length < 2 ^ 64 - 1)
    {habit : Listener → OperationId → Value → Policy} {moves : List RecordingClient.Action}
    (hrecording : (RecordingClient.run habit config moves).clientThreads.given.length < 2 ^ 64 - 1)
    {σ : Type} {S : Setting σ} {actions : List Loopback.Action}
    (hloopback : (Loopback.run S actions).clientThreads.given.length < 2 ^ 64 - 1) :
    (ClientThreads.run config schedule).Forwarding ∧
      (∀ id, .ok id ∈ (ClientThreads.run config schedule).answers id →
        (ClientThreads.run config schedule).Reported id) ∧
      RecordingClient.Forwards habit config moves ∧ Loopback.Forwards S actions :=
  ⟨ClientThreads.forwarding config schedule,
    fun id => ClientThreads.reported_run config schedule id hclientThreads,
    RecordingClient.forwards hrecording, Loopback.forwards hloopback⟩

/-- An operation on which one thread reports while another one is still telling its listener that it is
prepared. It is completed meanwhile, and reported on once more. -/
def ClientThreads.interrupted : List Choice :=
  [.join, .ask 0 (.submit true (.recorder "") ⟨.undefined, [], .collector ""⟩), .move 0, .move 0, .move 0,
    .move 0, .answer 0 .returned, .move 0, .answer 0 (.sent (.ok ())), .move 0,
    .ask 0 (.deliver (.prepared ⟨1⟩ .undefined)), .move 0, .move 0, .move 0, .move 0,
    .answer 0 .returned, .move 0, .move 0,
    .join, .ask 1 (.deliver (.report ⟨1⟩ .warn "slow")), .move 1, .move 1,
    .ask 1 (.deliver (.completed ⟨1⟩ .undefined)), .move 1, .move 1, .move 1, .move 1, .answer 1 .returned,
    .ask 1 (.deliver (.report ⟨1⟩ .info "done")), .move 1, .move 1,
    .answer 0 .returned, .move 0, .move 0, .move 0, .answer 0 .returned, .move 0, .move 0, .move 0,
    .answer 0 .returned, .move 0, .move 0, .move 0]

/-- Its listener and its sink are those of no other operation. -/
theorem ClientThreads.own_of_interrupted : (run {} interrupted).Own ⟨1⟩ (.recorder "") (.collector "") := by
  have hids : (run {} interrupted).client.deliveries.ids = [⟨1⟩] := by decide +kernel
  have hfound : ((run {} interrupted).client.deliveries.get? ⟨1⟩).any
      (fun d => decide (d.listener = .recorder "" ∧ d.sink = .collector "")) = true := by decide +kernel
  obtain ⟨d, hd, hown⟩ := (Option.any_eq_true _ _).mp hfound
  refine ⟨⟨d, hd, of_decide_eq_true hown⟩, fun i e he _ => ?_⟩
  have hmem : i ∈ (run {} interrupted).client.deliveries.ids := by
    rw [Table.mem_ids, he]
    rfl
  rw [hids] at hmem
  exact List.mem_singleton.mp hmem

/-- The same messages, one after the other. -/
def RecordingClient.reported : List Action :=
  [.execute (.recorder "") ⟨.undefined, [], .collector ""⟩, .deliver (.prepared ⟨1⟩ .undefined),
    .deliver (.report ⟨1⟩ .warn "slow"), .deliver (.completed ⟨1⟩ .undefined)]

/-- In each of the three there is a report for the sink, and something for the listener. -/
theorem reports_forwarded_of_interrupted :
    (ClientThreads.run {} ClientThreads.interrupted).given.length < 2 ^ 64 - 1 ∧
      (RecordingClient.run (fun _ _ _ => .hold) {}
        RecordingClient.reported).clientThreads.given.length < 2 ^ 64 - 1 ∧
      (Loopback.run Loopback.exchange Loopback.exchanged).clientThreads.given.length < 2 ^ 64 - 1 ∧
      ((ClientThreads.run {} ClientThreads.interrupted).calls ⟨1⟩).map Callback.kind =
        ["prepared", "report", "complete"] ∧
      ((RecordingClient.run (fun _ _ _ => .hold) {}
        RecordingClient.reported).clientThreads.calls ⟨1⟩).map Callback.kind =
        ["prepared", "report", "complete"] ∧
      ((Loopback.run Loopback.exchange Loopback.exchanged).clientThreads.calls ⟨2⟩).map Callback.kind =
        ["report", "prepared", "complete"] ∧
      (ClientThreads.run {} ClientThreads.interrupted).Own ⟨1⟩ (.recorder "") (.collector "") ∧
      (ClientThreads.run {} ClientThreads.interrupted).Forwarding ∧
        (ClientThreads.run {} ClientThreads.interrupted).Reported ⟨1⟩ ∧
      RecordingClient.Forwards (fun _ _ _ => .hold) {} RecordingClient.reported ∧
      (RecordingClient.run (fun _ _ _ => .hold) {}
        RecordingClient.reported).client.pending.get? ⟨1⟩ = none ∧
      Loopback.Forwards Loopback.exchange Loopback.exchanged ∧
      .ok ⟨2⟩ ∈ (Loopback.run Loopback.exchange Loopback.exchanged).clientThreads.answers ⟨2⟩ := by
  have hrun : Loopback.run Loopback.exchange Loopback.exchanged =
      Loopback.rehearse Loopback.exchange 80 Loopback.exchanged :=
        Loopback.run_eq_rehearse (by decide +kernel)
  have hclientThreads :
      (ClientThreads.run {} ClientThreads.interrupted).given.length < 2 ^ 64 - 1 := by decide +kernel
  have hrecording :
      (RecordingClient.run (fun _ _ _ => .hold) {}
        RecordingClient.reported).clientThreads.given.length < 2 ^ 64 - 1 := by
    decide +kernel
  have hloopback :
      (Loopback.run Loopback.exchange Loopback.exchanged).clientThreads.given.length < 2 ^ 64 - 1 := by
    rw [hrun]
    decide +kernel
  have htaken : .ok ⟨1⟩ ∈ (ClientThreads.run {} ClientThreads.interrupted).answers ⟨1⟩ :=
    ClientThreads.ok_of_any (by decide +kernel)
  obtain ⟨hforwarding, hreported, hforwards, hforwards'⟩ :=
    reports_forwarded hclientThreads hrecording hloopback
  refine ⟨hclientThreads, hrecording, hloopback, by decide +kernel, by decide +kernel, ?_,
    ClientThreads.own_of_interrupted, hforwarding, hreported ⟨1⟩ htaken, hforwards,
    Option.isNone_iff_eq_none.mp (by decide +kernel), hforwards', ClientThreads.ok_of_any ?_⟩
  · rw [hrun]
    decide +kernel
  · rw [hrun]
    decide +kernel

end TwoPhase
