import TwoPhase.Proofs.EndpointThreads.EndpointJobs
/-
What a participant does about one message, from its receipt to the reply.

While a message is handled the table is not its own: between two of its moves others may change any entry.
`Brings` says what frames can bring about when the table may be anything at each move. What a stack of
frames brings about can be cut between any two of them, so it is put together from what each frame does,
and the whole handling of a message is read off what its receipt brings about.
-/

set_option autoImplicit false

namespace TwoPhase

open Endpoint (Task Frame Upcall Answer)

/-! ## What was done about a message, by kind -/

namespace Doing

/-- The report that a doing is, if any. -/
def report? : Doing → Option Report
  | reported r => some r
  | _ => none

/-- The new entry of the table, if the doing is a change of it. -/
def entry? : Doing → Option (Option Transaction)
  | filed entry => some entry
  | _ => none

/-- The call of the handler that a doing is, if any. -/
def call? : Doing → Option Upcall
  | called (.prepare id payload) => some (.prepare id payload)
  | called (.finalize t decision) => some (.finalize t decision)
  | _ => none

/-- What the handler returned, if a doing is that. -/
def result? : Doing → Option (Except Failure Value)
  | answered _ (.handled result) => some result
  | _ => none

/-- The reply that is sent, if any. -/
def reply? : Doing → Option Inbound
  | called (.reply m) => some m
  | _ => none

end Doing

/-- The reports that the handler made. -/
def reportsIn (record : List Doing) : List Report := record.filterMap Doing.report?

/-- What was done amounts to these changes of the entry, calls of the handler, results of those, reports
and replies. -/
structure Amounts (record : List Doing) (entries : List (Option Transaction)) (calls : List Upcall)
    (results : List (Except Failure Value)) (reports : List Report) (replies : List Inbound) :
    Prop where
  entries : record.filterMap Doing.entry? = entries
  calls : record.filterMap Doing.call? = calls
  results : record.filterMap Doing.result? = results
  reports : reportsIn record = reports
  replies : record.filterMap Doing.reply? = replies

theorem Amounts.append {first second : List Doing} {entries entries' : List (Option Transaction)}
    {calls calls' : List Upcall} {results results' : List (Except Failure Value)}
    {reports reports' : List Report} {replies replies' : List Inbound}
    (h : Amounts first entries calls results reports replies)
    (h' : Amounts second entries' calls' results' reports' replies') :
    Amounts (first ++ second) (entries ++ entries') (calls ++ calls') (results ++ results')
      (reports ++ reports') (replies ++ replies') where
  entries := by rw [List.filterMap_append, h.entries, h'.entries]
  calls := by rw [List.filterMap_append, h.calls, h'.calls]
  results := by rw [List.filterMap_append, h.results, h'.results]
  reports := by rw [reportsIn, List.filterMap_append, ← reportsIn, ← reportsIn, h.reports, h'.reports]
  replies := by rw [List.filterMap_append, h.replies, h'.replies]

/-- The reply that announces a result of the handler. A failure is announced alike after either call. -/
def announce (success : OperationId → Value → Inbound) (id : OperationId) :
    Except Failure Value → Inbound
  | .ok result => success id result
  | .error f => .failed id f

/-- What handling a submission that was entered has to come to: one call of the handler, if the payload
can be read, then the reports, and last one reply that announces the result. -/
def Attempted (id : OperationId) (octets : List UInt8) (record : List Doing) : Prop :=
  match Payload.decode octets with
  | .ok payload => ∃ entries result reports,
    Amounts record entries [.prepare id payload] [result] reports
      (reports.map (fun r => .report id r.severity r.text) ++ [announce .prepared id result])
  | .error fault => ∃ entries, Amounts record entries [] [] []
    [.failed id (.rejected ("malformed operation: " ++ fault.message))]

theorem Attempted.after {first record : List Doing} {id : OperationId} {octets : List UInt8}
    {entries : List (Option Transaction)} (h : Attempted id octets record)
    (hfirst : Amounts first entries [] [] [] []) : Attempted id octets (first ++ record) := by
  unfold Attempted at h ⊢
  cases hdecode : Payload.decode octets with
  | ok payload =>
    rw [hdecode] at h
    obtain ⟨entries', result, reports, h⟩ := h
    exact ⟨_, result, reports, hfirst.append h⟩
  | error fault =>
    rw [hdecode] at h
    obtain ⟨entries', h⟩ := h
    exact ⟨_, hfirst.append h⟩

/-! ## What frames bring about -/

/-- All that the frames of a message of the operation `id` can bring about, with the table as it may be at
each move. -/
inductive Brings (id : OperationId) : List Frame → List Doing → Prop
  | nil : Brings id [] []
  | move {t : Task} {rest : List Frame} {later : List Doing} (e : Endpoint) (now : UInt64)
      (hkeyed : e.Keyed) (h : Brings id ((e.perform now t).frames ++ rest) later) :
      Brings id (.todo t :: rest) (e.doings id now t ++ later)
  | answer {u : Upcall} {a : Answer} {rest : List Frame} {later : List Doing} (hfits : u.fits a = true)
      (h : Brings id (u.resume a ++ rest) later) :
      Brings id (.inside u :: rest) (.answered u a :: later)
  | report {i : OperationId} {payload : Payload} {rest : List Frame} {later : List Doing} (r : Report)
      (h : Brings id (.todo (.raise (.reply (.report i r.severity r.text))) ::
        .inside (.prepare i payload) :: rest) later) :
      Brings id (.inside (.prepare i payload) :: rest) (.reported r :: later)

namespace Brings

variable {id : OperationId} {record : List Doing}

/-- What frames bring about can be cut between any two of them. -/
theorem cut {first second : List Frame} (h : Brings id (first ++ second) record) :
    ∃ r r', record = r ++ r' ∧ Brings id first r ∧ Brings id second r' := by
  -- what the topmost frame leaves behind stays on the near side of the cut
  generalize hall : first ++ second = all at h
  induction h generalizing first with
  | nil =>
    obtain ⟨rfl, rfl⟩ := List.append_eq_nil_iff.mp hall
    exact ⟨[], [], rfl, .nil, .nil⟩
  | @move t rest later e now hkeyed h ih =>
    rcases first with _ | ⟨f, first⟩
    · obtain rfl := hall
      exact ⟨[], _, rfl, .nil, .move e now hkeyed h⟩
    · obtain ⟨rfl, rfl⟩ := List.cons.inj hall
      obtain ⟨r, r', rfl, hr, hr'⟩ := ih (List.append_assoc _ _ _)
      exact ⟨_, r', (List.append_assoc _ _ _).symm, .move e now hkeyed hr, hr'⟩
  | @answer u a rest later hfits h ih =>
    rcases first with _ | ⟨f, first⟩
    · obtain rfl := hall
      exact ⟨[], _, rfl, .nil, .answer hfits h⟩
    · obtain ⟨rfl, rfl⟩ := List.cons.inj hall
      obtain ⟨r, r', rfl, hr, hr'⟩ := ih (List.append_assoc _ _ _)
      exact ⟨_, r', rfl, .answer hfits hr, hr'⟩
  | @report i payload rest later r h ih =>
    rcases first with _ | ⟨f, first⟩
    · obtain rfl := hall
      exact ⟨[], _, rfl, .nil, .report r h⟩
    · obtain ⟨rfl, rfl⟩ := List.cons.inj hall
      obtain ⟨r₁, r', rfl, hr, hr'⟩ := @ih (_ :: _ :: first) rfl
      exact ⟨_, r', rfl, .report r hr, hr'⟩

theorem cut_first {f : Frame} {rest : List Frame} (h : Brings id (f :: rest) record) :
    ∃ r r', record = r ++ r' ∧ Brings id [f] r ∧ Brings id rest r' := by
  rw [← List.singleton_append] at h
  exact h.cut

theorem nil_inv (h : Brings id [] record) : record = [] := by
  cases h
  rfl

/-- A call goes on with what was answered. -/
theorem raise {u : Upcall} (h : Brings id [.todo (.raise u)] record) :
    ∃ later, record = .called u :: later ∧ Brings id [.inside u] later := by
  cases h with
  | move e now hkeyed h => exact ⟨_, by simp [Endpoint.doings, Endpoint.perform], h⟩

theorem reply {m : Inbound} (h : Brings id [.todo (.raise (.reply m))] record) :
    record = [.called (.reply m), .answered (.reply m) .returned] := by
  obtain ⟨later, rfl, hinside⟩ := raise h
  cases hinside with
  | @answer _ a _ later hfits hrest =>
    cases a with
    | returned =>
      obtain rfl := nil_inv hrest
      rfl
    | _ => contradiction

/-- An append to the journal does nothing else, whatever the journal says. -/
theorem journal {i : OperationId} {event : JournalEvent}
    (h : Brings id [.todo (.raise (.record i event))] record) : Amounts record [] [] [] [] [] := by
  obtain ⟨later, rfl, hinside⟩ := raise h
  cases hinside with
  | @answer _ a _ later hfits hrest =>
    cases a with
    | journaled result =>
      have hrecorded : later = [] := by
        cases hrest with
        | move e now hkeyed hrest =>
          cases result with
          | ok number =>
            obtain rfl := nil_inv hrest
            simp [Endpoint.doings, Endpoint.perform]
          | error err =>
            obtain rfl := nil_inv hrest
            simp [Endpoint.doings, Endpoint.perform]
      subst hrecorded
      exact ⟨rfl, rfl, rfl, rfl, rfl⟩
    | _ => contradiction

theorem note {n : Note} (h : Brings id [.todo (.note n)] record) : record = [] := by
  cases h with
  | move e now hkeyed h =>
    obtain rfl := nil_inv h
    simp [Endpoint.doings, Endpoint.perform]

/-- Handling ends with an append to the journal, a note and a reply. -/
theorem closing {i : OperationId} {event : JournalEvent} {n : Note} {m : Inbound}
    (h : Brings id [.todo (.raise (.record i event)), .todo (.note n), .todo (.raise (.reply m))] record) :
    Amounts record [] [] [] [] [m] := by
  obtain ⟨r, r', rfl, hjournal, hrest⟩ := cut_first h
  obtain ⟨r₁, r₂, rfl, hnote, hreply⟩ := cut_first hrest
  obtain rfl := note hnote
  obtain rfl := reply hreply
  exact (journal hjournal).append ⟨rfl, rfl, rfl, rfl, rfl⟩

theorem prepared {i : OperationId} {result : Except Failure Value}
    (h : Brings id [.todo (.prepared i result)] record) :
    ∃ entries, Amounts record entries [] [] [] [announce .prepared i result] := by
  cases h with
  | @move _ _ later e now hkeyed h =>
    have hdoings : ∃ entries, Amounts (e.doings id now (.prepared i result)) entries [] [] [] [] := by
      unfold Endpoint.doings
      dsimp only
      split
      · exact ⟨[], rfl, rfl, rfl, rfl, rfl⟩
      · exact ⟨[_], rfl, rfl, rfl, rfl, rfl⟩
    obtain ⟨entries, hdoings⟩ := hdoings
    have hlater : Amounts later [] [] [] [] [announce .prepared i result] := by
      cases result with
      | ok result => exact closing h
      | error f => exact closing h
    exact ⟨_, hdoings.append hlater⟩

/-- While the handler prepares it makes reports, each of which is a reply, and then returns. -/
theorem preparing {i : OperationId} {payload : Payload}
    (h : Brings id [.inside (.prepare i payload)] record) :
    ∃ entries result reports, Amounts record entries [] [result] reports
      (reports.map (fun r => .report i r.severity r.text) ++ [announce .prepared i result]) := by
  -- by induction on how much is done: a report leads back to where the handler was
  generalize hlength : record.length = n
  induction n using Nat.strongRecOn generalizing record with
  | _ n ih =>
    cases h with
    | @answer _ a _ later hfits h =>
      cases a with
      | handled result =>
        obtain ⟨entries, hlater⟩ := prepared h
        have hanswer : Amounts [.answered (.prepare i payload) (.handled result)] [] [] [result] [] [] :=
          ⟨rfl, rfl, rfl, rfl, rfl⟩
        exact ⟨_, result, [], hanswer.append hlater⟩
      | _ => contradiction
    | @report _ _ _ later r h =>
      obtain ⟨r₁, r₂, rfl, hreply, hinside⟩ := cut_first h
      obtain rfl := reply hreply
      have hreport : Amounts [.reported r, .called (.reply (.report i r.severity r.text)),
          .answered (.reply (.report i r.severity r.text)) .returned] [] [] [] [r]
          [.report i r.severity r.text] := ⟨rfl, rfl, rfl, rfl, rfl⟩
      have hshorter : r₂.length < n := by
        simp only [List.length_cons, List.length_append, List.length_nil] at hlength
        omega
      obtain ⟨entries, result, reports, hlater⟩ := ih _ hshorter hinside rfl
      exact ⟨_, result, r :: reports, hreport.append hlater⟩

/-- A payload is read, and the handler is called if that succeeds. -/
theorem decode {i : OperationId} {octets : List UInt8}
    (h : Brings id [.todo (.decode i octets)] record) : Attempted i octets record := by
  cases h with
  | @move _ _ later e now hkeyed hrest =>
    unfold Attempted
    cases hdecode : Payload.decode octets with
    | ok payload =>
      simp only [Endpoint.doings, Endpoint.perform, Endpoint.decode, hdecode, if_true,
        List.nil_append] at hrest ⊢
      obtain ⟨later, rfl, hinside⟩ := raise hrest
      obtain ⟨entries, result, reports, hlater⟩ := preparing hinside
      have hcall : Amounts [.called (.prepare i payload)] [] [.prepare i payload] [] [] [] :=
        ⟨rfl, rfl, rfl, rfl, rfl⟩
      exact ⟨_, result, reports, hcall.append hlater⟩
    | error fault =>
      simp only [Endpoint.doings, Endpoint.perform, Endpoint.decode, hdecode, if_true,
        List.nil_append] at hrest ⊢
      exact prepared hrest

/-- A decision is carried out by one call of the handler, whose result is announced. -/
theorem finalize {t : PreparedTransaction} {decision : Decision}
    (h : Brings id [.todo (.raise (.finalize t decision))] record) :
    ∃ result, Amounts record [] [.finalize t decision] [result] [] [announce .completed t.id result] := by
  obtain ⟨later, rfl, hinside⟩ := raise h
  cases hinside with
  | @answer _ a _ later hfits hrest =>
    cases a with
    | handled result =>
      have hcall : Amounts [.called (.finalize t decision), .answered (.finalize t decision)
          (.handled result)] [] [.finalize t decision] [result] [] [] := ⟨rfl, rfl, rfl, rfl, rfl⟩
      refine ⟨result, hcall.append ?_⟩
      cases hrest with
      | @move _ _ later e now hkeyed hrest =>
        have hdoings : e.doings id now (.finalized t decision result) = [] := by
          cases result <;> simp [Endpoint.doings, Endpoint.perform, Endpoint.finalized]
        rw [hdoings, List.nil_append]
        cases result with
        | ok result => exact closing hrest
        | error f => exact closing hrest
    | _ => contradiction

end Brings

/-! ## The handling of a message -/

/-- What handling a decision has to come to. -/
def Decided (id : OperationId) (decision : Decision) (record : List Doing) : Prop :=
  (∃ t result, t.id = id ∧ record.head? = some (.found (some (.prepared t))) ∧
    Amounts record [none] [.finalize t decision] [result] [] [announce .completed id result]) ∨
  ∃ held, (∀ t, held ≠ some (.prepared t)) ∧
    record = [.found held,
      .called (.reply (.failed id (.rejected ("no prepared operation " ++ id.text)))),
      .answered (.reply (.failed id (.rejected ("no prepared operation " ++ id.text)))) .returned]

/-- What handling a submission has to come to. -/
def Submitted (id : OperationId) (octets : List UInt8) (record : List Doing) : Prop :=
  (∃ t, record = [.found (some t)]) ∨
  record.head? = some (.found none) ∧ Attempted id octets record

/-- What handling a message has to come to. -/
def Handled : Outbound → List Doing → Prop
  | .execute id octets, record => Submitted id octets record
  | .commit id, record => Decided id .commit record
  | .rollback id, record => Decided id .rollback record

namespace Brings

variable {record : List Doing}

theorem execute_handled {id : OperationId} {octets : List UInt8}
    (h : Brings id [.todo (.receive (.execute id octets))] record) : Submitted id octets record := by
  cases h with
  | @move _ _ later e now hkeyed hrest =>
    cases hheld : e.transactions.get? id with
    | some t =>
      simp [Endpoint.perform, Endpoint.enter, Table.contains, hheld] at hrest
      obtain rfl := nil_inv hrest
      refine Or.inl ⟨t, ?_⟩
      simp [Endpoint.doings, Endpoint.perform, Endpoint.enter, Table.contains, hheld]
    | none =>
      have hframes : (e.perform now (.receive (.execute id octets))).frames =
          [.todo (.raise (.record id (.received now))), .todo (.decode id octets)] := by
        simp [Endpoint.perform, Endpoint.enter, Table.contains, hheld]
      have hdoings : e.doings id now (.receive (.execute id octets)) =
          [.found none, .filed (some (.received ⟨id, now⟩))] := by
        simp [Endpoint.doings, Endpoint.perform, Endpoint.enter, Table.contains, hheld,
          Table.get?_insert]
      rw [hframes] at hrest
      rw [hdoings]
      -- the receipt is journaled before the payload is read
      obtain ⟨r, r', rfl, hjournal, hdecode⟩ := cut_first hrest
      refine Or.inr ⟨rfl, ?_⟩
      rw [← List.append_assoc]
      have hentered : Amounts [.found none, .filed (some (.received ⟨id, now⟩))]
          [some (.received ⟨id, now⟩)] [] [] [] [] := ⟨rfl, rfl, rfl, rfl, rfl⟩
      exact (decode hdecode).after (hentered.append (journal hjournal))

theorem decide_handled {id : OperationId} {decision : Decision}
    (h : Brings id [.todo (.receive (.decide id decision))] record) : Decided id decision record := by
  cases h with
  | @move _ _ later e now hkeyed hrest =>
    have hperform : e.perform now (.receive (.decide id decision)) = e.take id decision := by
      cases decision <;> rfl
    have hdoings : e.doings id now (.receive (.decide id decision)) =
        .found (e.transactions.get? id) ::
          if (e.take id decision).endpoint.transactions.get? id = e.transactions.get? id then []
          else [.filed ((e.take id decision).endpoint.transactions.get? id)] := by
      cases decision <;> rfl
    rw [hperform] at hrest
    rw [hdoings]
    -- the one decision that finds the prepared entry takes it, all others are refused
    by_cases hprepared : ∃ t, e.transactions.get? id = some (.prepared t)
    · obtain ⟨t, hheld⟩ := hprepared
      have ht : t.id = id := hkeyed id _ hheld
      have htake : e.take id decision =
          ⟨⟨e.transactions.erase id⟩, [.todo (.raise (.finalize t decision))], []⟩ := by
        simp [Endpoint.take, hheld]
      rw [htake] at hrest ⊢
      obtain ⟨result, hlater⟩ := finalize hrest
      refine Or.inl ⟨t, result, ht, ?_, ?_⟩
      · rw [hheld]
        rfl
      · rw [ht] at hlater
        rw [Table.get?_erase, if_pos rfl, hheld, if_neg (by simp)]
        have htaken : Amounts [.found (some (.prepared t)), .filed none] [none] [] [] [] [] :=
          ⟨rfl, rfl, rfl, rfl, rfl⟩
        exact htaken.append hlater
    · have htake : e.take id decision =
          ⟨e, [.todo (.raise (.reply (.failed id (.rejected ("no prepared operation " ++ id.text)))))],
            [.notPrepared id decision]⟩ := by
        unfold Endpoint.take
        split
        · exact absurd ⟨_, ‹_›⟩ hprepared
        · rfl
      rw [htake] at hrest ⊢
      refine Or.inr ⟨e.transactions.get? id, fun t ht => hprepared ⟨t, ht⟩, ?_⟩
      obtain rfl := reply hrest
      rw [if_pos rfl]
      rfl

/-- **A message is handled as it has to be**, whatever the others do in the meantime. -/
theorem handled {m : Outbound} (h : Brings m.id [.todo (.receive m)] record) : Handled m record := by
  cases m with
  | execute id octets => exact execute_handled h
  | commit id => exact @decide_handled record id .commit h
  | rollback id => exact @decide_handled record id .rollback h

end Brings

end TwoPhase
