import TwoPhase.Participant.KeyValue
import TwoPhase.Proofs.Loopback.Orders
import TwoPhase.Proofs.Loopback.Submissions
import TwoPhase.Proofs.EndpointThreads.Staging
/-
What a store behind a loopback shows.

A name has the value that the last committed request wrote under it, by the order in which the commits
were granted; nothing else that happens at either end leaves a trace. What is staged under an operation
is what its caller asked for, encoded, read again and kept until its decision (`Stocked`); decisions are
carried out as they are granted (`Open.orders`); and once somebody closes something the store does not
change any more.
-/

set_option autoImplicit false

namespace TwoPhase

namespace Loopback

variable {σ : Type} {S : Setting σ} {c : Loopback σ}

/-! ## What is staged -/

/-- The operation whose write a frame of the participant knows to be staged. -/
def Frame.staged? : Frame → Option OperationId
  | .endpoint (.todo (.prepared id (.ok _))) => some id
  | .endpoint (.todo (.raise (.finalize t _))) | .endpoint (.inside (.finalize t _)) => some t.id
  | _ => none

/-- The operations whose writes some frames know to be staged. -/
def staging (stack : List Frame) : List OperationId := stack.filterMap Frame.staged?

/-- The participant holds the operation, or is about to, or has just let go of it. -/
def Staged (transactions : Table Transaction) (stack : List Frame) (id : OperationId) : Prop :=
  (∃ t, transactions.get? id = some (.prepared t)) ∨ id ∈ staging stack

@[simp] theorem staging_nil : staging [] = [] := rfl

@[simp] theorem staging_cons (f : Frame) (rest : List Frame) :
    staging (f :: rest) = f.staged?.toList ++ staging rest := filterMap_cons_toList _ f rest

@[simp] theorem staging_append (first rest : List Frame) :
    staging (first ++ rest) = staging first ++ staging rest := List.filterMap_append

@[simp] theorem staging_map_client (frames : List Client.Frame) :
    staging (frames.map Frame.client) = [] := filterMap_map_of_none (fun _ => rfl) frames

theorem staged_endpoint (f : Endpoint.Frame) : Frame.staged? (.endpoint f) = f.staged? := by
  rcases f with (_ | _ | ⟨id, result⟩ | _ | _ | _ | u) | u
  · rfl
  · rfl
  · rcases result with _ | _ <;> rfl
  · rfl
  · rfl
  · rfl
  · rcases u with _ | _ | _ | _ <;> rfl
  · rcases u with _ | _ | _ | _ <;> rfl

theorem staging_map_endpoint (frames : List Endpoint.Frame) :
    staging (frames.map Frame.endpoint) = Endpoint.staging frames := by
  unfold staging Endpoint.staging
  rw [List.filterMap_map]
  exact List.filterMap_congr fun f _ => staged_endpoint f

/-- An operation that is known to be staged is carried on. -/
theorem legs_of_staging {stack : List Frame} {id : OperationId} (h : id ∈ staging stack) :
    legs id stack ≠ [] := by
  obtain ⟨f, hf, hstaged⟩ := List.mem_filterMap.mp h
  have hleg : ∃ l, f.leg? = some (id, l) := by
    unfold Frame.staged? at hstaged
    split at hstaged <;> cases hstaged <;> exact ⟨_, rfl⟩
  obtain ⟨l, hl⟩ := hleg
  refine List.ne_nil_of_mem (a := l) (List.mem_filterMap.mpr ⟨f, hf, ?_⟩)
  rw [hl, legOf_self]

attribute [local simp] Frame.staged? Table.get?_insert Table.get?_erase

variable {entries : OperationId → Option Pending} {e : Endpoint} {rest : List Frame}
  {id : OperationId}

/-- What the participant does stages nothing. -/
theorem staged_perform {now : UInt64} {t : Endpoint.Task}
    (links : Links entries e.transactions (.endpoint (.todo t) :: rest))
    (h : Staged (e.perform now t).endpoint.transactions
      ((e.perform now t).frames.map .endpoint ++ rest) id) :
    Staged e.transactions (.endpoint (.todo t) :: rest) id := by
  have hpasses : Endpoint.Passes e t (e.perform now t) := by
    apply Endpoint.passes_perform
    · rintro i d rfl held hheld
      obtain ⟨op, t, ht, -, hfound, -⟩ :=
        Link.of_decision (by simpa [Frame.leg?, Endpoint.Frame.leg?] using links i)
      rw [hheld] at hfound
      obtain ⟨rfl⟩ := Transaction.prepared.inj (Option.some.inj hfound)
      exact ht
    · rintro i result rfl
      obtain ⟨op, r, -, -, hheld, -⟩ :=
        Link.of_handled (by simpa [Frame.leg?, Endpoint.Frame.leg?] using links i)
      exact ⟨r, hheld⟩
  have hknown := (hpasses.known id).mp
  unfold Staged at h ⊢
  rw [← Endpoint.mem_preparedIds_iff_exists] at h ⊢
  rw [staging_append, staging_map_endpoint, List.mem_append] at h
  rw [← List.singleton_append, staging_append, List.mem_append, ← List.map_singleton,
    staging_map_endpoint]
  rcases h with h | h | h
  · exact (hknown (Or.inl h)).imp_right Or.inl
  · exact (hknown (Or.inr h)).imp_right Or.inl
  · exact Or.inr (Or.inr h)

/-- Whether a frame is one at which the handler's state may change. -/
def Frame.isHandling : Frame → Bool
  | .conclude .. | .endpoint (.inside (.finalize ..)) => true
  | _ => false

/-- Everything else leaves the handler's state as it is, and nothing is made of it. -/
theorem store_move {f : Frame} (hstack : c.stack = f :: rest) (hf : f.isHandling = false) :
    (c.move S).store = c.store ∧ (c.move S).handlerCalls = c.handlerCalls := by
  rw [move_cons hstack]
  cases f with
  | client f =>
    cases f with
    | todo t => exact ⟨rfl, rfl⟩
    | inside u =>
      cases u with
      | send m => cases hopen : c.isOpen <;> simp [step, call, answer]
      | _ => exact ⟨rfl, rfl⟩
  | returning m => exact ⟨rfl, rfl⟩
  | conclude i p => contradiction
  | endpoint f =>
    cases f with
    | todo t => exact ⟨rfl, rfl⟩
    | inside u => cases u <;> first | exact ⟨rfl, rfl⟩ | contradiction

/-- Only the handler stages anything. -/
theorem staged_move (engaged : Engaged c) {f : Frame} (hstack : c.stack = f :: rest)
    (hf : f.isHandling = false)
    (h : Staged (c.move S).endpoint.transactions (c.move S).stack id) :
    Staged c.endpoint.transactions c.stack id := by
  have links := engaged.links
  rw [hstack] at links
  rw [move_cons hstack] at h
  rw [hstack]
  cases f with
  | client f =>
    cases f with
    | todo t => simpa [Staged, step, -List.map_append] using h
    | inside u =>
      cases u with
      | send m => simpa [Staged, step, call, engaged.isOpen] using h
      | _ => simpa [Staged, step, call, answer] using h
  | returning m => simpa [Staged, step, answer] using h
  | conclude i p => contradiction
  | endpoint f =>
    cases f with
    | todo t => exact staged_perform links h
    | inside u =>
      cases u with
      | finalize t d => contradiction
      | prepare i p =>
        have hreports : staging ((S.handler.reports c.store i p).map fun r =>
            .endpoint (.todo (.raise (.reply (.report i r.severity r.text))))) = [] :=
          filterMap_map_of_none (fun _ => rfl) _
        simpa [Staged, step, serve, hreports] using h
      | record i event => simpa [Staged, step, serve] using h
      | reply m => simpa [Staged, step, serve] using h

end Loopback

/-! ## What was committed -/

namespace KeyValue

variable {w : String × Value} {op : Operation}

/-- What an operation asks to be written under a name. -/
def asked (name : String) (op : Operation) : Option Value :=
  if (op.request.get? "name").bind Value.text? = some name then
    some ((op.request.get? "value").getD .undefined)
  else none

/-- A request that the store accepts asks for what the store writes. -/
theorem asked_of_target (h : target op.request = .ok w) (name : String) :
    asked name op = if name = w.1 then some w.2 else none := by
  unfold target at h
  split at h
  · split at h
    · rename_i key hkey
      obtain rfl := Except.ok.inj h
      simp [asked, hkey, eq_comm]
    · contradiction
  · contradiction

end KeyValue

namespace Loopback

variable {σ : Type} {c : Loopback σ}

/-- The operations that are committed by some decisions, first to last. -/
def commits (decisions : List (OperationId × Decision)) : List OperationId :=
  decisions.filterMap fun decision =>
    match decision with
    | (id, .commit) => some id
    | (_, .rollback) => none

/-- What was asked to be written under a name by the operations that some decisions commit, first to
last. -/
def written (c : Loopback σ) (name : String) (decisions : List (OperationId × Decision)) :
    List Value :=
  (commits decisions).filterMap fun id => (c.operation? id).bind (KeyValue.asked name)

theorem written_append (c : Loopback σ) (name : String)
    (first second : List (OperationId × Decision)) :
    c.written name (first ++ second) = c.written name first ++ c.written name second := by
  simp [written, commits]

theorem written_single {id : OperationId} {op : Operation} {w : String × Value}
    (hop : c.operation? id = some op) (h : KeyValue.target op.request = .ok w) (d : Decision)
    (name : String) :
    c.written name [(id, d)] = if d = .commit ∧ name = w.1 then [w.2] else [] := by
  cases d with
  | rollback => rfl
  | commit =>
    by_cases hname : name = w.1 <;>
      simp [written, commits, hop, KeyValue.asked_of_target h, hname]

/-- What is submitted later is not written by earlier decisions. -/
theorem written_grows {c' : Loopback σ} {decisions : List (OperationId × Decision)}
    (hgrown : ∀ id op, c.operation? id = some op → c'.operation? id = some op)
    (hknown : ∀ decision ∈ decisions, ∃ op, c.operation? decision.1 = some op) (name : String) :
    c'.written name decisions = c.written name decisions := by
  refine List.filterMap_congr fun id hid => ?_
  obtain ⟨⟨i, d⟩, hmem, hcommit⟩ := List.mem_filterMap.mp hid
  cases d with
  | rollback => contradiction
  | commit =>
    obtain rfl := Option.some.inj hcommit
    obtain ⟨op, hop⟩ := hknown _ hmem
    rw [hop, hgrown i op hop]

/-- What the store has is what was asked for: under each name what the last commit wrote, and staged
under each operation what it will write. -/
structure Stocked (c : Loopback KeyValue) : Prop where
  staged : ∀ id, Staged c.endpoint.transactions c.stack id → ∃ op w, c.operation? id = some op ∧
    KeyValue.target op.request = .ok w ∧ c.store.staged.get? id = some w
  known : ∀ decision ∈ c.carriedOut, ∃ op, c.operation? decision.1 = some op
  current : ∀ name, c.store.lookup name = (c.written name c.carriedOut).getLast?

namespace Stocked

variable {c c' : Loopback KeyValue} {S : Setting KeyValue} {rest : List Frame}

/-- What neither reaches the store nor stages anything keeps it so. -/
theorem kept (h : Stocked c) (hgrown : ∀ id op, c.operation? id = some op → c'.operation? id = some op)
    (hstore : c'.store = c.store) (hcalls : c'.carriedOut = c.carriedOut)
    (hstaged : ∀ id, Staged c'.endpoint.transactions c'.stack id →
      Staged c.endpoint.transactions c.stack id) : Stocked c' := by
  refine ⟨fun id hid => ?_, fun decision hdecision => ?_, fun name => ?_⟩
  · obtain ⟨op, w, hop, htarget, hw⟩ := h.staged id (hstaged id hid)
    exact ⟨op, w, hgrown id op hop, htarget, hstore ▸ hw⟩
  · obtain ⟨op, hop⟩ := h.known decision (hcalls ▸ hdecision)
    exact ⟨op, hgrown _ op hop⟩
  · rw [hstore, hcalls, written_grows hgrown h.known]
    exact h.current name

section

variable (h : Stocked c) (hhandler : S.handler = KeyValue.handler) (engaged : Engaged c)
include h hhandler engaged

/-- What the handler stages is what was submitted. -/
theorem concluded {i : OperationId} {p : Payload}
    (listed : ∀ id entry, c.client.pending.get? id = some entry →
      c.operation? id = some entry.operation)
    (hstack : c.stack = .conclude i p :: rest) : Stocked (c.move S) := by
  have link := engaged.links i
  rw [hstack] at link
  obtain ⟨op, r, rfl, -, hentry, -, -⟩ :=
    Link.of_preparing (by simpa [Frame.leg?] using link)
  have hop : c.operation? i = some op := listed i _ hentry
  rw [move_cons hstack]
  simp only [step, hhandler]
  have hcalls (result : Except Failure Value) :
      (c.handlerCalls ++ [HandlerCall.prepared i op.payload result]).filterMap HandlerCall.order? =
        c.carriedOut := by
    simp [carriedOut, HandlerCall.order?]
  cases htarget : KeyValue.target op.request with
  | error f =>
    -- a request that the store refuses stages nothing
    rw [KeyValue.prepare_of_refused (p := op.payload) htarget]
    refine h.kept (fun _ _ hop => hop) rfl (hcalls _) fun id hid => ?_
    simpa [Staged, hstack, Frame.staged?] using hid
  | ok w =>
    rw [KeyValue.prepare_of_target (p := op.payload) htarget]
    refine ⟨fun id hid => ?_, ?_, fun name => ?_⟩
    · by_cases hsame : id = i
      · subst hsame
        exact ⟨op, w, hop, htarget, by simp [Table.get?_insert]⟩
      · have hbefore : Staged c.endpoint.transactions c.stack id := by
          simpa [Staged, hstack, Frame.staged?, hsame] using hid
        obtain ⟨op', w', hop', htarget', hw'⟩ := h.staged id hbefore
        exact ⟨op', w', hop', htarget', by simpa [Table.get?_insert, hsame] using hw'⟩
    · rw [carriedOut, hcalls]
      exact h.known
    · rw [carriedOut, hcalls]
      exact h.current name

/-- What a commit writes is what was submitted, and a rollback writes nothing. -/
theorem finalized {t : PreparedTransaction} {d : Decision}
    (hstack : c.stack = .endpoint (.inside (.finalize t d)) :: rest) : Stocked (c.move S) := by
  have link := engaged.links t.id
  rw [hstack] at link
  obtain ⟨-, -, hnone, hbelow⟩ :=
    Link.of_finalizing (by simpa [Frame.leg?, Endpoint.Frame.leg?] using link)
  obtain ⟨op, w, hop, htarget, hw⟩ := h.staged t.id (Or.inr (by simp [hstack, Frame.staged?]))
  rw [move_cons hstack]
  simp only [step, serve, hhandler]
  have hcalls (result : Except Failure Value) :
      (c.handlerCalls ++ [HandlerCall.finalized t.id d result]).filterMap HandlerCall.order? =
        c.carriedOut ++ [(t.id, d)] := by
    simp [carriedOut, HandlerCall.order?]
  refine ⟨fun id hid => ?_, fun decision hdecision => ?_, fun name => ?_⟩
  · have hid : Staged c.endpoint.transactions rest id := by simpa [Staged, Frame.staged?] using hid
    -- the operation is on no other leg, so nothing of it is staged any more
    have hne : id ≠ t.id := by
      rintro rfl
      rcases hid with ⟨x, hx⟩ | hid
      · exact absurd (hnone.symm.trans hx) (by simp)
      · exact legs_of_staging hid hbelow
    have hbefore : Staged c.endpoint.transactions c.stack id := by
      simpa [Staged, hstack] using hid.imp_right Or.inr
    obtain ⟨op', w', hop', htarget', hw'⟩ := h.staged id hbefore
    refine ⟨op', w', hop', htarget', ?_⟩
    rw [KeyValue.staged_finalize hw, Table.get?_erase, if_neg hne]
    exact hw'
  · rw [carriedOut, hcalls] at hdecision
    rcases List.mem_append.mp hdecision with hdecision | hdecision
    · exact h.known decision hdecision
    · rw [List.mem_singleton.mp hdecision]
      exact ⟨op, hop⟩
  · rw [carriedOut, hcalls]
    show _ = (c.written name (c.carriedOut ++ [(t.id, d)])).getLast?
    rw [KeyValue.lookup_finalize hw, written_append, written_single hop htarget]
    split
    · rw [List.getLast?_concat]
    · rw [List.append_nil]
      exact h.current name

/-- **The store has what was asked for**, whatever is done next. -/
theorem moved (listed : ∀ id entry, c.client.pending.get? id = some entry →
    c.operation? id = some entry.operation) : Stocked (c.move S) := by
  rcases hstack : c.stack with _ | ⟨f, rest⟩
  · rw [move_nil hstack]
    exact h
  cases hf : f.isHandling with
  | false =>
    obtain ⟨marks, hpast, hmarks⟩ := past_grows (S := S) c
    obtain ⟨hstore, hcalls⟩ := store_move (S := S) hstack hf
    exact h.kept (fun _ _ => operation_grows hpast hmarks) hstore (by rw [carriedOut, hcalls, carriedOut])
      fun _ => staged_move engaged hstack hf
  | true =>
    unfold Frame.isHandling at hf
    split at hf
    · exact h.concluded hhandler engaged listed hstack
    · exact h.finalized hhandler engaged hstack
    · contradiction

end

end Stocked

/-! ## The store at the far end -/

/-- A store behind the channel, at first without names. -/
def overStore (habit : Listener → OperationId → Value → Policy) (clock : Nat → UInt64)
    (config : Config) : Setting KeyValue :=
  ⟨KeyValue.handler, .empty, habit, clock, config⟩

/-- What was asked to be written under a name by the operations whose commit was granted, first to
last. -/
def committed (c : Loopback σ) (name : String) : List Value := c.written name c.granted

section

variable {habit : Listener → OperationId → Value → Policy} {clock : Nat → UInt64} {config : Config}
  {c : Loopback KeyValue}

theorem Open.stocked (h : Open (overStore habit clock config) c)
    (hgiven : c.clientThreads.given.length < 2 ^ 64) : Stocked c := by
  induction h with
  | fresh =>
    refine ⟨?_, nofun, fun name => rfl⟩
    rintro id (⟨t, ht⟩ | hid) <;> contradiction
  | @taken c h hidle a ha ih =>
    refine (ih hgiven).kept (fun _ _ hop => hop) rfl rfl fun id hid => ?_
    have hstaging : staging (c.take a).stack = [] := by
      rw [stack_take hidle]
      cases c.request? a <;> rfl
    rw [Staged, hstaging] at hid
    rw [Staged, hidle]
    exact hid
  | moved h ih =>
    have hbefore := Nat.lt_of_le_of_lt h.visited.given_le hgiven
    exact (ih hbefore).moved rfl (h.engaged hbefore) (h.listed hbefore)

end

namespace Still

variable {c c' : Loopback σ} (h : Still c c')
include h

theorem given : c'.clientThreads.given = c.clientThreads.given := by
  obtain ⟨marks, hpast, hquiet⟩ := h.past
  show c'.past.flatMap Mark.given = c.past.flatMap Mark.given
  rw [hpast, List.flatMap_append,
    List.flatMap_eq_nil_iff.mpr fun mark hmark => (hquiet mark hmark).1, List.append_nil]

theorem granted : c'.granted = c.granted := by
  obtain ⟨marks, hpast, hquiet⟩ := h.past
  rw [Loopback.granted, hpast, List.flatMap_append,
    List.flatMap_eq_nil_iff.mpr fun mark hmark => (hquiet mark hmark).2, List.append_nil]
  rfl

theorem operation (id : OperationId) : c'.operation? id = c.operation? id := by
  obtain ⟨marks, hpast, hquiet⟩ := h.past
  rw [operation?, hpast, submissions_append, submissions_of_quiet fun mark hmark =>
    (hquiet mark hmark).1, List.append_nil]
  · rfl
  · intro id hhead
    have hgiven := (hquiet _ (List.mem_of_mem_head? hhead)).1
    contradiction

theorem committed (name : String) : c'.committed name = c.committed name := by
  rw [Loopback.committed, Loopback.committed, h.granted]
  exact List.filterMap_congr fun id _ => by rw [h.operation]

end Still

section

variable {habit : Listener → OperationId → Value → Policy} {clock : Nat → UInt64} {config : Config}

/-- **While no decision is under way, a name has what the last granted commit asked for**: the value in
the request of that operation, as it was submitted. Nothing else leaves a trace, then or later. -/
theorem Visited.stored {c : Loopback KeyValue} (h : Visited (overStore habit clock config) c)
    (hgiven : c.clientThreads.given.length < 2 ^ 64 - 1) (hgranting : granting c.stack = [])
    (hordering : ordering c.stack = []) (name : String) :
    c.store.lookup name = (c.committed name).getLast? := by
  have hopen {c : Loopback KeyValue} (hopen : Open (overStore habit clock config) c)
      (hgiven : c.clientThreads.given.length < 2 ^ 64 - 1) (hgranting : granting c.stack = [])
      (hordering : ordering c.stack = []) : c.store.lookup name = (c.committed name).getLast? := by
    -- nothing is under way, so what was granted is what was carried out
    have horders := hopen.orders hgiven
    rw [orders, hordering, List.append_nil, grants, hgranting, List.append_nil] at horders
    rw [committed, ← horders]
    exact (hopen.stocked (by omega)).current name
  -- a close has changed neither the store nor what was granted
  rcases h.open_or_still with h | ⟨before, hbefore, hidle, -, still⟩
  · exact hopen h hgiven hgranting hordering
  · rw [still.store, still.committed]
    rw [still.given] at hgiven
    exact hopen hbefore hgiven (by rw [hidle, granting_nil]) (by rw [hidle, ordering_nil])

/-- **After every action a name has what the last granted commit asked for.** -/
theorem lookup_eq_last_committed (actions : List Action)
    (hgiven : (run (overStore habit clock config) actions).clientThreads.given.length < 2 ^ 64 - 1)
    (name : String) :
    (run (overStore habit clock config) actions).store.lookup name =
      ((run (overStore habit clock config) actions).committed name).getLast? := by
  have hidle := run_idle (S := overStore habit clock config) actions
  exact (visited_run actions).stored hgiven (by rw [hidle, granting_nil])
    (by rw [hidle, ordering_nil]) name

end

/-- A store whose listeners hold, commit or roll back as soon as they are called. -/
def keyValueSetting : Setting KeyValue :=
  overStore (fun listener _ _ =>
    if listener = .recorder "eager" then .commit
    else if listener = .recorder "picky" then .rollback else .hold) (fun _ => 0) {}

/-- Writes of one name, of which the first that is submitted is the last that is committed, and what the
store refuses or nobody decides before the channel is closed. -/
def traded : List Action :=
  let write (listener value : String) : Action :=
    .execute (.recorder listener) ⟨KeyValue.write "x" (.string value), [], .discard⟩
  [write "patient" "first", write "eager" "second", write "picky" "third", .decide ⟨1⟩ .commit,
    write "patient" "fourth", .execute (.recorder "eager") ⟨.undefined, [], .discard⟩,
    .closeChannel, .decide ⟨4⟩ .commit]

theorem lookup_of_traded :
    (run keyValueSetting traded).clientThreads.given.length < 2 ^ 64 - 1 ∧
      ((run keyValueSetting traded).committed "x").map Value.text? = [some "second", some "first"] ∧
      ((run keyValueSetting traded).store.lookup "x").map Value.text? = some (some "first") := by
  have hrun : run keyValueSetting traded = rehearse keyValueSetting 100 traded :=
    run_eq_rehearse (by decide +kernel)
  have hgiven : (run keyValueSetting traded).clientThreads.given.length < 2 ^ 64 - 1 := by
    rw [hrun]
    decide +kernel
  have hcommitted :
      ((run keyValueSetting traded).committed "x").map Value.text? =
        [some "second", some "first"] := by
    rw [hrun]
    decide +kernel
  refine ⟨hgiven, hcommitted, ?_⟩
  have hlast : (run keyValueSetting traded).store.lookup "x" =
      ((run keyValueSetting traded).committed "x").getLast? := lookup_eq_last_committed traded hgiven "x"
  rw [hlast, ← List.getLast?_map, hcommitted]
  rfl

end Loopback

end TwoPhase
