import TwoPhase.Proofs.SerialEndpoint.Staging
/-
How a store of named values behind an endpoint deals with decisions.

The store finds what it is asked to commit, since it has staged what the endpoint holds (`Lockstep`). So a
decision of an operation that is held is followed here from its message to its reply (`carried`,
`announced`), and it is always completed. The names change at a commit and at nothing else, and there only
the one that was staged.
-/

set_option autoImplicit false

namespace TwoPhase

open Endpoint (Task Upcall Stride)

namespace SerialEndpoint

variable {σ κ : Type} {S : Setting σ κ}

/-! ## A decision from its message to its reply -/

section

variable {d : SerialEndpoint σ κ} {id : OperationId} {t : PreparedTransaction} {rest : List Frame}

/-- A decision that is handed in takes its operation out of the table. -/
theorem move_decide (hheld : d.endpoint.transactions.get? id = some (.prepared t))
    (decision : Decision) :
    (d.hand (.decide id decision)).move S =
      { d with
        endpoint := ⟨d.endpoint.transactions.erase id⟩
        stack := .endpoint (.todo (.raise (.finalize t decision))) :: d.stack
        age := d.age + 1 } := by
  have htake : (d.endpoint.perform (S.clock (d.age + 1)) (.receive (.decide id decision))) =
      ⟨⟨d.endpoint.transactions.erase id⟩, [.todo (.raise (.finalize t decision))], []⟩ := by
    rcases decision with _ | _ <;> simp [Outbound.decide, Endpoint.perform, Endpoint.take, hheld]
  rw [move_cons rfl]
  simp only [step, hand, htake, signs, List.append_nil]
  rfl

/-- It comes to the handler, which is asked to carry it out. -/
theorem carried (hheld : d.endpoint.transactions.get? id = some (.prepared t)) (decision : Decision) :
    (move S)^[3] (d.hand (.decide id decision)) =
      { d with
        endpoint := ⟨d.endpoint.transactions.erase id⟩
        store := (S.handler.finalize d.store t.id decision).2
        stack := .endpoint (.todo
          (.finalized t decision (S.handler.finalize d.store t.id decision).1)) :: d.stack
        past := d.past ++ [.finalized t.id decision (S.handler.finalize d.store t.id decision).1]
        age := d.age + 3 } := by
  rw [Function.iterate_succ_apply, move_decide hheld]
  -- the call is entered before it is made
  rw [Function.iterate_succ_apply, move_cons rfl]
  simp only [step, Endpoint.perform, signs, List.append_nil]
  rfl

/-- Whatever the journal answered, the thread goes on with what is below. -/
theorem move_recorded {result : Except JournalError UInt64}
    (hstack : d.stack = .endpoint (.todo (.recorded id result)) :: rest) :
    d.move S = { d with stack := rest, age := d.age + 1 } := by
  rw [move_cons hstack]
  rcases result with err | sequence <;> simp [step, Endpoint.perform, signs]

/-- An event is handed to the journal, and nothing else comes of it. -/
theorem move_record {event : JournalEvent}
    (hstack : d.stack = .endpoint (.todo (.raise (.record id event))) :: rest) :
    ∃ journal, (move S)^[3] d =
      { d with
        journal := journal
        stack := rest
        events := d.events ++ [(id, event)]
        age := d.age + 3 } := by
  refine ⟨(S.archive.append d.journal id event (S.clock (d.age + 2))).2, ?_⟩
  rw [Function.iterate_succ_apply, move_cons hstack, Function.iterate_succ_apply, move_cons rfl,
    Function.iterate_succ_apply, move_recorded rfl]
  simp only [step, signs, List.append_nil]
  rfl

/-- A decision that was carried out is recorded, and its completion announced. -/
theorem announced {decision : Decision} {result : Value}
    (hstack : d.stack = .endpoint (.todo (.finalized t decision (.ok result))) :: rest) :
    ((move S)^[7] d).stack = rest ∧
      ((move S)^[7] d).past = d.past ++ [.replied (.completed t.id result)] ∧
      ((move S)^[7] d).endpoint = d.endpoint ∧ ((move S)^[7] d).store = d.store := by
  -- one move to learn of it, three for the journal, and three for the log and the reply
  have hfirst : (move S)^[7] d = (move S)^[3] ((move S)^[3] (d.move S)) := rfl
  have hnext : (d.move S).stack = .endpoint (.todo (.raise (.record t.id
        (Endpoint.finishedEvent (t.finish decision (S.clock (d.age + 1))))))) ::
      .endpoint (.todo (.note (.finalized t.id decision))) ::
      .endpoint (.todo (.raise (.reply (.completed t.id result)))) :: rest := by
    rw [move_cons hstack]
    rfl
  obtain ⟨journal, hrecord⟩ := move_record hnext
  rw [hfirst, hrecord, move_cons hstack]
  simp [Function.iterate_succ_apply, move, step, serve, signs, Endpoint.perform, Endpoint.finalized]

end

/-! ## What the store does with it -/

variable {d : SerialEndpoint KeyValue κ} {A : Archive κ} {clock : Nat → UInt64} {id : OperationId}

/-- What a decision comes to that is completed, from the serial endpoint at which it was handed in. -/
structure Completed (d d' : SerialEndpoint KeyValue κ) (id : OperationId) (decision : Decision) : Prop where
  /-- Whatever was in hand before is gone on with. -/
  stack : d'.stack = d.stack
  /-- The store carried the decision out, and the completion was announced. -/
  past : ∃ result, d'.past = d.past ++
    [.finalized id decision (.ok result), .replied (.completed id result)]
  /-- The operation is not held any more, and no other one is touched. -/
  held : ∀ i, i ∈ d'.endpoint.preparedIds ↔ i ≠ id ∧ i ∈ d.endpoint.preparedIds
  /-- Of a commit, the name that was staged has the value that was staged with it. -/
  store : ∃ w, d.store.staged.get? id = some w ∧ ∀ name, d'.store.lookup name =
    if decision = .commit ∧ name = w.1 then some w.2 else d.store.lookup name

/-- A decision of an operation that is held is completed. -/
theorem Lockstep.completed (h : Lockstep d) (hkeyed : d.endpoint.Keyed)
    (hheld : id ∈ d.endpoint.preparedIds) (decision : Decision) :
    Completed d ((move (keyValueSetting A clock))^[10] (d.hand (.decide id decision))) id decision := by
  obtain ⟨t, ht⟩ := Endpoint.mem_preparedIds_iff_exists.mp hheld
  have hid : t.id = id := hkeyed id (.prepared t) ht
  obtain ⟨w, hw⟩ := Option.isSome_iff_exists.mp ((h.staged id).mpr (Or.inl hheld))
  obtain ⟨result, hresult⟩ := KeyValue.finalize_ok hw decision
  have hcarried := carried (S := keyValueSetting A clock) ht decision
  rw [hid, show (keyValueSetting A clock).handler = KeyValue.handler from rfl, hresult] at hcarried
  obtain ⟨hstack, hpast, hendpoint, hstore⟩ := announced (S := keyValueSetting A clock)
    (d := (move (keyValueSetting A clock))^[3] (d.hand (.decide id decision))) (by rw [hcarried])
  rw [← Function.iterate_add_apply] at hstack hpast hendpoint hstore
  rw [hcarried] at hpast hendpoint hstore
  refine ⟨hstack, ⟨result, ?_⟩, ?_, ⟨w, hw, ?_⟩⟩
  · rw [hpast, hid, List.append_assoc]
    rfl
  · intro i
    rw [hendpoint]
    exact Endpoint.mem_preparedIds_erase id
  · intro name
    rw [hstore]
    exact KeyValue.lookup_finalize hw decision name

/-! ## Everything but a commit leaves the names alone -/

/-- Whether a frame leads to a commit, if its operation is held. -/
def Frame.commits : Frame → Bool
  | .endpoint (.todo (.receive (.commit _))) | .endpoint (.todo (.raise (.finalize _ .commit)))
  | .endpoint (.inside (.finalize _ .commit)) => true
  | _ => false

theorem commits_of_calm {f : Frame} (h : f.isCalm = true) : f.commits = false := by
  unfold Frame.commits
  split
  · contradiction
  · contradiction
  · contradiction
  · rfl

/-- No frame leads to a commit. -/
def Quiet (d : SerialEndpoint KeyValue κ) : Prop := ∀ f ∈ d.stack, f.commits = false

attribute [local simp] Frame.commits

theorem commits_perform {e : Endpoint} {now : UInt64} {t : Task}
    (h : (Frame.endpoint (.todo t)).commits = false) :
    ∀ f ∈ (e.perform now t).frames, (Frame.endpoint f).commits = false := by
  unfold Endpoint.perform
  split
  · unfold Endpoint.enter
    split <;> simp
  · contradiction
  · unfold Endpoint.take
    split <;> simp
  · unfold Endpoint.decode
    split <;> simp
  · unfold Endpoint.prepared
    split <;> simp
  · unfold Endpoint.finalized
    split <;> simp
  · simp
  · simp
  · simp
  · -- what is entered is what was about to be
    rename_i u
    intro f hf
    rw [List.mem_singleton.mp hf]
    rcases u with _ | ⟨t, decision⟩ | _ | _
    · rfl
    · rcases decision with _ | _
      · contradiction
      · rfl
    · rfl
    · rfl

/-- Without a commit the names keep their values, and none comes up. -/
theorem Quiet.move (h : Quiet d) : Quiet (d.move (keyValueSetting A clock)) ∧
    (d.move (keyValueSetting A clock)).store.committed = d.store.committed := by
  obtain ⟨e, store, journal, stack, past, events, age⟩ := d
  rcases stack with _ | ⟨f, rest⟩
  · exact ⟨h, rfl⟩
  have hrest : ∀ g ∈ rest, g.commits = false := fun g hg => h g (List.mem_cons_of_mem f hg)
  have htop : f.commits = false := h f List.mem_cons_self
  rcases f with (t | u) | ⟨id, p, left⟩
  · refine ⟨?_, rfl⟩
    intro g hg
    rcases List.mem_append.mp hg with hg | hg
    · obtain ⟨inner, hinner, rfl⟩ := List.mem_map.mp hg
      exact commits_perform htop inner hinner
    · exact hrest g hg
  · rcases u with ⟨id, p⟩ | ⟨t, decision⟩ | ⟨id, event⟩ | m
    · exact ⟨List.forall_mem_cons.mpr ⟨rfl, hrest⟩, rfl⟩
    · rcases decision with _ | _
      · contradiction
      · exact ⟨List.forall_mem_cons.mpr ⟨rfl, hrest⟩, rfl⟩
    · exact ⟨List.forall_mem_cons.mpr ⟨rfl, hrest⟩, rfl⟩
    · exact ⟨hrest, rfl⟩
  · rcases left with _ | ⟨r, left⟩
    · refine ⟨List.forall_mem_cons.mpr ⟨rfl, hrest⟩, ?_⟩
      show (KeyValue.prepare store id p).2.committed = store.committed
      unfold KeyValue.prepare
      split <;> rfl
    · exact ⟨List.forall_mem_cons.mpr ⟨rfl, List.forall_mem_cons.mpr ⟨rfl, hrest⟩⟩, rfl⟩

theorem Quiet.iterate (h : Quiet d) (n : Nat) :
    Quiet ((SerialEndpoint.move (keyValueSetting A clock))^[n] d) ∧
      ((SerialEndpoint.move (keyValueSetting A clock))^[n] d).store.committed = d.store.committed := by
  induction n with
  | zero => exact ⟨h, rfl⟩
  | succ n ih =>
    rw [Function.iterate_succ_apply']
    refine ⟨ih.1.move.1, ?_⟩
    rw [ih.1.move.2, ih.2]

/-- Where a message can be handed in, no commit is under way. -/
theorem Lockstep.quiet (h : Lockstep d) (hfree : isFree d.stack = true) : Quiet d :=
  fun f hf => commits_of_calm (calm_of_free hfree h.calm f hf)

theorem Quiet.lookup (h : Quiet d) (n : Nat) (name : String) :
    ((SerialEndpoint.move (keyValueSetting A clock))^[n] d).store.lookup name = d.store.lookup name := by
  unfold KeyValue.lookup
  rw [(h.iterate n).2]

theorem Quiet.cons (h : Quiet d) {f : Frame} (hf : f.commits = false) {d' : SerialEndpoint KeyValue κ}
    (hstack : d'.stack = f :: d.stack) : Quiet d' := by
  intro g hg
  rw [hstack] at hg
  rcases List.mem_cons.mp hg with rfl | hg
  · exact hf
  · exact h g hg

/-- A commit of an operation that is not held comes to nothing. -/
theorem Quiet.refused (h : Quiet d) (hheld : id ∉ d.endpoint.preparedIds) (n : Nat) (name : String) :
    ((SerialEndpoint.move (keyValueSetting A clock))^[n] (d.hand (.commit id))).store.lookup name =
      d.store.lookup name := by
  rcases n with _ | n
  · rfl
  have hrefusal : ((d.hand (.commit id)).move (keyValueSetting A clock)).stack =
      .endpoint (.todo (.raise (.reply (.failed id
        (.rejected ("no prepared operation " ++ id.text)))))) :: d.stack := by
    have hother : ∀ t, d.endpoint.transactions.get? id ≠ some (.prepared t) := by
      intro t ht
      apply hheld
      rw [Endpoint.mem_preparedIds_of_get? ht]
      rfl
    rw [move_cons rfl]
    simp only [step, hand, Endpoint.perform]
    unfold Endpoint.take
    split
    · rename_i t ht
      exact absurd ht (hother t)
    · rfl
  rw [Function.iterate_succ_apply, (h.cons rfl hrefusal).lookup]
  rfl

/-- A commit of an operation that is held changes the name that was staged, when the store is asked. -/
theorem Quiet.committed (h : Quiet d) {t : PreparedTransaction} {w : String × Value}
    (ht : d.endpoint.transactions.get? id = some (.prepared t)) (hid : t.id = id)
    (hw : d.store.staged.get? id = some w) (n : Nat) (name : String) :
    ((SerialEndpoint.move (keyValueSetting A clock))^[n] (d.hand (.commit id))).store.lookup name =
      if 3 ≤ n ∧ name = w.1 then some w.2 else d.store.lookup name := by
  have hfirst := move_decide (S := keyValueSetting A clock) ht .commit
  have hcarried := carried (S := keyValueSetting A clock) ht .commit
  rcases n with _ | _ | _ | n
  · rfl
  · exact congrArg (·.store.lookup name) hfirst
  · have hsecond : (SerialEndpoint.move (keyValueSetting A clock))^[2] (d.hand (.commit id)) = _ :=
      congrArg (SerialEndpoint.move (keyValueSetting A clock)) hfirst
    exact congrArg (·.store.lookup name) hsecond
  · -- from here on no commit is under way any more
    have hquiet : Quiet ((SerialEndpoint.move (keyValueSetting A clock))^[3] (d.hand (.commit id))) := by
      apply h.cons (f := .endpoint (.todo (.finalized t .commit _))) rfl
      exact congrArg SerialEndpoint.stack hcarried
    have hlookup := KeyValue.lookup_finalize hw .commit name
    rw [Function.iterate_add_apply _ n 3, hquiet.lookup]
    rw [show (SerialEndpoint.move (keyValueSetting A clock))^[3] (d.hand (.commit id)) = _ from hcarried]
    show ((keyValueSetting A clock).handler.finalize d.store t.id .commit).2.lookup name = _
    rw [hid, show (keyValueSetting A clock).handler = KeyValue.handler from rfl, hlookup]
    simp

/-- Of all messages only the commit of an operation that is held changes the value of a name, and only of
the one that was staged. -/
theorem Lockstep.settled (h : Lockstep d) (hkeyed : d.endpoint.Keyed) (hfree : isFree d.stack = true)
    (m : Outbound) (n : Nat) (name : String)
    (hchanged : ((SerialEndpoint.move (keyValueSetting A clock))^[n]
      (d.hand m)).store.lookup name ≠ d.store.lookup name) :
    ∃ id value, m = .commit id ∧ id ∈ d.endpoint.preparedIds ∧
      d.store.staged.get? id = some (name, value) ∧
      ((SerialEndpoint.move (keyValueSetting A clock))^[n] (d.hand m)).store.lookup name = some value := by
  have hquiet := h.quiet hfree
  have hkept (hm : (Frame.endpoint (.todo (.receive m))).commits = false) : False := by
    apply hchanged
    have hhand : Quiet (d.hand m) := hquiet.cons hm rfl
    rw [hhand.lookup]
    rfl
  -- an execute and a rollback commit nothing; a commit of an operation that is not held is refused
  rcases m with ⟨id, payload⟩ | id | id
  · exact (hkept rfl).elim
  · by_cases hheld : id ∈ d.endpoint.preparedIds
    · obtain ⟨t, ht⟩ := Endpoint.mem_preparedIds_iff_exists.mp hheld
      obtain ⟨w, hw⟩ := Option.isSome_iff_exists.mp ((h.staged id).mpr (Or.inl hheld))
      have hlookup :
          ((SerialEndpoint.move (keyValueSetting A clock))^[n] (d.hand (.commit id))).store.lookup name =
            if 3 ≤ n ∧ name = w.1 then some w.2 else d.store.lookup name :=
        hquiet.committed ht (hkeyed id _ ht) hw n name
      rw [hlookup] at hchanged
      split at hchanged
      · rename_i hname
        refine ⟨id, w.2, rfl, hheld, ?_, ?_⟩
        · rw [hname.2]
          exact hw
        · rw [hlookup, if_pos hname]
      · contradiction
    · exact absurd (hquiet.refused hheld n name) hchanged
  · exact (hkept rfl).elim

/-! ## What can be relied on -/

/-- What a participant with the store can be relied on for, between two messages and whenever else one can
be handed in. -/
structure Dependable (S : Setting KeyValue κ) (d : SerialEndpoint KeyValue κ) : Prop where
  /-- What is staged are the operations that are held. -/
  staged : isFree d.stack = true → d.store.staged.ids = d.endpoint.preparedIds
  /-- With each of them the name and the value of the request that was accepted last are staged. -/
  wanted : ∀ id w, d.store.staged.get? id = some w →
    ∃ p, lastAccepted id d.past = some p ∧ KeyValue.target p.request = .ok w
  /-- A decision of an operation that is held is completed. -/
  completed : isFree d.stack = true → ∀ id ∈ d.endpoint.preparedIds, ∀ decision,
    ∃ n, Completed d ((SerialEndpoint.move S)^[n] (d.hand (.decide id decision))) id decision
  /-- The store has carried out every decision that it was asked to. -/
  finalized : ∀ id decision result, .finalized id decision result ∈ d.past →
    ∃ value, result = .ok value
  /-- Nobody was told that nothing is staged. -/
  replied : ∀ id f, .replied (.failed id f) ∈ d.past → f.message ≠ "nothing staged"
  /-- No decision was recorded as failed. -/
  recorded : ∀ id decision f at_, (id, .finalizeFailed decision f at_) ∉ d.events
  /-- What is in hand is brought to its end without a change of names. -/
  still : isFree d.stack = true → ∃ n, ((SerialEndpoint.move S)^[n] d).stack = [] ∧
    ∀ k, ((SerialEndpoint.move S)^[k] d).store.committed = d.store.committed
  /-- What is handed in changes no name, unless it is the commit of an operation that is held: then the
  name that is staged comes to have the value that is staged with it. -/
  settled : isFree d.stack = true → ∀ m n name,
    ((SerialEndpoint.move S)^[n] (d.hand m)).store.lookup name ≠ d.store.lookup name →
    ∃ id value, m = .commit id ∧ id ∈ d.endpoint.preparedIds ∧
      d.store.staged.get? id = some (name, value) ∧
      ((SerialEndpoint.move S)^[n] (d.hand m)).store.lookup name = some value

/-- **The store never fails a decision that it owes**, whatever messages come, in whatever order, and
whatever becomes of what the journal is asked to record. -/
theorem dependable (A : Archive κ) (clock : Nat → UInt64) (plan : List Choice) :
    Dependable (keyValueSetting A clock) (run (keyValueSetting A clock) plan) := by
  have h := lockstep_run A clock plan
  have hkeyed := keyed_run (S := keyValueSetting A clock) plan
  generalize run (keyValueSetting A clock) plan = d at h hkeyed
  constructor
  · intro hfree
    have hstaging := staging_of_calm (calm_of_free hfree h.calm)
    apply Table.ids_ext (Table.ascending_ids _) (Endpoint.ascending_preparedIds _)
    intro id
    rw [Table.mem_ids, h.staged, hstaging]
    simp
  · exact h.wanted
  · intro _ id hheld decision
    exact ⟨10, h.completed hkeyed hheld decision⟩
  · intro id decision result hmem
    have hdutiful := h.past _ hmem
    rcases result with f | value
    · exact hdutiful.elim
    · exact ⟨value, rfl⟩
  · intro id f hmem
    exact h.past _ hmem
  · intro id decision f at_ hmem
    exact h.events _ hmem
  · intro hfree
    obtain ⟨n, hn⟩ := exists_rest (S := keyValueSetting A clock) d
    exact ⟨n, hn, fun k => ((h.quiet hfree).iterate k).2⟩
  · intro hfree m n name hchanged
    exact h.settled hkeyed hfree m n name hchanged

/-- A journal that takes nothing. -/
def full : Archive Unit := ⟨fun _ _ _ _ => (.error (.storage "disk full"), ()), ()⟩

/-- A write is submitted and committed, with time enough in between. -/
def committedWrite (name text : String) : List Choice :=
  let payload : Payload := ⟨KeyValue.write name (.string text), []⟩
  [.hand (.execute ⟨1⟩ ((payload.encode 1000).toOption.getD []))] ++ List.replicate 20 .go ++
    [.hand (.commit ⟨1⟩)] ++ List.replicate 10 .go

example :
    ((run (keyValueSetting full fun _ => 0) (committedWrite "x" "new")).store.lookup "x").map
      Value.text? = some (some "new") := by
  decide +kernel

end SerialEndpoint

end TwoPhase
