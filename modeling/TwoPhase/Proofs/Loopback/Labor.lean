import TwoPhase.Proofs.Loopback.Modes
import TwoPhase.Proofs.Loopback.Weights
import TwoPhase.Proofs.ClientThreads.Laws
/-
Every action at a loopback comes to an end.

How much the handler reports while it prepares is up to the handler, so no number that is known before
can bound the moves. But the handler prepares once: entering the far end costs weight, which never comes
back, and all other moves lower the labor, as at a recording client (`exists_idle`). So a loopback can be
let come to its end after every action, and what holds of it then is known from how it was used
(`open_run`, `silent_run`).
-/

set_option autoImplicit false

namespace TwoPhase

open Client (Task)

/-! ## What there is to do -/

namespace Endpoint

/-- The labor of a call out. A handler that is asked to prepare costs weight instead. -/
def Upcall.labor : Upcall → Nat
  | .prepare .. => 1
  | .finalize .. => 29
  | .record .. => 2
  | .reply _ => 22

/-- The labor of a task. -/
def Task.labor : Task → Nat
  | .receive _ => 35
  | .decode .. => 31
  | .prepared .. | .finalized .. => 28
  | .recorded .. | .note _ => 1
  | .raise u => u.labor + 1

/-- The labor of a frame. -/
def Frame.labor : Frame → Nat
  | .todo t => t.labor
  | .inside u => u.labor

/-- The labor of some frames. -/
def laborOf (frames : List Frame) : Nat := (frames.map Frame.labor).sum

attribute [local simp] laborOf Frame.labor Task.labor Upcall.labor perform

/-- A decision that arrives costs less than was reckoned with for a message. -/
theorem labor_take (e : Endpoint) (i : OperationId) (d : Decision) :
    laborOf (e.take i d).frames < 35 := by
  rcases hheld : e.transactions.get? i with _ | _ | t <;> simp [take, hheld]

/-- A move leaves less labor than it found. -/
theorem labor_perform (e : Endpoint) (now : UInt64) (t : Task) :
    laborOf (e.perform now t).frames < t.labor := by
  cases t with
  | receive m =>
    cases m with
    | execute i payload =>
      by_cases hknown : e.transactions.contains i = true <;> simp [enter, hknown]
    | commit i => exact e.labor_take i .commit
    | rollback i => exact e.labor_take i .rollback
  | decode i payload => cases hdecode : Payload.decode payload <;> simp [decode, hdecode]
  | prepared i result => cases result <;> simp [prepared]
  | finalized t d result => cases result <;> simp [finalized]
  | recorded i result => cases result <;> simp
  | note n => simp
  | raise u => simp

end Endpoint

namespace Loopback

variable {σ : Type} {S : Setting σ} {c : Loopback σ}

/-- The labor of a frame. -/
def Frame.labor : Frame → Nat
  | .client f => f.labor
  | .endpoint f => f.labor
  | .conclude .. => 29
  | .returning m => (Client.Upcall.send m).labor

/-- Weights that fall wherever the far end is entered. -/
def rank : Weight := ⟨5, 4, 3, 1, by decide, by decide, by decide⟩

/-- The ranks fall along the chain, so what is entered weighs less than what was handed over. -/
theorem rank_falls : rank.preparing < rank.submitting ∧ rank.deciding < rank.preparing ∧
    rank.granting + rank.granting < rank.deciding := by decide

/-- Whether a move enters the far end: the message is handed over, or the handler is called. -/
def Enters (c : Loopback σ) : Prop :=
  ∃ rest, (c.isOpen = true ∧ ∃ m, c.stack = .client (.inside (.send m)) :: rest) ∨
    ∃ id p, c.stack = .endpoint (.inside (.prepare id p)) :: rest

/-- Wherever the far end is entered, weight is lost. -/
theorem weight_entered (h : Enters c) : (c.move S).weight rank < c.weight rank := by
  obtain ⟨hsubmitting, hpreparing, hdeciding⟩ := rank_falls
  obtain ⟨rest, ⟨hopen, m, hstack⟩ | ⟨id, p, hstack⟩⟩ := h
  · rw [weight_handed rank hstack hopen, weight, hstack]
    cases m <;> simp [handed, Weight.frame, Weight.endpoint, Weight.client] <;> omega
  · rw [weight_prepare rank hstack, weight, hstack]
    simp [Weight.frame, Weight.endpoint]
    omega

/-- The labor of a stack. -/
def laborOf (stack : List Frame) : Nat := (stack.map Frame.labor).sum

theorem laborOf_cons (f : Frame) (rest : List Frame) :
    laborOf (f :: rest) = f.labor + laborOf rest := List.sum_cons

theorem laborOf_client (frames : List Client.Frame) (rest : List Frame) :
    laborOf (frames.map .client ++ rest) = Client.laborOf frames + laborOf rest := by
  rw [laborOf, List.map_append, List.sum_append, List.map_map]
  rfl

theorem laborOf_endpoint (frames : List Endpoint.Frame) (rest : List Frame) :
    laborOf (frames.map .endpoint ++ rest) = Endpoint.laborOf frames + laborOf rest := by
  rw [laborOf, List.map_append, List.sum_append, List.map_map]
  rfl

/-- The labor at a loopback. -/
def labor (c : Loopback σ) : Nat := c.client.labor + laborOf c.stack

/-- A listener that is called, and decides, does no more than was reckoned with. -/
theorem labor_wishes (k : Client) (t : Task) :
    (k.perform t).client.labor +
      Client.laborOf (RecordingClient.wishes S.habit k t ++ (k.perform t).frames) < k.labor + t.labor := by
  have hperform := k.labor_perform t
  cases hwish : RecordingClient.wish? S.habit k t with
  | none =>
    simp only [RecordingClient.wishes, hwish, Option.map_none, Option.toList_none, List.nil_append]
    exact hperform
  | some wish =>
    obtain ⟨result, rfl⟩ := RecordingClient.wish_eq_some hwish
    simp [RecordingClient.wishes, hwish, Client.perform, Client.Frame.labor, Client.Task.labor,
      Client.Upcall.labor, Client.Upcall.wish]

/-- Going on after a call out costs less than the call. -/
theorem labor_answer (c : Loopback σ) (u : Client.Upcall) (a : Client.Answer) (rest : List Frame) :
    (c.answer u a rest).labor < c.client.labor + (u.labor + laborOf rest) := by
  have hresume := Client.labor_resume (u.resumes a)
  simp only [answer, labor, laborOf_client]
  omega

/-- **Every other move lowers the labor.** -/
theorem labor_move (hstack : c.stack ≠ []) (h : ¬ Enters c) : (c.move S).labor < c.labor := by
  rcases hstack' : c.stack with _ | ⟨f, rest⟩
  · exact absurd hstack' hstack
  have hlabor : c.labor = c.client.labor + (f.labor + laborOf rest) := by
    rw [labor, hstack', laborOf_cons]
  rw [move_cons hstack', hlabor]
  -- every frame is replaced by frames that weigh less together; what enters the far end is left out
  cases f with
  | client f =>
    cases f with
    | todo t =>
      have hwishes := labor_wishes (S := S) c.client t
      simp only [step, labor, laborOf_client, Frame.labor, Client.Frame.labor]
      omega
    | inside u =>
      have hclosed : ∀ m, u = .send m → c.isOpen = false := by
        rintro m rfl
        exact Bool.eq_false_iff.mpr fun hopen => h ⟨rest, Or.inl ⟨hopen, m, hstack'⟩⟩
      obtain ⟨a, hanswer⟩ := call_answered (c := { c with age := c.age + 1 }) hclosed rest
      rw [step, hanswer]
      exact labor_answer { c with age := c.age + 1 } u a rest
  | returning m => exact labor_answer { c with age := c.age + 1 } _ _ rest
  | conclude id p =>
    simp only [step, labor, laborOf_cons, Frame.labor, Endpoint.Frame.labor, Endpoint.Task.labor]
    omega
  | endpoint f =>
    cases f with
    | todo t =>
      have hperform := c.endpoint.labor_perform (S.clock (c.age + 1)) t
      simp only [step, labor, laborOf_endpoint, Frame.labor, Endpoint.Frame.labor]
      omega
    | inside u =>
      cases u with
      | prepare id p => exact absurd ⟨rest, Or.inr ⟨id, p, hstack'⟩⟩ h
      | _ =>
        simp only [step, serve, labor, laborOf_cons, Frame.labor, Endpoint.Frame.labor,
          Endpoint.Task.labor, Endpoint.Upcall.labor, Client.Frame.labor, Client.Task.labor]
        omega

/-- **A loopback that is left to itself comes to stand still.** -/
theorem exists_idle (S : Setting σ) (c : Loopback σ) : ∃ n, ((move S)^[n] c).stack = [] := by
  by_cases hstack : c.stack = []
  · exact ⟨0, hstack⟩
  · obtain ⟨n, hn⟩ := exists_idle S (c.move S)
    exact ⟨n + 1, by rwa [Function.iterate_succ_apply]⟩
termination_by (c.weight rank, c.labor)
decreasing_by
  -- entering the far end lowers the weight; any other move may keep it, and then lowers the labor
  rcases Nat.lt_or_ge ((c.move S).weight rank) (c.weight rank) with hless | hge
  · exact Prod.Lex.left _ _ hless
  · have hsame := Nat.le_antisymm (weight_move (S := S) rank c) hge
    rw [hsame]
    refine Prod.Lex.right _ (labor_move hstack fun h => ?_)
    have hless := weight_entered (S := S) h
    omega

/-! ## Runs -/

theorem iterate_move_nil (h : c.stack = []) (n : Nat) : (move S)^[n] c = c :=
  Function.iterate_fixed (move_nil h) n

/-- The loopback after it was left to itself. -/
def settle (S : Setting σ) (c : Loopback σ) : Loopback σ := (move S)^[Nat.find (exists_idle S c)] c

/-- Afterwards nothing is left to do. -/
theorem settle_idle (S : Setting σ) (c : Loopback σ) : (c.settle S).stack = [] :=
  Nat.find_spec (exists_idle S c)

/-- It does not matter for how long a loopback is left to itself, once it stands still. -/
theorem settle_eq {n : Nat} (h : ((move S)^[n] c).stack = []) : c.settle S = (move S)^[n] c := by
  obtain ⟨k, rfl⟩ := Nat.exists_eq_add_of_le (Nat.find_min' (exists_idle S c) h)
  rw [Nat.add_comm, Function.iterate_add_apply]
  exact (iterate_move_nil (settle_idle S c) k).symm

/-- What every move keeps holds of a loopback that was left to itself. -/
theorem settle_induction {P : Loopback σ → Prop} (hmove : ∀ c, P c → P (c.move S)) (h : P c) :
    P (c.settle S) := by
  rw [settle]
  generalize Nat.find (exists_idle S c) = n
  induction n with
  | zero => exact h
  | succ n ih =>
    rw [Function.iterate_succ_apply']
    exact hmove _ ih

/-- The loopback after some actions, each of which is let come to its end. -/
def run (S : Setting σ) (actions : List Action) : Loopback σ :=
  actions.foldl (fun c a => (c.take a).settle S) (fresh S)

theorem run_append (first rest : List Action) :
    run S (first ++ rest) = rest.foldl (fun c a => (c.take a).settle S) (run S first) := by
  rw [run, run, List.foldl_append]

theorem run_concat (actions : List Action) (a : Action) :
    run S (actions ++ [a]) = ((run S actions).take a).settle S := by
  rw [run_append]
  rfl

/-- Between two actions nothing is left to do. -/
theorem run_idle (actions : List Action) : (run S actions).stack = [] := by
  induction actions using List.reverseRecOn with
  | nil => rfl
  | append_singleton actions a ih =>
    rw [run_concat]
    exact settle_idle S _

/-- What a run comes to can be seen. -/
theorem visited_run (actions : List Action) : Visited S (run S actions) := by
  induction actions using List.reverseRecOn with
  | nil => exact .fresh
  | append_singleton actions a ih =>
    rw [run_concat]
    exact settle_induction (fun _ => .moved) (ih.taken (run_idle actions) a)

/-- The loopback after some actions, each of which is given a number of moves. -/
def rehearse (S : Setting σ) (n : Nat) (actions : List Action) : Loopback σ :=
  actions.foldl (fun c a => (move S)^[n] (c.take a)) (fresh S)

/-- If that was enough of them, the actions have come to their ends. -/
theorem run_eq_rehearse {n : Nat} {actions : List Action}
    (h : ∀ k ≤ actions.length, (rehearse S n (actions.take k)).stack = []) :
    run S actions = rehearse S n actions := by
  induction actions using List.reverseRecOn with
  | nil => rfl
  | append_singleton actions a ih =>
    have hbefore : run S actions = rehearse S n actions := by
      refine ih fun k hk => ?_
      have hprefix := h k (by rw [List.length_append]; omega)
      rwa [List.take_append_of_le_length hk] at hprefix
    have hlast := h _ (Nat.le_refl _)
    rw [List.take_length, rehearse, List.foldl_append] at hlast
    rw [run_concat, hbefore, rehearse, rehearse, List.foldl_append]
    exact settle_eq hlast

/-! ### While nobody closes anything -/

/-- The loopbacks that somebody may come to see who closes neither the channel nor the client. -/
inductive Open (S : Setting σ) : Loopback σ → Prop
  | fresh : Open S (fresh S)
  | taken {c : Loopback σ} (h : Open S c) (hidle : c.stack = []) {a : Action}
      (ha : a.closes = false) : Open S (c.take a)
  | moved {c : Loopback σ} (h : Open S c) : Open S (c.move S)

theorem Open.visited (h : Open S c) : Visited S c := by
  induction h with
  | fresh => exact .fresh
  | taken h hidle ha ih => exact ih.taken hidle _
  | moved h ih => exact ih.moved

/-- While nobody closes anything, a run comes to loopbacks that are open. -/
theorem open_run {actions : List Action} (h : ∀ a ∈ actions, a.closes = false) :
    Open S (run S actions) := by
  induction actions using List.reverseRecOn with
  | nil => exact .fresh
  | append_singleton actions a ih =>
    rw [run_concat]
    refine settle_induction (fun _ => .moved) (.taken (ih fun b hb => ?_) (run_idle actions) ?_)
    · exact h b (List.mem_append_left _ hb)
    · exact h a (List.mem_append_right _ List.mem_cons_self)

/-- Identifiers are not taken back. -/
theorem Visited.given_le (h : Visited S c) :
    c.clientThreads.given.length ≤ (c.move S).clientThreads.given.length := by
  obtain ⟨choices, hchoices⟩ := clientThreads_move (S := S) h.grounded
  obtain ⟨schedule, hschedule⟩ := reachable_clientThreads h
  rw [hchoices, hschedule, ← ClientThreads.run_append]
  exact ClientThreads.given_le_run S.config schedule choices

theorem Visited.iterated (h : Visited S c) (n : Nat) : Visited S ((move S)^[n] c) :=
  Function.Iterate.rec (Visited S) h (fun _ => .moved) n

/-- No move takes an identifier back. -/
theorem Visited.given_le_iterate (h : Visited S c) (n : Nat) :
    c.clientThreads.given.length ≤ ((move S)^[n] c).clientThreads.given.length := by
  induction n with
  | zero => exact Nat.le_refl _
  | succ n ih =>
    rw [Function.iterate_succ_apply']
    exact ih.trans (h.iterated n).given_le

theorem given_le_run (actions more : List Action) :
    (run S actions).clientThreads.given.length ≤ (run S (actions ++ more)).clientThreads.given.length := by
  induction more using List.reverseRecOn with
  | nil => rw [List.append_nil]
  | append_singleton more a ih =>
    rw [← List.append_assoc, run_concat]
    exact ih.trans (((visited_run _).taken (run_idle _) a).given_le_iterate _)

/-- Until they wrap, the next identifier was not given before, and is not in use. -/
theorem Visited.unused (h : Visited S c) (hgiven : c.clientThreads.given.length < 2 ^ 64) :
    c.client.nextId ∉ c.clientThreads.given ∧ c.client.pending.get? c.client.nextId = none := by
  obtain ⟨schedule, hschedule⟩ := reachable_clientThreads h
  rw [hschedule] at hgiven
  have hnext := ClientThreads.next_not_given S.config schedule hgiven
  have hunused := ClientThreads.unused_run S.config schedule hgiven
  rw [← hschedule] at hnext hunused
  exact ⟨hnext, hunused⟩

theorem engaged_fresh : Engaged (fresh S) := ⟨rfl, rfl, fun _ => .absent, nofun⟩

/-- **While nobody closes anything, every operation is where it should be.** -/
theorem Open.engaged (h : Open S c) (hgiven : c.clientThreads.given.length < 2 ^ 64) : Engaged c := by
  induction h with
  | fresh => exact engaged_fresh
  | taken h hidle ha ih => exact (ih hgiven).taken hidle ha
  | moved h ih =>
    have hbefore := Nat.lt_of_le_of_lt h.visited.given_le hgiven
    -- while identifiers last the next one is not in use
    exact (ih hbefore).moved (h.visited.unused hbefore).2

/-! ### Once somebody has closed something -/

/-- A loopback that is silent stays so when it is left to itself, and stands where it stood. -/
theorem Silent.settled (h : Silent c) : Silent (c.settle S) ∧ Still c (c.settle S) :=
  settle_induction (P := fun c' => Silent c' ∧ Still c c')
    (fun _ h' => ⟨h'.1.moved.1, h'.2.trans h'.1.moved.2⟩) ⟨h, .refl c⟩

/-- So it does whatever is done at it. -/
theorem Silent.run {actions : List Action} (h : Silent (run S actions)) (more : List Action) :
    Silent (Loopback.run S (actions ++ more)) ∧
      Still (Loopback.run S actions) (Loopback.run S (actions ++ more)) := by
  induction more using List.reverseRecOn with
  | nil =>
    rw [List.append_nil]
    exact ⟨h, .refl _⟩
  | append_singleton more a ih =>
    rw [← List.append_assoc, run_concat]
    obtain ⟨hsilent, hstill⟩ := (ih.1.taken (run_idle _) a).settled (S := S)
    exact ⟨hsilent, ih.2.trans ((Still.taken _ a).trans hstill)⟩

/-- **A loopback is open, or it is silent** and stands where it stood before the first close. -/
theorem Visited.open_or_still (h : Visited S c) :
    Open S c ∨ ∃ before, Open S before ∧ before.stack = [] ∧ Silent c ∧ Still before c := by
  induction h with
  | fresh => exact Or.inl .fresh
  | @taken c h hidle a ih =>
    rcases ih with hopen | ⟨before, hbefore, hstood, hsilent, hstill⟩
    · cases ha : a.closes with
      | false => exact Or.inl (hopen.taken hidle ha)
      | true => exact Or.inr ⟨c, hopen, hidle, silent_of_closes hidle ha, .taken c a⟩
    · exact Or.inr ⟨before, hbefore, hstood, hsilent.taken hidle a, hstill.trans (.taken c a)⟩
  | moved h ih =>
    rcases ih with hopen | ⟨before, hbefore, hstood, hsilent, hstill⟩
    · exact Or.inl hopen.moved
    · exact Or.inr ⟨before, hbefore, hstood, hsilent.moved.1, hstill.trans hsilent.moved.2⟩

/-- A loopback that stands still is open as long as its client is. -/
theorem Visited.open_of_unclosed (h : Visited S c) (hidle : c.stack = [])
    (hclosed : c.client.closed = false) : Open S c := by
  refine h.open_or_still.resolve_right fun ⟨_, _, _, hsilent, _⟩ => ?_
  rcases hsilent.swept with hswept | ⟨t, -, hstack⟩
  · cases hclosed.symm.trans hswept.closed
  · cases hidle.symm.trans hstack

/-- **Once somebody closed something a loopback is silent**, whatever is done afterwards. -/
theorem silent_run {actions : List Action} (h : ∃ a ∈ actions, a.closes = true) :
    Silent (run S actions) := by
  induction actions using List.reverseRecOn with
  | nil => simp at h
  | append_singleton actions a ih =>
    by_cases hbefore : ∃ a ∈ actions, a.closes = true
    · exact ((ih hbefore).run [a]).1
    · have ha : a.closes = true := by
        obtain ⟨b, hb, hcloses⟩ := h
        rcases List.mem_append.mp hb with hb | hb
        · exact absurd ⟨b, hb, hcloses⟩ hbefore
        · rwa [List.mem_singleton.mp hb] at hcloses
      rw [run_concat]
      exact (silent_of_closes (run_idle actions) ha).settled.1

end Loopback

end TwoPhase
