import TwoPhase.Proofs.Loopback.Labor
/-
What was submitted at a loopback.

The past tells which operation was given which identifier (`submissions`). What is told once stays so,
since an identifier is not given a second time; and what the client has pending under an identifier is
the operation that was submitted under it (`Open.listed`).
-/

set_option autoImplicit false

namespace TwoPhase

open Client (Task)

/-- The operations that were submitted, each with the identifier that it was given. -/
def submissions : List Mark → List (OperationId × Operation)
  | .moved (.enlist _ op _) _ :: .enlisted id :: rest => (id, op) :: submissions rest
  | _ :: rest => submissions rest
  | [] => []

/-- What happened later does not change what was submitted before. -/
theorem submissions_append {first second : List Mark}
    (h : ∀ id, second.head? ≠ some (.enlisted id)) :
    submissions (first ++ second) = submissions first ++ submissions second := by
  fun_induction submissions first with
  | case1 listener op payload shown id rest ih => simp [submissions, ih]
  | case2 mark rest hother ih =>
    rw [List.cons_append, submissions.eq_2, ih]
    -- an identifier that comes next would be the first mark of what is left, or of what follows
    intro listener op payload shown id more hmark hrest
    cases rest with
    | nil => exact h id (by rw [show second = _ from hrest]; rfl)
    | cons next rest =>
      obtain ⟨rfl, -⟩ := List.cons.inj hrest
      exact hother listener op payload shown id rest hmark rfl
  | case3 => rfl

/-- Only what was given an identifier was submitted. -/
theorem given_of_submitted {past : List Mark} {id : OperationId} {op : Operation}
    (h : (id, op) ∈ submissions past) : id ∈ past.flatMap Mark.given := by
  fun_induction submissions past with
  | case1 listener op payload shown i rest ih =>
    rcases List.mem_cons.mp h with heq | h
    · obtain ⟨rfl, -⟩ := Prod.mk.inj heq
      simp [Mark.given]
    · simp [Mark.given, ih h]
  | case2 mark rest hother ih =>
    rw [List.flatMap_cons]
    exact List.mem_append_right _ (ih h)
  | case3 => contradiction

/-- Where no identifier was given nothing was submitted. -/
theorem submissions_of_quiet {marks : List Mark} (h : ∀ mark ∈ marks, mark.given = []) :
    submissions marks = [] := by
  refine List.eq_nil_iff_forall_not_mem.mpr fun ⟨id, op⟩ hmem => ?_
  have hgiven := given_of_submitted hmem
  rw [List.flatMap_eq_nil_iff.mpr h] at hgiven
  contradiction

/-- A move submits what it enlists. -/
theorem submissions_marks (k : Client) (t : Task) :
    submissions (k.marks t) = match t with
      | .enlist _ op _ => if k.closed then [] else [(k.nextId, op)]
      | _ => [] := by
  cases t with
  | enlist listener op payload =>
    cases hclosed : k.closed <;> simp [Client.marks, Client.allots, hclosed, submissions]
  | _ => rfl

namespace Loopback

variable {σ : Type} {S : Setting σ} {c : Loopback σ}

/-- The operation that was submitted under an identifier. -/
def operation? (c : Loopback σ) (id : OperationId) : Option Operation := (submissions c.past).lookup id

/-- What was submitted stays submitted. -/
theorem operation_grows {c' : Loopback σ} {marks : List Mark} (hpast : c'.past = c.past ++ marks)
    (hmarks : ∀ id, marks.head? ≠ some (.enlisted id)) {id : OperationId} {op : Operation}
    (h : c.operation? id = some op) : c'.operation? id = some op := by
  rw [operation?, hpast, submissions_append hmarks, List.lookup_append]
  exact Option.or_eq_some_iff.mpr (Or.inl h)

/-- What was not given an identifier was not submitted. -/
theorem operation_of_not_given {id : OperationId} (h : id ∉ c.clientThreads.given) :
    c.operation? id = none := by
  rw [operation?, List.lookup_eq_none_iff]
  rintro ⟨i, op⟩ hmem
  refine bne_iff_ne.mpr ?_
  rintro rfl
  exact h (given_of_submitted hmem)

/-- What a move adds to the past does not begin with an identifier that was given. -/
theorem past_grows (c : Loopback σ) : ∃ marks, (c.move S).past = c.past ++ marks ∧
    ∀ id, marks.head? ≠ some (.enlisted id) := by
  rcases client_move (S := S) c with ⟨t, rest, -, -, hpast⟩ | ⟨-, hpast | ⟨u, a, hpast⟩⟩
  · exact ⟨_, hpast, fun id h => by cases h⟩
  · exact ⟨[], by rw [hpast, List.append_nil], fun id h => by cases h⟩
  · exact ⟨_, hpast, fun id h => by cases h⟩

end Loopback

/-- An entry has the operation that it had before, or the one that was just enlisted. -/
theorem Touch.operation {id : OperationId} {v v' : View} {t : Task} {y : Yield}
    (touch : Touch id v t v' y) {entry : Pending} (h : v'.entry = some entry) :
    (∃ before, v.entry = some before ∧ before.operation = entry.operation) ∨
      (y.enlisted = true ∧ ∃ listener payload, t = .enlist listener entry.operation payload) := by
  cases touch with
  | enlisted listener op payload =>
    obtain rfl := Option.some.inj h
    exact Or.inr ⟨rfl, listener, payload, rfl⟩
  | claimed hentry | accepted hentry =>
    obtain rfl := Option.some.inj h
    exact Or.inl ⟨_, hentry, rfl⟩
  | withdrawn | finished | swept => cases h
  | _ => exact Or.inl ⟨entry, h, rfl⟩

namespace Loopback

variable {σ : Type} {S : Setting σ} {c : Loopback σ}

/-- **What is pending is what was submitted.** -/
theorem Open.listed (h : Open S c) (hgiven : c.clientThreads.given.length < 2 ^ 64) :
    ∀ id entry, c.client.pending.get? id = some entry →
      c.operation? id = some entry.operation := by
  induction h with
  | fresh => exact fun _ _ h => by cases h
  | taken h hidle ha ih => exact ih hgiven
  | @moved c h ih =>
    have hbefore := Nat.lt_of_le_of_lt (h.visited.given_le (S := S)) hgiven
    obtain ⟨hnext, hunused⟩ := h.visited.unused hbefore
    obtain ⟨marks, hgrown, hmarks⟩ := past_grows (S := S) c
    intro id entry hentry
    rcases client_move (S := S) c with ⟨t, rest, hstack, hclient, hpast⟩ | ⟨hclient, -⟩
    · rw [hclient] at hentry
      rcases (c.client.perform_touch id t).operation hentry with
        ⟨before, hbefore', hsame⟩ | ⟨henlisted, listener, payload, rfl⟩
      · rw [← hsame]
        exact operation_grows hgrown hmarks (ih hbefore id before hbefore')
      · -- the identifier is new, so nothing was submitted under it before
        have hallots : c.client.allots (.enlist listener entry.operation payload) = some id :=
          beq_iff_eq.mp henlisted
        obtain ⟨hclosed, rfl⟩ : c.client.closed = false ∧ c.client.nextId = id := by
          simpa [Client.allots] using hallots
        have hnone := operation_of_not_given hnext
        rw [operation?] at hnone
        rw [operation?, hpast, submissions_append (fun _ h => by cases h), List.lookup_append, hnone,
          submissions_marks]
        simp [hclosed]
    · rw [hclient] at hentry
      exact operation_grows hgrown hmarks (ih hbefore id entry hentry)

end Loopback

end TwoPhase
