import Mathlib.Data.Nat.Nth
import TwoPhase.Proofs.EndpointThreads.Basic
/-
The chronicle of one operation: which incidents may follow which, across all threads, and what that
means for the calls of the handler.

An operation is entered, prepared, held and taken by a decision, over and over. The call that carries a
decision out comes some time after the decision took its entry, and by then the operation may have been
entered again; so the decisions that are still owed to the handler are counted beside the stage. All
that is said about the handler's calls (`Chronicle.ended`, `Chronicle.paired`) is
said about chronicles, and does not look at tables or stacks.
-/

set_option autoImplicit false

namespace TwoPhase

/-- How far the present submission of an operation has come. -/
inductive Stage where
  /-- There is none. -/
  | idle
  /-- A thread entered it, at a time, and goes on with it. -/
  | entered (thread : Nat) (now : UInt64)
  /-- The thread that entered it called the handler to prepare. -/
  | preparing (thread : Nat) (now : UInt64)
  /-- The handler returned to that thread, and the change is prepared. -/
  | succeeded (thread : Nat) (now : UInt64)
  /-- The handler returned to that thread, and refused. -/
  | refused (thread : Nat) (now : UInt64)
  /-- The change is held for a decision. -/
  | held

/-- The thread that goes on with the present submission, and when it entered it. -/
def Stage.owner : Stage → Option (Nat × UInt64)
  | .entered n now | .preparing n now | .succeeded n now | .refused n now => some (n, now)
  | .idle | .held => none

/-- Where an operation stands: its stage, and for how many decisions that were taken the handler is yet
to be called. -/
structure Account where
  stage : Stage
  owed : Nat

/-- How many changes came to be held and were not handed to the handler to be decided yet. -/
def Account.due : Account → Nat
  | ⟨.held, owed⟩ => owed + 1
  | ⟨_, owed⟩ => owed

/-- What an incident on the thread `n` means to the operation `id`. -/
inductive Advance (id : OperationId) (n : Nat) : Account → Incident → Account → Prop
  | other {st : Account} {x : Incident} (hx : x.id ≠ id) : Advance id n st x st
  | entered {now : UInt64} {owed : Nat} :
      Advance id n ⟨.idle, owed⟩ (.entered id now) ⟨.entered n now, owed⟩
  | preparing {now : UInt64} {owed : Nat} {payload : Payload} :
      Advance id n ⟨.entered n now, owed⟩ (.preparing id payload) ⟨.preparing n now, owed⟩
  | succeeded {now : UInt64} {owed : Nat} {result : Value} :
      Advance id n ⟨.preparing n now, owed⟩ (.answered id (.ok result)) ⟨.succeeded n now, owed⟩
  | refused {now : UInt64} {owed : Nat} {f : Failure} :
      Advance id n ⟨.preparing n now, owed⟩ (.answered id (.error f)) ⟨.refused n now, owed⟩
  | published {now : UInt64} {owed : Nat} :
      Advance id n ⟨.succeeded n now, owed⟩ (.published id) ⟨.held, owed⟩
  | malformed {now : UInt64} {owed : Nat} :
      Advance id n ⟨.entered n now, owed⟩ (.dismissed id) ⟨.idle, owed⟩
  | dismissed {now : UInt64} {owed : Nat} :
      Advance id n ⟨.refused n now, owed⟩ (.dismissed id) ⟨.idle, owed⟩
  | taken {owed : Nat} : Advance id n ⟨.held, owed⟩ (.taken id) ⟨.idle, owed + 1⟩
  | deciding {stage : Stage} {owed : Nat} {d : Decision} :
      Advance id n ⟨stage, owed + 1⟩ (.deciding id d) ⟨stage, owed⟩

/-- The pasts in which every incident of an operation follows from what went before. -/
inductive Chronicle (id : OperationId) : List (Nat × Incident) → Account → Prop
  | nil : Chronicle id [] ⟨.idle, 0⟩
  | snoc {past : List (Nat × Incident)} {n : Nat} {x : Incident} {st st' : Account}
      (h : Chronicle id past st) (turn : Advance id n st x st') : Chronicle id (past ++ [(n, x)]) st'

namespace Chronicle

variable {id : OperationId} {past : List (Nat × Incident)} {st : Account}

/-! ## Looking into a chronicle -/

/-- Before anything happened, nothing stands. -/
theorem of_nil (h : Chronicle id [] st) : st = ⟨.idle, 0⟩ := by
  generalize hpast : ([] : List (Nat × Incident)) = past at h
  cases h with
  | nil => rfl
  | snoc => exact absurd hpast (by simp)

/-- The last incident was a turn of the standing before it. -/
theorem of_snoc {n : Nat} {x : Incident} (h : Chronicle id (past ++ [(n, x)]) st) :
    ∃ before, Chronicle id past before ∧ Advance id n before x st := by
  generalize hall : past ++ [(n, x)] = all at h
  cases h with
  | nil => exact absurd hall (by simp)
  | snoc h turn =>
    obtain ⟨rfl, hlast⟩ := List.append_inj' hall rfl
    obtain ⟨rfl, rfl⟩ := Prod.mk.injEq .. ▸ List.singleton_inj.mp hlast
    exact ⟨_, h, turn⟩

/-- What happened up to some moment is a chronicle as well. -/
theorem take (h : Chronicle id past st) (i : Nat) : ∃ st, Chronicle id (past.take i) st := by
  induction h with
  | nil => exact ⟨_, by rw [List.take_nil]; exact .nil⟩
  | @snoc past n x st st' h turn ih =>
    by_cases hi : i ≤ past.length
    · rw [List.take_append_of_le_length hi]
      exact ih
    · rw [List.take_of_length_le (by rw [List.length_append, List.length_singleton]; omega)]
      exact ⟨st', h.snoc turn⟩

/-- The incidents up to one, and that one. -/
theorem take_succ {i n : Nat} {x : Incident} (hi : past[i]? = some (n, x)) :
    past.take (i + 1) = past.take i ++ [(n, x)] := by
  rw [List.take_add_one, hi, Option.toList_some]

/-- Every incident was a turn of the standing before it. -/
theorem turn_at (h : Chronicle id past st) {i n : Nat} {x : Incident} (hi : past[i]? = some (n, x)) :
    ∃ before after, Chronicle id (past.take i) before ∧ Advance id n before x after := by
  obtain ⟨after, hafter⟩ := h.take (i + 1)
  rw [take_succ hi] at hafter
  obtain ⟨before, hbefore, turn⟩ := hafter.of_snoc
  exact ⟨before, after, hbefore, turn⟩

/-! ## What is last -/

/-- After the incident number `i` there are only quiet ones. -/
def Since (past : List (Nat × Incident)) (i : Nat) (quiet : Incident → Prop) : Prop :=
  ∀ j n x, i < j → past[j]? = some (n, x) → quiet x

theorem since_last (past : List (Nat × Incident)) (y : Nat × Incident) (quiet : Incident → Prop) :
    Since (past ++ [y]) past.length quiet := by
  intro j n x hj hx
  obtain ⟨hlt, -⟩ := List.getElem?_eq_some_iff.mp hx
  rw [List.length_append, List.length_singleton] at hlt
  omega

theorem Since.snoc {i n : Nat} {x : Incident} {quiet : Incident → Prop} (h : Since past i quiet)
    (hx : quiet x) : Since (past ++ [(n, x)]) i quiet := by
  intro j m y hj hy
  rcases getElem?_snoc hy with hy | ⟨-, heq⟩
  · exact h j m y hj hy
  · obtain ⟨-, rfl⟩ := Prod.mk.injEq .. ▸ heq
    exact hx

/-- The last entry of an operation was made by a thread, at a time. -/
def LastEntered (id : OperationId) (past : List (Nat × Incident)) (n : Nat) (now : UInt64) : Prop :=
  ∃ i, past[i]? = some (n, .entered id now) ∧ Since past i fun x => ∀ later, x ≠ .entered id later

/-- The last thing that happened to an operation was that the handler prepared it, on a thread; but
decisions from before may have been carried out since. -/
def LastSucceeded (id : OperationId) (past : List (Nat × Incident)) (n : Nat) : Prop :=
  ∃ i result, past[i]? = some (n, .answered id (.ok result)) ∧
    Since past i fun x => x.id = id → ∃ d, x = .deciding id d

theorem LastEntered.snoc {n m : Nat} {now : UInt64} {x : Incident}
    (h : LastEntered id past n now) (hx : ∀ later, x ≠ .entered id later) :
    LastEntered id (past ++ [(m, x)]) n now := by
  obtain ⟨i, hi, hsince⟩ := h
  exact ⟨i, getElem?_snoc_of hi _, hsince.snoc hx⟩

theorem LastSucceeded.snoc {n m : Nat} {x : Incident} (h : LastSucceeded id past n)
    (hx : x.id = id → ∃ d, x = .deciding id d) : LastSucceeded id (past ++ [(m, x)]) n := by
  obtain ⟨i, result, hi, hsince⟩ := h
  exact ⟨i, result, getElem?_snoc_of hi _, hsince.snoc hx⟩

/-- Whoever goes on with a submission made the last entry of its operation. -/
theorem lastEntered (h : Chronicle id past st) {n : Nat} {now : UInt64}
    (howner : st.stage.owner = some (n, now)) : LastEntered id past n now := by
  induction h with
  | nil => contradiction
  | @snoc past m x st st' h turn ih =>
    cases turn with
    | entered =>
      obtain ⟨rfl, rfl⟩ := Prod.mk.injEq .. ▸ Option.some.inj howner
      exact ⟨past.length, List.getElem?_concat_length, since_last past _ _⟩
    | other hx =>
      refine (ih howner).snoc ?_
      rintro later rfl
      exact hx rfl
    | published => contradiction
    | malformed => contradiction
    | dismissed => contradiction
    | taken => contradiction
    | _ => exact (ih howner).snoc (by simp)

/-- A change that is about to be held was prepared last. -/
theorem lastSucceeded (h : Chronicle id past st) {n : Nat} {now : UInt64}
    (hstage : st.stage = .succeeded n now) : LastSucceeded id past n := by
  induction h with
  | nil => contradiction
  | @snoc past m x st st' h turn ih =>
    cases turn with
    | @succeeded now' owed result =>
      obtain ⟨rfl, rfl⟩ := Stage.succeeded.injEq .. ▸ hstage
      exact ⟨past.length, result, List.getElem?_concat_length, since_last past _ _⟩
    | other hx => exact (ih hstage).snoc fun hid => absurd hid hx
    | @deciding stage owed d => exact (ih hstage).snoc fun _ => ⟨d, rfl⟩
    | _ => contradiction

/-! ## One preparation after the other -/

/-- What ends the preparation that a thread began: the handler refused it, or a decision took what was
held of it. -/
inductive Ends (id : OperationId) (n : Nat) : Nat × Incident → Prop
  | refused (f : Failure) : Ends id n (n, .answered id (.error f))
  | taken (m : Nat) : Ends id n (m, .taken id)

/-- A preparation that a thread began and that did not end yet. -/
inductive Pending (n : Nat) : Stage → Prop
  | preparing (now : UInt64) : Pending n (.preparing n now)
  | succeeded (now : UInt64) : Pending n (.succeeded n now)
  | held : Pending n .held

theorem Pending.turn {n m : Nat} {x : Incident} {st' : Account} (h : Pending n st.stage)
    (turn : Advance id m st x st') : Pending n st'.stage ∨ Ends id n (m, x) := by
  cases turn with
  | other => exact Or.inl h
  | deciding => exact Or.inl h
  | succeeded =>
    cases h
    exact Or.inl (.succeeded _)
  | refused =>
    cases h
    exact Or.inr (.refused _)
  | published => exact Or.inl .held
  | taken => exact Or.inr (.taken m)
  | entered => cases h
  | preparing => cases h
  | malformed => cases h
  | dismissed => cases h

/-- A preparation that was begun ended, or is pending. -/
theorem ended_or_pending (h : Chronicle id past st) {i n : Nat} {payload : Payload}
    (hi : past[i]? = some (n, .preparing id payload)) :
    (∃ k y, i < k ∧ past[k]? = some y ∧ Ends id n y) ∨ Pending n st.stage := by
  induction h with
  | nil => contradiction
  | @snoc past m x st st' h turn ih =>
    rcases getElem?_snoc hi with hi | ⟨rfl, heq⟩
    · obtain ⟨k, y, hik, hk, hends⟩ | hpending := ih hi
      · exact Or.inl ⟨k, y, hik, getElem?_snoc_of hk _, hends⟩
      · rcases hpending.turn turn with hpending | hends
        · exact Or.inr hpending
        · obtain ⟨hlt, -⟩ := List.getElem?_eq_some_iff.mp hi
          exact Or.inl ⟨past.length, _, hlt, List.getElem?_concat_length, hends⟩
    · obtain ⟨rfl, rfl⟩ := Prod.mk.injEq .. ▸ heq
      cases turn with
      | other hx => exact absurd rfl hx
      | preparing => exact Or.inr (.preparing _)

/-- **One preparation after the other**: before the handler is called to prepare an operation again, it
refused to, or a decision took what it had prepared. -/
theorem ended (h : Chronicle id past st) {i j n m : Nat} {payload payload' : Payload} (hij : i < j)
    (hi : past[i]? = some (n, .preparing id payload))
    (hj : past[j]? = some (m, .preparing id payload')) :
    ∃ k y, i < k ∧ k < j ∧ past[k]? = some y ∧ Ends id n y := by
  obtain ⟨before, after, hbefore, turn⟩ := h.turn_at hj
  have hi' : (past.take j)[i]? = some (n, .preparing id payload) := by
    rw [List.getElem?_take_of_lt hij, hi]
  obtain ⟨k, y, hik, hk, hends⟩ | hpending := hbefore.ended_or_pending hi'
  · obtain ⟨hlt, -⟩ := List.getElem?_eq_some_iff.mp hk
    have hkj : k < j := by
      rw [List.length_take] at hlt
      omega
    rw [List.getElem?_take_of_lt hkj] at hk
    exact ⟨k, y, hik, hkj, hk, hends⟩
  · -- a thread that is about to call the handler stands where nothing is pending
    cases turn with
    | other hx => exact absurd rfl hx
    | preparing => cases hpending

/-! ## Decisions and what they decide -/

/-- Whether the change of an operation came to be held. -/
def publishes (id : OperationId) : Incident → Bool
  | .published i => i = id
  | _ => false

/-- Whether the handler is called to carry out a decision of an operation. -/
def decides (id : OperationId) : Incident → Bool
  | .deciding i _ => i = id
  | _ => false

/-- Whether the incident number `i` is of a kind. -/
def Marks (past : List (Nat × Incident)) (kind : Incident → Bool) (i : Nat) : Prop :=
  past[i]?.any (kind ·.2) = true

instance (past : List (Nat × Incident)) (kind : Incident → Bool) :
    DecidablePred (Marks past kind) :=
  fun _ => inferInstanceAs (Decidable (_ = true))

theorem marks_iff {kind : Incident → Bool} {i : Nat} :
    Marks past kind i ↔ ∃ n x, past[i]? = some (n, x) ∧ kind x = true := by
  unfold Marks
  rw [Option.any_eq_true]
  constructor
  · rintro ⟨⟨n, x⟩, hi, hx⟩
    exact ⟨n, x, hi, hx⟩
  · rintro ⟨n, x, hi, hx⟩
    exact ⟨(n, x), hi, hx⟩

theorem marks_publishes {i : Nat} :
    Marks past (publishes id) i ↔ ∃ n, past[i]? = some (n, .published id) := by
  rw [marks_iff]
  constructor
  · rintro ⟨n, x, hi, hx⟩
    cases x with
    | published j =>
      obtain rfl : j = id := of_decide_eq_true hx
      exact ⟨n, hi⟩
    | _ => contradiction
  · rintro ⟨n, hi⟩
    exact ⟨n, _, hi, decide_eq_true rfl⟩

theorem marks_decides {i : Nat} :
    Marks past (decides id) i ↔ ∃ n d, past[i]? = some (n, .deciding id d) := by
  rw [marks_iff]
  constructor
  · rintro ⟨n, x, hi, hx⟩
    cases x with
    | deciding j d =>
      obtain rfl : j = id := of_decide_eq_true hx
      exact ⟨n, d, hi⟩
    | _ => contradiction
  · rintro ⟨n, d, hi⟩
    exact ⟨n, _, hi, decide_eq_true rfl⟩

/-- Changes come to be held, and are handed to the handler, one at a time. -/
theorem due_turn {n : Nat} {x : Incident} {st' : Account} (turn : Advance id n st x st') :
    st.due + (if publishes id x = true then 1 else 0) =
      st'.due + (if decides id x = true then 1 else 0) := by
  cases turn with
  | other hx =>
    have hnone : publishes id x = false ∧ decides id x = false := by
      cases x <;> simp_all [publishes, decides, Incident.id]
    rw [hnone.1, hnone.2]
  | @deciding stage owed d => cases stage <;> simp [Account.due, publishes, decides]
  | _ => simp [Account.due, publishes, decides]

/-- Of the changes that came to be held, each was decided, or is yet to be. -/
theorem count_publishes {i : Nat} (hi : i ≤ past.length) (h : Chronicle id (past.take i) st) :
    Nat.count (Marks past (publishes id)) i = Nat.count (Marks past (decides id)) i + st.due := by
  induction i generalizing st with
  | zero =>
    obtain rfl := of_nil h
    rfl
  | succ i ih =>
    obtain ⟨⟨n, x⟩, hx⟩ : ∃ y, past[i]? = some y := ⟨past[i], List.getElem?_eq_getElem (by omega)⟩
    rw [take_succ hx] at h
    obtain ⟨before, hbefore, turn⟩ := h.of_snoc
    have hkind (kind : Incident → Bool) : Marks past kind i ↔ kind x = true := by
      rw [Marks, hx, Option.any_some]
    rw [Nat.count_succ, Nat.count_succ, ih (by omega) hbefore]
    simp only [hkind]
    have hdue := due_turn turn
    omega

/-- The change that a decision decides: the handler prepared it on a thread, that thread then put it in
the table to be held, and nothing but decisions on earlier changes came in between. -/
structure Sealed (id : OperationId) (past : List (Nat × Incident)) (success publication : Nat) :
    Prop where
  held : ∃ n result, past[success]? = some (n, .answered id (.ok result)) ∧
    past[publication]? = some (n, .published id)
  before : success < publication
  between : ∀ i n x, success < i → i < publication → past[i]? = some (n, x) → x.id = id →
    ∃ d, x = .deciding id d

/-- A change is not put in the table twice. -/
theorem Sealed.unique {success i j : Nat} (hi : Sealed id past success i)
    (hj : Sealed id past success j) : i = j := by
  have hle {i j : Nat} (hi : Sealed id past success i) (hj : Sealed id past success j) : j ≤ i := by
    by_contra hlt
    obtain ⟨n, result, -, hpublished⟩ := hi.held
    obtain ⟨d, hd⟩ := hj.between i n _ hi.before (by omega) hpublished rfl
    contradiction
  exact Nat.le_antisymm (hle hj hi) (hle hi hj)

/-- What was put in the table to be held is what the handler had prepared. -/
theorem exists_sealed (h : Chronicle id past st) {i n : Nat}
    (hi : past[i]? = some (n, .published id)) : ∃ success, Sealed id past success i := by
  obtain ⟨before, after, hbefore, turn⟩ := h.turn_at hi
  cases turn with
  | other hx => exact absurd rfl hx
  | published =>
    obtain ⟨success, result, hsuccess, hsince⟩ := hbefore.lastSucceeded rfl
    obtain ⟨hlt, -⟩ := List.getElem?_eq_some_iff.mp hsuccess
    rw [List.length_take] at hlt
    have hlt' : success < i := by omega
    rw [List.getElem?_take_of_lt hlt'] at hsuccess
    refine ⟨success, ⟨n, result, hsuccess, hi⟩, hlt', fun j m x hj hji hx hid => ?_⟩
    exact hsince j m x hj (by rw [List.getElem?_take_of_lt hji, hx]) hid

/-- **Every decision decides a change of its own.** Decisions are carried out for the changes that came
to be held, one each, the changes in the order in which they came to be held. -/
theorem paired (h : Chronicle id past st) :
    ∃ success publication : Nat → Nat,
      (∀ i n d, past[i]? = some (n, .deciding id d) →
        Sealed id past (success i) (publication i) ∧ publication i < i) ∧
      ∀ i j n m d d', past[i]? = some (n, .deciding id d) → past[j]? = some (m, .deciding id d') →
        success i = success j → i = j := by
  have hfind (i : Nat) : ∃ success publication, ∀ n d, past[i]? = some (n, .deciding id d) →
      Sealed id past success publication ∧ publication < i ∧
        Nat.count (Marks past (publishes id)) publication =
          Nat.count (Marks past (decides id)) i := by
    -- the decision with `k` before it is paired with the publication that has `k` before it
    by_cases hi : Marks past (decides id) i
    · obtain ⟨n, d, hi⟩ := marks_decides.mp hi
      obtain ⟨before, after, hbefore, turn⟩ := h.turn_at hi
      obtain ⟨hlt, -⟩ := List.getElem?_eq_some_iff.mp hi
      have hcount := count_publishes (Nat.le_of_lt hlt) hbefore
      have hmore : Nat.count (Marks past (decides id)) i <
          Nat.count (Marks past (publishes id)) i := by
        have hdue := due_turn turn
        simp only [publishes, decides, decide_true, if_true, Bool.false_eq_true, if_false] at hdue
        omega
      have hcard : ∀ hf : (Set.ofPred (Marks past (publishes id))).Finite,
          Nat.count (Marks past (decides id)) i < hf.toFinset.card :=
        fun hf => lt_of_lt_of_le hmore (Nat.count_le_card hf i)
      have hmarked := Nat.nth_mem _ hcard
      obtain ⟨m, hpublished⟩ := marks_publishes.mp hmarked
      obtain ⟨success, hsealed⟩ := h.exists_sealed hpublished
      exact ⟨success, _, fun _ _ _ => ⟨hsealed, Nat.nth_lt_of_lt_count hmore, Nat.count_nth hcard⟩⟩
    · exact ⟨0, 0, fun n d hd => absurd (marks_decides.mpr ⟨n, d, hd⟩) hi⟩
  choose success publication hfound using hfind
  refine ⟨success, publication, fun i n d hi => ?_, fun i j n m d d' hi hj hsame => ?_⟩
  · exact ⟨(hfound i n d hi).1, (hfound i n d hi).2.1⟩
  · obtain ⟨hsi, -, hci⟩ := hfound i n d hi
    obtain ⟨hsj, -, hcj⟩ := hfound j m d' hj
    rw [hsame] at hsi
    rw [hsi.unique hsj, hcj] at hci
    exact Nat.count_injective (marks_decides.mpr ⟨n, d, hi⟩) (marks_decides.mpr ⟨m, d', hj⟩) hci.symm

end Chronicle

end TwoPhase
