import TwoPhase.Proofs.EndpointThreads.Chronicle
/-
What the handler of a participant can rely on, under every interleaving.

An operation is filed by what the table holds of it, by the frames that go on with it and by what
happened to it, and the three agree at all times (`Filed`). At most one frame owns the submission of an
operation, and while there is one nobody else touches its entry: a further submission finds the entry
and is ignored, and a decision finds that it is not prepared.
-/

set_option autoImplicit false

namespace TwoPhase

open Endpoint (Task Frame Upcall Answer Effect)

/-! ## Frames with the numbers of their threads -/

namespace EndpointThreads

/-- All frames, each with the number of its thread. -/
def numbered (threads : List (List Frame)) : List (Nat × Frame) :=
  threads.zipIdx.flatMap fun stack => stack.1.map (stack.2, ·)

/-- The frames of one thread stand together among all frames. -/
theorem numbered_around (before after : List (List Frame)) :
    ∃ left right, ∀ stack,
      numbered (before ++ stack :: after) = left ++ stack.map (before.length, ·) ++ right := by
  refine ⟨numbered before, (after.zipIdx (before.length + 1)).flatMap fun stack =>
    stack.1.map (stack.2, ·), fun stack => ?_⟩
  unfold numbered
  rw [List.zipIdx_append, List.zipIdx_cons, List.flatMap_append, List.flatMap_cons,
    List.append_assoc, Nat.zero_add]

theorem mem_numbered {threads : List (List Frame)} {n : Nat} {f : Frame} :
    (n, f) ∈ numbered threads ↔ ∃ stack, threads[n]? = some stack ∧ f ∈ stack := by
  unfold numbered
  rw [List.mem_flatMap]
  constructor
  · rintro ⟨⟨stack, m⟩, hstack, hf⟩
    obtain ⟨g, hg, heq⟩ := List.mem_map.mp hf
    obtain ⟨rfl, rfl⟩ := Prod.mk.injEq .. ▸ heq
    exact ⟨stack, List.mem_zipIdx_iff_getElem?.mp hstack, hg⟩
  · rintro ⟨stack, hstack, hf⟩
    exact ⟨(stack, n), List.mem_zipIdx_iff_getElem?.mpr hstack, List.mem_map_of_mem hf⟩

/-- Without their numbers these are the frames of all threads. -/
theorem map_numbered (threads : List (List Frame)) :
    (numbered threads).map (·.2) = threads.flatten := by
  have hmap (stack : List Frame × Nat) : (stack.1.map (stack.2, ·)).map (·.2) = stack.1 := by
    rw [List.map_map]
    exact List.map_id _
  unfold numbered
  rw [List.map_flatMap]
  simp only [hmap]
  rw [List.flatMap_def, List.zipIdx_map_fst]

end EndpointThreads

/-- Whether a thread is inside the handler, to have an operation prepared. -/
def Endpoint.Frame.prepares (id : OperationId) : Frame → Bool
  | .inside (.prepare i _) => i = id
  | _ => false

/-! ## Filing -/

/-- What the table holds of an operation, by its stage. -/
inductive Stage.Files (id : OperationId) : Stage → Option Transaction → Prop
  | idle : Files id .idle none
  | received {stage : Stage} {n : Nat} {now : UInt64} (h : stage.owner = some (n, now)) :
      Files id stage (some (.received ⟨id, now⟩))
  | held (t : PreparedTransaction) : Files id .held (some (.prepared t))

/-- The frames that own the submission of an operation, by its stage. There is at most one; there is
none where the handler was called and does not come back to be heard. -/
inductive Stage.Owned (id : OperationId) : Stage → List (Nat × Frame) → Prop
  | idle : Owned id .idle []
  | decoding {n : Nat} {now : UInt64} (payload : List UInt8) :
      Owned id (.entered n now) [(n, .todo (.decode id payload))]
  | calling {n : Nat} {now : UInt64} (p : Payload) :
      Owned id (.entered n now) [(n, .todo (.raise (.prepare id p)))]
  | malformed {n : Nat} {now : UInt64} (f : Failure) :
      Owned id (.entered n now) [(n, .todo (.prepared id (.error f)))]
  | preparing {n : Nat} {now : UInt64} (p : Payload) :
      Owned id (.preparing n now) [(n, .inside (.prepare id p))]
  | abandoned {n : Nat} {now : UInt64} : Owned id (.preparing n now) []
  | succeeded {n : Nat} {now : UInt64} (result : Value) :
      Owned id (.succeeded n now) [(n, .todo (.prepared id (.ok result)))]
  | refused {n : Nat} {now : UInt64} (f : Failure) :
      Owned id (.refused n now) [(n, .todo (.prepared id (.error f)))]
  | held : Owned id .held []

/-- The frame that owns a submission is on the thread that entered it. -/
theorem Stage.Owned.owner {id : OperationId} {stage : Stage} {owners : List (Nat × Frame)} {n : Nat}
    {f : Frame} (h : stage.Owned id owners) (hf : (n, f) ∈ owners) :
    ∃ now, stage.owner = some (n, now) := by
  cases h <;> simp_all [Stage.owner]

theorem Stage.Owned.length_le {id : OperationId} {stage : Stage} {owners : List (Nat × Frame)}
    (h : stage.Owned id owners) : owners.length ≤ 1 := by
  cases h <;> simp

/-- The table, the threads and the past agree on where an operation stands. -/
structure Filed (id : OperationId) (held : Option Transaction) (frames : List (Nat × Frame))
    (past : List (Nat × Incident)) (st : Account) : Prop where
  chronicle : Chronicle id past st
  files : st.stage.Files id held
  owned : st.stage.Owned id (frames.filter (·.2.owns id))
  owed : frames.countP (·.2.orders id) = st.owed

namespace Filed

variable {id : OperationId} {held held' : Option Transaction} {left right : List (Nat × Frame)}
  {past : List (Nat × Incident)} {st : Account} {n : Nat} {f : Frame}

/-- Whoever owns a submission is alone, and on the thread that entered it. -/
theorem sole (h : Filed id held (left ++ (n, f) :: right) past st) (hf : f.owns id = true) :
    left.filter (·.2.owns id) = [] ∧ right.filter (·.2.owns id) = [] ∧
      st.stage.Owned id [(n, f)] := by
  have howned := h.owned
  rw [List.filter_append,
    List.filter_cons_of_pos (p := fun x : Nat × Frame => x.2.owns id) (a := (n, f)) hf] at howned
  have hlength := howned.length_le
  rw [List.length_append, List.length_cons] at hlength
  have hleft : left.filter (·.2.owns id) = [] := List.eq_nil_of_length_eq_zero (by omega)
  have hright : right.filter (·.2.owns id) = [] := List.eq_nil_of_length_eq_zero (by omega)
  rw [hleft, hright] at howned
  exact ⟨hleft, hright, howned⟩

/-- Frames that own nothing and order nothing come and go. -/
theorem exchange {mid mid' : List (Nat × Frame)}
    (h : Filed id held (left ++ mid ++ right) past st)
    (howns : mid.filter (·.2.owns id) = mid'.filter (·.2.owns id))
    (horders : mid.countP (·.2.orders id) = mid'.countP (·.2.orders id)) :
    Filed id held (left ++ mid' ++ right) past st where
  chronicle := h.chronicle
  files := h.files
  owned := by
    have howned := h.owned
    rw [List.filter_append, List.filter_append, howns] at howned
    rw [List.filter_append, List.filter_append]
    exact howned
  owed := by
    have howed := h.owed
    rw [List.countP_append, List.countP_append, horders] at howed
    rw [List.countP_append, List.countP_append]
    exact howed

/-- The owner of a submission goes on, with the entry, to the next stage. -/
theorem succeed {mid : List (Nat × Frame)} {past' : List (Nat × Incident)} {stage' : Stage}
    (h : Filed id held (left ++ (n, f) :: right) past st) (hf : f.owns id = true)
    (hchronicle : Chronicle id past' ⟨stage', st.owed⟩) (hfiles : stage'.Files id held')
    (howned : stage'.Owned id mid) (hmid : ∀ x ∈ mid, x.2.owns id = true) :
    Filed id held' (left ++ mid ++ right) past' ⟨stage', st.owed⟩ where
  chronicle := hchronicle
  files := hfiles
  owned := by
    obtain ⟨hleft, hright, -⟩ := h.sole hf
    rw [List.filter_append, List.filter_append, hleft, hright, List.filter_eq_self.mpr hmid,
      List.nil_append, List.append_nil]
    exact howned
  owed := by
    have hnot (g : Frame) (hg : g.owns id = true) : g.orders id = false := by
      unfold Frame.owns at hg
      split at hg <;> first | rfl | contradiction
    have howed := h.owed
    have hmid' : mid.countP (·.2.orders id) = 0 :=
      List.countP_eq_zero.mpr fun x hx => by rw [hnot x.2 (hmid x hx)]; exact Bool.false_ne_true
    rw [List.countP_append, List.countP_cons_of_neg (by rw [hnot f hf]; exact Bool.false_ne_true)]
      at howed
    rw [List.countP_append, List.countP_append, hmid', ← howed, Nat.add_zero]

/-- One frame gives way to others that own as little as it does and order as little. -/
theorem pass {mid : List (Nat × Frame)} (h : Filed id held (left ++ (n, f) :: right) past st)
    (hf : f.about id = false) (hmid : ∀ x ∈ mid, x.2.about id = false) :
    Filed id held (left ++ mid ++ right) past st := by
  have howns {l : List (Nat × Frame)} (hl : ∀ x ∈ l, x.2.about id = false) :
      l.filter (·.2.owns id) = [] :=
    List.filter_eq_nil_iff.mpr fun x hx => by simp [(Bool.or_eq_false_iff.mp (hl x hx)).1]
  have horders {l : List (Nat × Frame)} (hl : ∀ x ∈ l, x.2.about id = false) :
      l.countP (·.2.orders id) = 0 :=
    List.countP_eq_zero.mpr fun x hx => by simp [(Bool.or_eq_false_iff.mp (hl x hx)).2]
  have hone : ∀ x ∈ [(n, f)], x.2.about id = false := fun x hx => by
    rw [List.mem_singleton.mp hx]
    exact hf
  have hstack : Filed id held (left ++ [(n, f)] ++ right) past st := by simpa using h
  refine hstack.exchange ?_ ?_
  · rw [howns hone, howns hmid]
  · rw [horders hone, horders hmid]

/-- What happens to others is of no matter. -/
theorem outside {frames : List (Nat × Frame)} {x : Incident} (h : Filed id held frames past st)
    (hx : x.id ≠ id) : Filed id held frames (past ++ [(n, x)]) st :=
  ⟨h.chronicle.snoc (.other hx), h.files, h.owned, h.owed⟩

/-- While the table holds nothing of an operation, nobody owns a submission of it. -/
theorem idle {frames : List (Nat × Frame)} (h : Filed id none frames past st) :
    st.stage = .idle ∧ frames.filter (·.2.owns id) = [] := by
  obtain ⟨-, hfiles, howned, -⟩ := h
  generalize st.stage = stage at hfiles howned
  cases hfiles
  generalize frames.filter (·.2.owns id) = owners at howned
  cases howned
  exact ⟨rfl, rfl⟩

/-- While the table holds a prepared transaction, nobody owns a submission of its operation. -/
theorem held_of {frames : List (Nat × Frame)} {t : PreparedTransaction}
    (h : Filed id (some (.prepared t)) frames past st) :
    st.stage = .held ∧ frames.filter (·.2.owns id) = [] := by
  obtain ⟨-, hfiles, howned, -⟩ := h
  generalize st.stage = stage at hfiles howned
  cases hfiles
  generalize frames.filter (·.2.owns id) = owners at howned
  cases howned
  exact ⟨rfl, rfl⟩

/-- Where nobody owned anything, the owners are those that come. -/
theorem filter_exchange {p : Nat × Frame → Bool} {x : Nat × Frame}
    (h : (left ++ x :: right).filter p = []) (mid : List (Nat × Frame)) :
    (left ++ mid ++ right).filter p = mid.filter p := by
  rw [List.filter_append, List.append_eq_nil_iff] at h
  have hright : right.filter p = [] := by
    have htail := h.2
    rw [List.filter_eq_nil_iff] at htail ⊢
    intro y hy
    exact htail y (List.mem_cons_of_mem x hy)
  rw [List.filter_append, List.filter_append, h.1, hright, List.nil_append, List.append_nil]

/-- The decisions that are owed change with the frames that come and the one that goes. -/
theorem owed_exchange {mid : List (Nat × Frame)} {owed : Nat}
    (h : Filed id held (left ++ (n, f) :: right) past st)
    (hbalance : st.owed + mid.countP (·.2.orders id) = owed + [(n, f)].countP (·.2.orders id)) :
    (left ++ mid ++ right).countP (·.2.orders id) = owed := by
  have howed := h.owed
  rw [← List.singleton_append, List.countP_append, List.countP_append] at howed
  rw [List.countP_append, List.countP_append]
  omega

/-- A call to the handler that was owed is made, and is owed no more. -/
theorem carry_out {t : PreparedTransaction} {decision : Decision} (ht : t.id = id)
    (h : Filed id held (left ++ (n, .todo (.raise (.finalize t decision))) :: right) past st) :
    ∃ st', Filed id held (left ++ [] ++ right) (past ++ [(n, .deciding id decision)]) st' := by
  obtain ⟨stage, owed⟩ := st
  have horders : Frame.orders id (.todo (.raise (.finalize t decision))) = true :=
    decide_eq_true ht
  have hpos : 0 < owed := by
    rw [← show _ = owed from h.owed, List.countP_pos_iff]
    exact ⟨_, List.mem_append_right left List.mem_cons_self, horders⟩
  obtain ⟨rest, rfl⟩ : ∃ rest, owed = rest + 1 := ⟨owed - 1, by omega⟩
  refine ⟨⟨stage, rest⟩, h.chronicle.snoc .deciding, h.files, ?_, ?_⟩
  · have howned := h.owned
    rw [List.filter_append, List.filter_cons_of_neg (by simp [Frame.owns])] at howned
    rw [List.append_nil, List.filter_append]
    exact howned
  · exact h.owed_exchange (by simp [horders])

/-- **A move keeps the files in order.** -/
theorem move {now : UInt64} {t : Task} {frames : List Frame} {incidents : List Incident}
    (effect : Effect id now held t held' frames incidents)
    (h : Filed id held (left ++ (n, .todo t) :: right) past st) :
    ∃ st', Filed id held' (left ++ frames.map (n, ·) ++ right) (past ++ incidents.map (n, ·)) st' := by
  obtain ⟨stage, owed⟩ := st
  cases effect with
  | aside ht =>
    refine ⟨⟨stage, owed⟩, ?_⟩
    rw [List.map_nil, List.map_nil, List.append_nil past]
    exact h.pass ht (by simp)
  | @entered payload =>
    obtain ⟨hstage, hnone⟩ := h.idle
    obtain rfl : stage = .idle := hstage
    refine ⟨⟨.entered n now, owed⟩, h.chronicle.snoc .entered, .received rfl, ?_, ?_⟩
    · rw [filter_exchange hnone]
      simpa [Frame.owns] using .decoding payload
    · exact h.owed_exchange rfl
  -- from here on the frame that moves owns the submission, alone, and so tells its stage
  | @decoded held payload p =>
    obtain ⟨-, -, howned⟩ := h.sole (decide_eq_true rfl)
    cases howned with
    | decoding =>
      rw [List.map_nil, List.append_nil past]
      exact ⟨_, h.succeed (decide_eq_true rfl) h.chronicle h.files (.calling p) (by simp [Frame.owns])⟩
  | @malformed held payload f =>
    obtain ⟨-, -, howned⟩ := h.sole (decide_eq_true rfl)
    cases howned with
    | decoding =>
      rw [List.map_nil, List.append_nil past]
      exact ⟨_, h.succeed (decide_eq_true rfl) h.chronicle h.files (.malformed f)
        (by simp [Frame.owns])⟩
  | @preparing held p =>
    obtain ⟨-, -, howned⟩ := h.sole (decide_eq_true rfl)
    cases howned with
    | @calling n now' =>
      have hfiles : Stage.Files id (.preparing n now') held := by
        cases h.files with
        | received howner => exact .received howner
      exact ⟨_, h.succeed (decide_eq_true rfl) (h.chronicle.snoc .preparing) hfiles (.preparing p)
        (by simp [Frame.owns])⟩
  | @published t result =>
    obtain ⟨-, -, howned⟩ := h.sole (decide_eq_true rfl)
    cases howned with
    | succeeded =>
      exact ⟨_, h.succeed (decide_eq_true rfl) (h.chronicle.snoc .published) (.held _) .held
        (by simp)⟩
  | @misplaced held result hheld =>
    obtain ⟨-, -, howned⟩ := h.sole (decide_eq_true rfl)
    cases howned with
    | succeeded =>
      -- the owner of a submission finds its entry in the table
      cases h.files with
      | received => exact absurd rfl (hheld _)
  | @dismissed held f =>
    obtain ⟨-, -, howned⟩ := h.sole (decide_eq_true rfl)
    cases howned with
    | malformed =>
      exact ⟨_, h.succeed (decide_eq_true rfl) (h.chronicle.snoc .malformed) .idle .idle (by simp)⟩
    | refused =>
      exact ⟨_, h.succeed (decide_eq_true rfl) (h.chronicle.snoc .dismissed) .idle .idle (by simp)⟩
  | @taken t decision ht =>
    obtain ⟨hstage, hnone⟩ := h.held_of
    obtain rfl : stage = .held := hstage
    refine ⟨⟨.idle, owed + 1⟩, h.chronicle.snoc .taken, .idle, ?_, ?_⟩
    · rw [filter_exchange hnone]
      exact .idle
    · exact h.owed_exchange (by simp [Frame.orders, ht])
  | @deciding held t decision ht =>
    exact h.carry_out ht

/-- **An answer keeps the files in order.** -/
theorem answer {u : Upcall} (a : Answer)
    (h : Filed id held (left ++ (n, .inside u) :: right) past st) :
    ∃ st', Filed id held (left ++ (u.resume a).map (n, ·) ++ right)
      (past ++ (u.incident a).toList.map (n, ·)) st' := by
  have haside (hu : (Frame.inside u).about id = false)
      (hresume : ∀ f ∈ u.resume a, f.about id = false) :
      Filed id held (left ++ (u.resume a).map (n, ·) ++ right) past st := by
    refine h.pass hu fun x hx => ?_
    obtain ⟨f, hf, rfl⟩ := List.mem_map.mp hx
    exact hresume f hf
  -- only the answer to a preparation that the operation's own thread waits for goes into its files
  cases u with
  | prepare i p =>
    by_cases hi : i = id
    · subst hi
      obtain ⟨stage, owed⟩ := st
      obtain ⟨-, -, howned⟩ := h.sole (decide_eq_true rfl)
      cases howned with
      | @preparing n now =>
        have hreceived {stage' : Stage} (howner : stage'.owner = some (n, now)) :
            stage'.Files i held := by
          cases h.files with
          | received howner' =>
            obtain ⟨-, rfl⟩ := Prod.mk.injEq .. ▸ Option.some.inj howner'
            exact .received howner
        cases a with
        | handled result =>
          rcases result with f | result
          · exact ⟨_, h.succeed (decide_eq_true rfl) (h.chronicle.snoc .refused) (hreceived rfl)
              (.refused f) (by simp [Upcall.resume, Frame.owns])⟩
          · exact ⟨_, h.succeed (decide_eq_true rfl) (h.chronicle.snoc .succeeded) (hreceived rfl)
              (.succeeded result) (by simp [Upcall.resume, Frame.owns])⟩
        | _ =>
          refine ⟨_, h.succeed (decide_eq_true rfl) ?_ (hreceived rfl) .abandoned
            (by simp [Upcall.resume])⟩
          simpa [Upcall.incident] using h.chronicle
    · have hframe := haside (by simp [Frame.about, Frame.owns, Frame.orders, hi]) (by
        cases a <;> simp [Upcall.resume, Frame.about, Frame.owns, Frame.orders, hi])
      cases a with
      | handled result => exact ⟨st, hframe.outside hi⟩
      | _ => exact ⟨st, by simpa [Upcall.incident] using hframe⟩
  | _ =>
    refine ⟨st, ?_⟩
    simpa [Upcall.incident] using haside rfl (by
      cases a <;> simp [Upcall.resume, Frame.about, Frame.owns, Frame.orders])

/-- Only the frames about an operation count in its files. -/
theorem of_about {frames : List Frame}
    (h : Filed id held (left ++ (frames.filter (Frame.about id)).map (n, ·) ++ right) past st) :
    Filed id held (left ++ frames.map (n, ·) ++ right) past st := by
  refine h.exchange ?_ ?_
  · rw [List.filter_map, List.filter_map, List.filter_filter]
    congr 1
    refine List.filter_congr fun f _ => ?_
    unfold Frame.about
    cases hf : f.owns id <;> simp [hf]
  · rw [List.countP_map, List.countP_map, List.countP_filter]
    refine List.countP_congr fun f _ => ?_
    unfold Frame.about
    cases hf : f.orders id <;> simp [hf]

/-- Only what happened to an operation counts in its files. -/
theorem of_incidents {frames : List (Nat × Frame)} {x : Option Incident}
    (h : Filed id held frames (past ++ (x.toList.filter (·.id = id)).map (n, ·)) st) :
    Filed id held frames (past ++ x.toList.map (n, ·)) st := by
  rcases x with _ | x
  · exact h
  · by_cases hx : x.id = id
    · rw [Option.toList_some, List.filter_cons_of_pos (by simpa using hx)] at h
      exact h
    · rw [Option.toList_some, List.filter_cons_of_neg (by simpa using hx), List.filter_nil,
        List.map_nil, List.append_nil] at h
      exact h.outside hx

end Filed

/-! ## Runs -/

namespace EndpointThreads

variable {s s' : EndpointThreads} {id : OperationId}

/-- The table is in order, and so are the files of an operation. -/
structure InOrder (id : OperationId) (s : EndpointThreads) : Prop where
  keyed : s.endpoint.Keyed
  filed : ∃ st, Filed id (s.endpoint.transactions.get? id) (numbered s.threads) s.past st

theorem inOrder_fresh (id : OperationId) : InOrder id fresh where
  keyed := Endpoint.keyed_fresh
  filed := ⟨⟨.idle, 0⟩, .nil, .idle, .idle, rfl⟩

/-- **Every step keeps the files in order.** -/
theorem InOrder.step (h : InOrder id s) (hstep : Step s s') : InOrder id s' := by
  obtain ⟨hkeyed, st, hfiled⟩ := h
  -- what a thread gains or loses stands between the frames of those before it and those after
  cases hstep with
  | join =>
    refine ⟨hkeyed, st, ?_⟩
    have hsame : numbered (s.threads ++ [[]]) = numbered s.threads := by
      simp [numbered, List.zipIdx_append]
    rw [hsame]
    exact hfiled
  | @hand e past before after stack m =>
    obtain ⟨left, right, hnumbered⟩ := numbered_around before after
    refine ⟨hkeyed, st, ?_⟩
    simp only [hnumbered] at hfiled ⊢
    exact hfiled.exchange (by simp [Frame.owns]) (by simp [Frame.orders])
  | @report e past before after stack m =>
    obtain ⟨left, right, hnumbered⟩ := numbered_around before after
    refine ⟨hkeyed, st, ?_⟩
    simp only [hnumbered] at hfiled ⊢
    exact hfiled.exchange (by simp [Frame.owns]) (by simp [Frame.orders])
  | @move e past before after rest now t =>
    obtain ⟨left, right, hnumbered⟩ := numbered_around before after
    simp only [hnumbered, List.map_cons, List.append_assoc, List.cons_append] at hfiled
    obtain ⟨st', hfiled'⟩ := Filed.move (Endpoint.affects now hkeyed id t) hfiled
    refine ⟨Endpoint.keyed_perform now hkeyed t, st', ?_⟩
    simp only [hnumbered, List.map_append, List.append_assoc]
    simpa only [List.append_assoc] using hfiled'.of_incidents.of_about
  | @answer e past before after rest u a =>
    obtain ⟨left, right, hnumbered⟩ := numbered_around before after
    simp only [hnumbered, List.map_cons, List.append_assoc, List.cons_append] at hfiled
    obtain ⟨st', hfiled'⟩ := hfiled.answer a
    refine ⟨hkeyed, st', ?_⟩
    simp only [hnumbered, List.map_append, List.append_assoc]
    simpa only [List.append_assoc] using hfiled'

/-- The files of an operation are in order after every schedule. -/
theorem inOrder (schedule : List Choice) (id : OperationId) : InOrder id (run schedule) :=
  run_induction (inOrder_fresh id) (fun _ _ h hstep => h.step hstep) schedule

/-- While a thread goes on with a submission, the table holds the entry that this thread made. -/
theorem InOrder.owned (h : InOrder id s) {n : Nat} {stack : List Frame} {f : Frame}
    (hstack : s.threads[n]? = some stack) (hf : f ∈ stack) (howns : f.owns id = true) :
    ∃ now, s.endpoint.transactions.get? id = some (.received ⟨id, now⟩) ∧
      Chronicle.LastEntered id s.past n now := by
  obtain ⟨-, ⟨stage, owed⟩, hchronicle, hfiles, howned, -⟩ := h
  have hmem : (n, f) ∈ (numbered s.threads).filter (·.2.owns id) :=
    List.mem_filter.mpr ⟨mem_numbered.mpr ⟨stack, hstack, hf⟩, howns⟩
  obtain ⟨now, howner⟩ := howned.owner hmem
  generalize hheld : s.endpoint.transactions.get? id = held at hfiles
  cases hfiles with
  | idle => contradiction
  | held => contradiction
  | received howner' =>
    obtain ⟨rfl, rfl⟩ := Prod.mk.injEq .. ▸ Option.some.inj (howner'.symm.trans howner)
    exact ⟨_, rfl, hchronicle.lastEntered howner⟩

/-- What the handler can rely on for one operation. -/
structure Disciplined (id : OperationId) (s : EndpointThreads) : Prop where
  /-- Every call that carries a decision out has a change of its own: one that the handler had prepared
  and that was put in the table to be held, both before the call. -/
  paired : ∃ success publication : Nat → Nat,
    (∀ (i n : Nat) (d : Decision), s.past[i]? = some (n, .deciding id d) →
      Chronicle.Sealed id s.past (success i) (publication i) ∧ publication i < i) ∧
    ∀ (i j n m : Nat) (d d' : Decision), s.past[i]? = some (n, .deciding id d) →
      s.past[j]? = some (m, .deciding id d') → success i = success j → i = j
  /-- Between two calls to prepare, the first was refused, or a decision took what it had prepared. -/
  turns : ∀ (i j n m : Nat) (payload payload' : Payload), i < j →
    s.past[i]? = some (n, .preparing id payload) → s.past[j]? = some (m, .preparing id payload') →
    ∃ k y, i < k ∧ k < j ∧ s.past[k]? = some y ∧ Chronicle.Ends id n y
  /-- No two threads are inside a call to prepare. -/
  alone : s.frames.countP (Frame.prepares id) ≤ 1
  /-- While a thread goes on with a submission, up to the moment when it learns what came of the call to
  prepare, the table holds the entry that this thread made last. -/
  owned : ∀ (n : Nat) (stack : List Frame) (f : Frame), s.threads[n]? = some stack → f ∈ stack →
    f.owns id = true →
    ∃ now, s.endpoint.transactions.get? id = some (.received ⟨id, now⟩) ∧
      Chronicle.LastEntered id s.past n now

/-- **The handler's calls are disciplined**, whatever the messages, the handler's answers and the order
in which the threads take their turns. -/
theorem disciplined (schedule : List Choice) (id : OperationId) :
    Disciplined id (run schedule) := by
  obtain ⟨-, st, hchronicle, -, howned, -⟩ := inOrder schedule id
  refine ⟨hchronicle.paired, fun i j n m _ _ hij hi hj => hchronicle.ended hij hi hj, ?_,
    fun n stack f hstack hf howns => (inOrder schedule id).owned hstack hf howns⟩
  have hprepares (f : Nat × Frame) (hf : f.2.prepares id = true) : f.2.owns id = true := by
    unfold Frame.prepares at hf
    unfold Frame.owns
    split at hf <;> simp_all
  calc (run schedule).frames.countP (Frame.prepares id)
      = (numbered (run schedule).threads).countP (·.2.prepares id) := by
        rw [frames, ← map_numbered, List.countP_map]
        rfl
    _ ≤ (numbered (run schedule).threads).countP (·.2.owns id) :=
        List.countP_mono_left fun f _ hf => hprepares f hf
    _ ≤ 1 := by
        rw [List.countP_eq_length_filter]
        exact howned.length_le

/-- Two threads: the second is handed the submission that the first goes on with, which comes to nothing,
and then a decision, which it takes before the first has said that the change is prepared. -/
def overlap : List Choice :=
  [.join, .join, .hand 0 (.execute ⟨1⟩ (Payload.mk .undefined []).toJson), .move 0 0,
    .hand 1 (.execute ⟨1⟩ []), .move 1 0, .move 0 0, .answer 0 (.journaled (.ok 1)), .move 0 0,
    .move 0 0, .move 0 0, .answer 0 (.handled (.ok .undefined)), .move 0 0,
    .hand 1 (.decide ⟨1⟩ .commit), .move 1 0, .move 1 0]

/-- There the second thread calls the handler to decide, and the success of the first stands behind it. -/
theorem disciplined_of_overlap :
    (run overlap).past[5]? = some (1, .deciding ⟨1⟩ .commit) ∧
      ∃ success publication : Nat, publication < 5 ∧
        Chronicle.Sealed ⟨1⟩ (run overlap).past success publication := by
  have hdecided : (run overlap).past[5]? = some (1, .deciding ⟨1⟩ .commit) := by rfl
  obtain ⟨success, publication, hmatched, -⟩ := (disciplined overlap ⟨1⟩).paired
  obtain ⟨hsealed, hlt⟩ := hmatched 5 1 .commit hdecided
  exact ⟨hdecided, success 5, publication 5, hlt, hsealed⟩

end EndpointThreads

end TwoPhase
