import TwoPhase.Proofs.ClientThreads.Callbacks
/-
What is sent for an operation, under every interleaving.

Sends are counted together with the frames that are about to make them. Every operation has exactly
one execute, on its way or sent. A decision has two guards, the handle that remembers whether it was
asked and the entry in the table that takes down the decision; the count of decisions, on their way or
sent, is bounded by the first guard alone, so two of them can never be sent.
-/

set_option autoImplicit false

namespace TwoPhase

open Client (Task Frame Upcall Answer Event Cause)

namespace Client

/-- Whether a call out submits an operation. -/
def Upcall.executes (id : OperationId) : Upcall → Bool
  | .send (.execute i _) => i = id
  | _ => false

/-- Whether a call out sends a decision of an operation. -/
def Upcall.decides (id : OperationId) : Upcall → Bool
  | .send (.commit i) | .send (.rollback i) => i = id
  | _ => false

/-- Whether a frame is about to submit an operation. -/
def Frame.executes (id : OperationId) : Frame → Bool
  | .todo (.raise u) => u.executes id
  | _ => false

/-- Whether a frame may still come to send a decision of an operation. -/
def Frame.decides (id : OperationId) : Frame → Bool
  | .todo (.claim i _) => i = id
  | .todo (.raise u) => u.decides id
  | _ => false

end Client

/-- Whether any copy of the handle was asked to decide. -/
def View.asked (v : View) : Bool :=
  match v.handle with
  | some handle => handle.asked
  | none => false

/-- The two guards of a decision agree. -/
structure View.Guarded (v : View) (queued : List Callback) : Prop where
  /-- There is a handle only once the listener is to be told that the operation is prepared. -/
  announced : v.handle ≠ none → ∃ result, .prepared result ∈ queued
  /-- While an operation is submitted there is no handle. -/
  fresh : ∀ entry, v.entry = some entry → entry.phase = .submitted → v.handle = none
  /-- Once it is prepared there is one. -/
  prepared : ∀ entry, v.entry = some entry → entry.phase = .prepared → v.handle ≠ none
  /-- A decision is taken down only after the handle was asked. -/
  decided : ∀ entry, v.entry = some entry → entry.decision ≠ none → v.asked = true

/-- The books on what is sent for an operation that exists. -/
structure OperationShare.Balanced (id : OperationId) (d : OperationShare) : Prop where
  guarded : d.view.Guarded d.queued
  executes : d.frames.countP (Frame.executes id) + d.begun.countP (Upcall.executes id) = 1
  decides : d.frames.countP (Frame.decides id) + d.begun.countP (Upcall.decides id) ≤
    d.view.asked.toNat

/-! ## What one move sends -/

theorem countP_drainIf (id : OperationId) (owed : Bool) :
    (Client.drainIf id owed).countP (Frame.executes id) = 0 ∧
      (Client.drainIf id owed).countP (Frame.decides id) = 0 := by
  cases owed <;> simp [Client.drainIf, Frame.executes, Frame.decides]

/-- A submission that was on its way is on its way or sent. -/
theorem Touch.executes {id : OperationId} {v v' : View} {t : Task} {y : Yield}
    (touch : Touch id v t v' y) (hknown : y.enlisted = false) :
    y.frames.countP (Frame.executes id) + y.began.countP (Upcall.executes id) =
      (heldFor id t).countP (Frame.executes id) := by
  cases touch with
  | enlisted => contradiction
  | aside hframe hcause =>
    have hheld : heldFor id t = [] := List.filter_cons_of_neg (Bool.eq_false_iff.mp hframe)
    simp [hheld]
  | accepted | finished | reported | swept =>
    simp [heldFor, Frame.about, (countP_drainIf id v.owed).1]
  | @claimed entry d hentry hphase hdecision =>
    cases d <;> simp [heldFor, Frame.about, Frame.executes, Upcall.executes, Outbound.decide]
  | @called callback panicked =>
    cases callback.outcome? <;> simp [heldFor, Frame.about, Frame.executes]
  | @subscribed delivery tag hdelivery =>
    cases (delivery.outcome.subscribe tag).2 <;>
      simp [heldFor, Frame.about, Frame.executes, Upcall.executes]
  | resolved hdelivery =>
    simp [heldFor, Frame.about, Frame.executes, Upcall.executes, Function.comp_def]
  | @raised u hu =>
    have hheld : heldFor id (.raise u) = [.todo (.raise u)] := List.filter_cons_of_pos hu
    by_cases hsend : u.executes id = true <;> simp [hheld, Frame.executes, hsend]
  | _ => simp [heldFor, Frame.about, Frame.executes, Upcall.executes]

/-- A decision that was on its way is on its way or sent, or given up; a new one is on its way only
where the handle was asked for the first time. -/
theorem Touch.decides {id : OperationId} {v v' : View} {t : Task} {y : Yield}
    (touch : Touch id v t v' y) (hknown : y.enlisted = false)
    (hfresh : ∀ entry, v.entry = some entry → entry.phase = .submitted → v.handle = none) :
    y.frames.countP (Frame.decides id) + y.began.countP (Upcall.decides id) + v.asked.toNat ≤
      (heldFor id t).countP (Frame.decides id) + v'.asked.toNat := by
  cases touch with
  | enlisted => contradiction
  | aside hframe hcause =>
    have hheld : heldFor id t = [] := List.filter_cons_of_neg (Bool.eq_false_iff.mp hframe)
    simp [hheld]
  | @accepted entry result hentry hphase =>
    -- a submitted operation has no handle, so nobody can have asked it
    have hasked : v.asked = false := by simp [View.asked, hfresh entry hentry hphase]
    simp [heldFor, Frame.about, (countP_drainIf id v.owed).2, hasked]
  | finished | reported | swept =>
    simp [heldFor, Frame.about, (countP_drainIf id v.owed).2, View.post, View.asked]
  | @asked handle d hhandle hasked =>
    simp [heldFor, Frame.about, Frame.decides, View.asked, hhandle, hasked]
  | @claimed entry d hentry hphase hdecision =>
    cases d <;>
      simp [heldFor, Frame.about, Frame.decides, Upcall.decides, Outbound.decide, View.asked]
  | @called callback panicked =>
    cases callback.outcome? <;> simp [heldFor, Frame.about, Frame.decides]
  | @subscribed delivery tag hdelivery =>
    cases (delivery.outcome.subscribe tag).2 <;>
      simp [heldFor, Frame.about, Frame.decides, Upcall.decides, View.asked]
  | resolved hdelivery =>
    simp [heldFor, Frame.about, Frame.decides, Upcall.decides, Function.comp_def, View.asked]
  | @raised u hu =>
    have hheld : heldFor id (.raise u) = [.todo (.raise u)] := List.filter_cons_of_pos hu
    by_cases hsend : u.decides id = true <;> simp [hheld, Frame.decides, hsend]
  | _ => simp [heldFor, Frame.about, Frame.decides, Upcall.decides, View.asked]

namespace View.Guarded

variable {v : View} {queued : List Callback}

/-- What is queued besides makes no difference, nor does the delivery. -/
theorem extend (h : v.Guarded queued) (more : List Callback) (delivery : Option Delivery) :
    View.Guarded { v with delivery := delivery } (queued ++ more) :=
  ⟨fun hhandle => (h.announced hhandle).imp fun _ hmem => List.mem_append_left more hmem,
    h.fresh, h.prepared, h.decided⟩

/-- An operation that leaves the table keeps its handle. -/
theorem leave (h : v.Guarded queued) (more : List Callback) (delivery : Option Delivery) :
    View.Guarded ⟨none, delivery, v.handle⟩ (queued ++ more) :=
  ⟨fun hhandle => (h.announced hhandle).imp fun _ hmem => List.mem_append_left more hmem,
    (fun _ hentry => by contradiction), (fun _ hentry => by contradiction),
    (fun _ hentry => by contradiction)⟩

end View.Guarded

theorem Touch.guarded {id : OperationId} {v v' : View} {t : Task} {y : Yield}
    (touch : Touch id v t v' y) (hknown : y.enlisted = false) {queued : List Callback}
    (h : v.Guarded queued) (hclaim : ∀ d, t = .claim id d → v.asked = true) :
    v'.Guarded (queued ++ y.queued) := by
  cases touch with
  | enlisted => contradiction
  | withdrawn hentry => exact h.leave [] v.delivery
  | finished hentry hallows => exact h.leave _ _
  | swept hentry => exact h.leave _ _
  | @asked handle d hhandle hasked =>
    have hsome : v.handle ≠ none := by simp [hhandle]
    refine ⟨fun _ => ?_, fun entry hentry hphase => ?_, fun _ _ _ => by simp, fun _ _ _ => rfl⟩
    · simpa using h.announced hsome
    · exact absurd (h.fresh entry hentry hphase) hsome
  | @claimed entry d hentry hphase hdecision =>
    -- what is claimed is prepared, and a claim comes from a handle that was asked
    refine ⟨?_, fun other hother hsubmitted => ?_, fun other hother _ => ?_, fun _ _ _ => ?_⟩
    · simpa using h.announced
    · obtain rfl : _ = other := Option.some.inj hother
      cases hphase.symm.trans hsubmitted
    · exact h.prepared entry hentry hphase
    · exact hclaim d rfl
  | @accepted entry result hentry hphase =>
    have hnone : v.handle = none := h.fresh entry hentry hphase
    refine ⟨fun _ => ⟨result, by simp⟩, fun other hother hsubmitted => ?_,
      fun _ _ _ => Option.some_ne_none _, fun other hother hdecision => ?_⟩
    · obtain rfl : _ = other := Option.some.inj hother
      contradiction
    · obtain rfl : _ = other := Option.some.inj hother
      have hasked := h.decided entry hentry hdecision
      rw [View.asked, hnone] at hasked
      contradiction
  | reported hentry => exact h.extend _ _
  | released hdelivery hqueue => exact h.extend [] _
  | popped hdelivery hqueue => exact h.extend [] _
  | resolved hdelivery => exact h.extend [] _
  | subscribed hdelivery => exact h.extend [] _
  | _ => exact h.extend [] v.delivery

namespace OperationShare

theorem balanced_newcomer (id : OperationId) (listener : Listener) (operation : Operation)
    (payload : List UInt8) : Balanced id (newcomer id listener operation payload) where
  guarded := {
    announced := fun h => absurd rfl h
    fresh := fun _ _ _ => rfl
    prepared := fun entry hentry hphase => by
      obtain rfl : _ = entry := Option.some.inj hentry
      contradiction
    decided := fun entry hentry hdecision => by
      obtain rfl : _ = entry := Option.some.inj hentry
      exact absurd rfl hdecision }
  executes := by simp [newcomer, Frame.executes, Upcall.executes]
  decides := by simp [newcomer, Frame.decides, Upcall.decides]

theorem sends_resume (id : OperationId) {u : Upcall} {frames : List Frame} (h : u.Resumes frames) :
    frames.countP (Frame.executes id) = 0 ∧ frames.countP (Frame.decides id) = 0 := by
  cases h <;> exact ⟨rfl, rfl⟩

theorem Balanced.step {id : OperationId} {d d' : OperationShare} (h : Balanced id d)
    (hone : d.enlistings = 1) (hone' : d'.enlistings = 1) (step : Step id d d') :
    Balanced id d' := by
  obtain ⟨guarded, executes, decides⟩ := h
  cases step with
  | @answered v before after n queued begun turns answers standing u a hu =>
    obtain ⟨hexecutes, hdecides⟩ := sends_resume id (u.resumes a)
    refine ⟨guarded, ?_, ?_⟩
    · simpa [hexecutes, Frame.executes] using executes
    · simpa [hdecides, Frame.decides] using decides
  | @moved v v' t y before after n queued begun turns answers standing touch hroom =>
    have hknown : y.enlisted = false := unenlisted hone hone'
    have hexecutes := touch.executes hknown
    have hdecides := touch.decides hknown guarded.fresh
    simp only [List.countP_append] at executes decides
    refine ⟨touch.guarded hknown guarded fun decision ht => ?_, ?_, ?_⟩
    · -- the claim is itself counted, so the handle was asked
      subst ht
      have hheld : heldFor id (.claim id decision) = [.todo (.claim id decision)] := by
        simp [heldFor, Frame.about]
      rw [hheld, List.countP_singleton, Frame.decides, if_pos (decide_eq_true rfl)] at decides
      cases hasked : v.asked with
      | true => rfl
      | false =>
        rw [hasked, Bool.toNat_false] at decides
        omega
    · simp only [List.countP_append]
      omega
    · simp only [List.countP_append]
      omega

end OperationShare

theorem ClientThreads.balanced_run (config : Config) (schedule : List Choice) (id : OperationId)
    (hgiven : (run config schedule).given.length < 2 ^ 64 - 1) :
    (run config schedule).share id = .blank ∨ ((run config schedule).share id).Balanced id :=
  (share_induction (P := fun d => d.Balanced id) (OperationShare.balanced_newcomer id)
    (fun _ _ h hone hone' step => h.step hone hone' step) schedule
    (count_given_le config schedule id hgiven)).imp_right And.right

/-! ## What is handed over -/

/-- The message that a call out hands to the channel, if it hands over one. -/
def Client.Upcall.message? : Upcall → Option Outbound
  | .send m => some m
  | _ => none

/-- The messages about an operation that were handed to the channel. -/
def ClientThreads.sends (s : ClientThreads) (id : OperationId) : List Outbound :=
  (s.begun id).filterMap Upcall.message?

/-- The message that a task hands to the channel, if it hands over one. -/
def Client.Task.departing : Task → List Outbound
  | .raise (.send m) => [m]
  | _ => []

theorem Touch.departing {id : OperationId} {v v' : View} {t : Task} {y : Yield}
    (touch : Touch id v t v' y) :
    y.began.filterMap Upcall.message? = t.departing.filter (·.id = id) := by
  cases touch with
  | @raised u hu => cases u <;> simp_all [Upcall.message?, Task.departing, Upcall.about]
  | aside hframe hcause =>
    cases t with
    | raise u => cases u <;> simp_all [Task.departing, Frame.about, Upcall.about]
    | _ => rfl
  | _ => rfl

theorem ClientThreads.sends_marks (c : Client) (t : Task) (id : OperationId) :
    ((c.marks t).flatMap (Mark.begun id)).filterMap Upcall.message? =
      t.departing.filter (·.id = id) := by
  rw [(marks_digest c t id).2.2.1]
  exact (c.perform_touch id t).departing

/-- Every call out among those that concern an operation concerns it. -/
theorem ClientThreads.about_of_mem_begun {s : ClientThreads} {id : OperationId} {u : Upcall}
    (h : u ∈ s.begun id) : u.about id = true := by
  obtain ⟨mark, _, hmark⟩ := List.mem_flatMap.mp h
  cases mark with
  | moved t shown =>
    obtain ⟨e, _, he⟩ := List.mem_filterMap.mp hmark
    cases e <;> simp_all [Event.begunAbout]
    exact he.2 ▸ he.1
  | enlisted i => contradiction
  | answered u a => contradiction

/-- Submissions and decisions among the messages are those among the calls out. -/
theorem countP_message {id : OperationId} {l : List Upcall} (h : ∀ u ∈ l, u.about id = true) :
    (l.filterMap Upcall.message?).countP (fun m => !m.isDecision) =
        l.countP (Upcall.executes id) ∧
      (l.filterMap Upcall.message?).countP Outbound.isDecision = l.countP (Upcall.decides id) := by
  induction l with
  | nil => exact ⟨rfl, rfl⟩
  | cons u rest ih =>
    obtain ⟨hexecutes, hdecides⟩ := ih fun w hw => h w (List.mem_cons_of_mem u hw)
    have hu := h u List.mem_cons_self
    cases u with
    | send m =>
      have hid : m.id = id := of_decide_eq_true hu
      have hmessage : Upcall.message? (.send m) = some m := rfl
      rw [List.filterMap_cons_some hmessage, List.countP_cons, List.countP_cons,
        List.countP_cons, List.countP_cons, hexecutes, hdecides]
      cases m <;>
        simp_all [Outbound.isDecision, Upcall.executes, Upcall.decides, Outbound.id]
    | _ =>
      simpa [List.filterMap_cons, Upcall.message?, Upcall.executes, Upcall.decides] using
        ⟨hexecutes, hdecides⟩

/-- What the client can have handed over about an operation. -/
structure ClientThreads.Sparing (s : ClientThreads) (id : OperationId) : Prop where
  submissions : (s.sends id).countP (fun m => !m.isDecision) ≤ 1
  decisions : (s.sends id).countP Outbound.isDecision ≤ 1
  prepared : 0 < (s.sends id).countP Outbound.isDecision → ∃ result, .prepared result ∈ s.queued id

/-- **A client submits an operation once and decides it once at most**, and decides it only after the
news that it is prepared was queued. -/
theorem ClientThreads.sparing_run (config : Config) (schedule : List Choice) (id : OperationId)
    (hgiven : (run config schedule).given.length < 2 ^ 64 - 1) :
    (run config schedule).Sparing id := by
  obtain ⟨hsubmissions, hdecisions⟩ :=
    countP_message fun u (hu : u ∈ (run config schedule).begun id) => about_of_mem_begun hu
  rcases balanced_run config schedule id hgiven with hblank | ⟨guarded, executes, decides⟩
  · have hbegun : (run config schedule).begun id = [] := congrArg OperationShare.begun hblank
    constructor <;> simp [sends, hbegun]
  · have hbegun : ((run config schedule).share id).begun = (run config schedule).begun id := rfl
    rw [hbegun] at executes decides
    have hasked := Bool.toNat_le ((run config schedule).share id).view.asked
    refine ⟨?_, ?_, fun hpositive => guarded.announced fun hnone => ?_⟩
    · rw [sends, hsubmissions]
      omega
    · rw [sends, hdecisions]
      omega
    · -- without a handle nobody was asked, and so nothing was decided
      rw [sends, hdecisions] at hpositive
      rw [View.asked, hnone] at decides
      simp only [Bool.toNat_false] at decides
      omega

end TwoPhase
