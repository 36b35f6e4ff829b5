import TwoPhase.Proofs.RecordingClient.Outcomes
import TwoPhase.Proofs.RecordingClient.Sends
/-
What comes of a request to decide.

A request is a frame on the stack of a recording client, on its own or above a listener that is being
called, and it has come back once the stack is down to what was below it (`Returns`). The two guards of a
decision agree (`Visited.guarded`), so what the request comes to depends only on whether the handle was
asked before, whether the operation is pending, and whether the channel takes the message. Whatever else
happens until it comes back tells people things, and sends nothing (`Telling`).
-/

set_option autoImplicit false

namespace TwoPhase

open Client (Task Frame Upcall Answer Event)

namespace RecordingClient

/-! ## Calls that come back -/

/-- The moves that a thread makes until its stack is down to a floor. -/
inductive Returns (habit : Listener → OperationId → Value → Policy) (floor : List Frame) :
    RecordingClient → RecordingClient → Prop
  | back {b : RecordingClient} (h : b.stack = floor) : Returns habit floor b b
  | on {b b' : RecordingClient} {f : Frame} {above : List Frame} (hstack : b.stack = f :: (above ++ floor))
      (h : Returns habit floor (b.move habit) b') : Returns habit floor b b'

variable {habit : Listener → OperationId → Value → Policy}

/-- A move leaves alone what is below the topmost frame. -/
theorem move_above {b : RecordingClient} {f : Frame} {above floor : List Frame}
    (hstack : b.stack = f :: (above ++ floor)) :
    ∃ first, (b.move habit).stack = first ++ (above ++ floor) := by
  rcases f with t | u
  · exact ⟨_, by rw [move_todo hstack]⟩
  · exact ⟨_, by rw [move_inside hstack]⟩

namespace Returns

variable {floor : List Frame} {b b' : RecordingClient}

theorem stack (h : Returns habit floor b b') : b'.stack = floor := by
  induction h with
  | back h => exact h
  | on _ _ ih => exact ih

theorem iterate (h : Returns habit floor b b') : ∃ n, (move habit)^[n] b = b' := by
  induction h with
  | back h => exact ⟨0, rfl⟩
  | on _ _ ih =>
    obtain ⟨n, hn⟩ := ih
    exact ⟨n + 1, hn⟩

theorem past (h : Returns habit floor b b') : b.past <+: b'.past := by
  obtain ⟨n, rfl⟩ := h.iterate
  exact past_iterate b n

/-- A call comes back in one way. -/
theorem unique {b'' : RecordingClient} (h : Returns habit floor b b') (h' : Returns habit floor b b'') :
    b' = b'' := by
  induction h with
  | back h =>
    cases h' with
    | back _ => rfl
    | on hstack _ => exact absurd (congrArg List.length (h.symm.trans hstack)) (by simp; omega)
  | on hstack _ ih =>
    cases h' with
    | back h => exact absurd (congrArg List.length (h.symm.trans hstack)) (by simp; omega)
    | on _ h' => exact ih h'

/-- What comes back to somewhere above the floor goes on from there. -/
theorem trans {above : List Frame} {b'' : RecordingClient} (h : Returns habit (above ++ floor) b b')
    (h' : Returns habit floor b' b'') : Returns habit floor b b'' := by
  induction h with
  | back _ => exact h'
  | @on b _ f others hstack _ ih =>
    exact @Returns.on habit floor b _ f (others ++ above) (by rw [hstack, List.append_assoc]) (ih h')

end Returns

/-- **Every call comes back.** -/
theorem returns_of_above (floor : List Frame) (b : RecordingClient) (above : List Frame)
    (hstack : b.stack = above ++ floor) : ∃ b', Returns habit floor b b' := by
  -- every move lowers the labor, whatever stands on the stack
  generalize hlabor : b.labor = n
  induction n using Nat.strongRecOn generalizing b above with
  | ind n ih =>
    cases above with
    | nil => exact ⟨b, .back hstack⟩
    | cons f above =>
      obtain ⟨first, hfirst⟩ := @move_above habit b f above floor hstack
      have hless := @labor_move habit b (by rw [hstack]; exact List.cons_ne_nil _ _)
      rw [← List.append_assoc] at hfirst
      obtain ⟨b', h⟩ := ih (b.move habit).labor (hlabor ▸ hless) (b.move habit) _ hfirst rfl
      exact ⟨b', .on hstack h⟩

/-- Whatever happened until a call came back has happened once the recording client stands still. -/
theorem past_settle {b : RecordingClient} (n : Nat) :
    ((move habit)^[n] b).past <+: (b.settle habit).past := by
  rcases Nat.le_total n b.labor with hle | hle
  · obtain ⟨k, hk⟩ := Nat.exists_eq_add_of_le hle
    rw [settle, hk, Nat.add_comm, Function.iterate_add_apply]
    exact past_iterate _ k
  · -- past its labor a recording client does not move any more
    obtain ⟨k, rfl⟩ := Nat.exists_eq_add_of_le hle
    rw [Nat.add_comm, Function.iterate_add_apply]
    exact iterate_move_nil (@settle_idle habit b) k ▸ List.prefix_refl _

/-! ## Nothing is submitted meanwhile -/

/-- Where no message is being taken in and nothing is being submitted, this stays so, and no identifier
is given. -/
theorem given_move {b : RecordingClient} (h : ∀ f ∈ b.stack, f.isOpening = false) :
    (∀ f ∈ (b.move habit).stack, f.isOpening = false) ∧
      (b.move habit).clientThreads.given = b.clientThreads.given := by
  rcases hstack : b.stack with _ | ⟨t | u, rest⟩
  · rw [move_nil hstack]
    exact ⟨h, rfl⟩
  · rw [hstack] at h
    have htop := h (.todo t) List.mem_cons_self
    rw [move_todo hstack]
    refine ⟨fun f hf => ?_, ?_⟩
    · simp only [List.mem_append] at hf
      rcases hf with (hf | hf) | hf
      · obtain ⟨i, decision, -, rfl⟩ := mem_wishes hf
        rfl
      · cases b.client.perform_leaves t f hf with
        | encoded => contradiction
        | inbound => contradiction
        | _ => rfl
      · exact h f (List.mem_cons_of_mem _ hf)
    · have hnone : b.client.allots t = none := by
        cases t <;> first | rfl | contradiction
      simp [clientThreads, ClientThreads.given, Client.flatMap_marks, hnone]
  · rw [hstack] at h
    rw [move_inside hstack]
    refine ⟨fun f hf => ?_, by simp [clientThreads, ClientThreads.given, Mark.given]⟩
    rcases List.mem_append.mp hf with hf | hf
    · exact opening_resume (u.resumes _) f hf
    · exact h f (List.mem_cons_of_mem _ hf)

theorem given_settle {b : RecordingClient} (h : ∀ f ∈ b.stack, f.isOpening = false) :
    (b.settle habit).clientThreads.given = b.clientThreads.given := by
  rw [settle]
  generalize b.labor = n
  induction n generalizing b with
  | zero => rfl
  | succ n ih =>
    obtain ⟨hstill, hgiven⟩ := @given_move habit b h
    rw [Function.iterate_succ_apply, ih hstill, hgiven]

/-- An end that was queued is the one that listener and handle have heard of once the recording client
stands still. -/
theorem told_of_queued {config : Config} {b : RecordingClient} (h : Visited habit config b)
    (hidle : b.stack = []) (hgiven : b.clientThreads.given.length < 2 ^ 64 - 1) {id : OperationId}
    {outcome : Outcome} (hqueued : outcome.callback ∈ b.clientThreads.queued id) :
    b.outcomes id = [outcome] ∧ (Handle.live id).outcome? b.client = some outcome := by
  rcases h.books hgiven id with hblank | ⟨⟨delivery, alive⟩, _, accounted⟩
  · have hnone : b.clientThreads.queued id = [] := congrArg OperationShare.queued hblank
    rw [hnone] at hqueued
    contradiction
  have hframes : (b.clientThreads.share id).frames = [] := by
    simp [ClientThreads.share, ClientThreads.frames, clientThreads, hidle]
  -- nothing is on its way, so whatever was queued was called
  have hcalls : b.clientThreads.calls id = b.clientThreads.queued id := alive.calls_of_quiet hframes
  have hle : (finals (b.clientThreads.queued id)).length ≤ 1 := OperationShare.length_finals_le alive.life
  have hmem : outcome ∈ finals (b.clientThreads.queued id) :=
    List.mem_filterMap.mpr ⟨outcome.callback, hqueued, by cases outcome <;> rfl⟩
  have hone : b.outcomes id = [outcome] := by
    rw [outcomes, hcalls]
    obtain ⟨other, hother⟩ := List.length_eq_one_iff.mp
      (Nat.le_antisymm hle (List.length_pos_of_mem hmem))
    rw [hother] at hmem ⊢
    rw [List.mem_singleton.mp hmem]
  refine ⟨hone, ?_⟩
  show (b.client.cell id).outcome = some outcome
  rw [Client.outcome_cell]
  exact accounted.told alive hframes hmem

/-! ## Telling -/

end RecordingClient

/-- Whether a callback brings the news that an operation is prepared. -/
def Callback.isPrepared : Callback → Bool
  | prepared _ => true
  | _ => false

/-- Whether a frame tells someone something, and nobody who would decide. Whom a deliverer calls
depends on the mailbox, so it counts only where that is known. -/
def Client.Frame.tells (id : OperationId) : Frame → Bool
  | .todo (.announce _) | .todo (.called ..) | .todo (.resolve ..) => true
  | .todo (.drain i) => i = id
  | .todo (.raise (.notify _ callback)) => !callback.isPrepared
  | .todo (.raise (.send _)) | .inside (.send _) => false
  | .todo (.raise _) | .inside _ => true
  | _ => false

namespace RecordingClient

variable {habit : Listener → OperationId → Value → Policy}

/-- Some frames do nothing but tell, and the mailbox that they may hand out holds nothing for anyone to
decide. -/
structure Telling (id : OperationId) (above : List Frame) (deliveries : Table Delivery) : Prop where
  frames : ∀ f ∈ above, f.tells id = true
  mailbox : .todo (.drain id) ∈ above → ∀ delivery, deliveries.get? id = some delivery →
    ∀ callback ∈ delivery.mailbox.queue, callback.isPrepared = false

namespace Telling

variable {id : OperationId} {f : Frame} {above : List Frame} {deliveries : Table Delivery}

theorem tail (h : Telling id (f :: above) deliveries) : Telling id above deliveries :=
  ⟨fun g hg => h.frames g (List.mem_cons_of_mem f hg),
    fun hdrain => h.mailbox (List.mem_cons_of_mem f hdrain)⟩

theorem append {first : List Frame} (hfirst : ∀ f ∈ first, f.tells id = true ∧ f ≠ .todo (.drain id))
    (h : Telling id above deliveries) : Telling id (first ++ above) deliveries := by
  refine ⟨fun f hf => ?_, fun hdrain => ?_⟩
  · rcases List.mem_append.mp hf with hf | hf
    · exact (hfirst f hf).1
    · exact h.frames f hf
  · rcases List.mem_append.mp hdrain with hf | hf
    · exact absurd rfl (hfirst _ hf).2
    · exact h.mailbox hf

/-- A delivery may be changed where nothing is put into its mailbox. -/
theorem insert {i : OperationId} {delivery delivery' : Delivery}
    (h : Telling id above deliveries) (hdelivery : deliveries.get? i = some delivery)
    (hqueue : delivery'.mailbox.queue ⊆ delivery.mailbox.queue) :
    Telling id above (deliveries.insert i delivery') := by
  refine ⟨h.frames, fun hdrain found hfound callback hcallback => ?_⟩
  rw [Table.get?_insert] at hfound
  split at hfound
  · rename_i hid
    obtain rfl : delivery' = found := Option.some.inj hfound
    exact h.mailbox hdrain delivery (hid ▸ hdelivery) callback (hqueue hcallback)
  · exact h.mailbox hdrain found hfound callback hcallback

/-- An outcome is published, and those who wait for it are told. -/
theorem resolve {c : Client} {i : OperationId} {outcome : Outcome}
    (h : Telling id above c.deliveries) :
    (c.resolve i outcome).client.pending = c.pending ∧
      Telling id ((c.resolve i outcome).frames ++ above) (c.resolve i outcome).client.deliveries := by
  cases hdelivery : c.deliveries.get? i with
  | none =>
    have hresolve : c.resolve i outcome = ⟨c, [], []⟩ := by simp [Client.resolve, hdelivery]
    rw [hresolve]
    exact ⟨rfl, h⟩
  | some delivery =>
    let published : Delivery :=
      { delivery with outcome := (delivery.outcome.resolve outcome).1 }
    have hresolve : c.resolve i outcome =
        ⟨{ c with deliveries := c.deliveries.insert i published },
          (delivery.outcome.resolve outcome).2.map fun tag =>
            .todo (.raise (.outcome i tag outcome)), []⟩ := by
      simp [Client.resolve, hdelivery, published]
    rw [hresolve]
    refine ⟨rfl, append (fun f hf => ?_) (h.insert hdelivery (List.Subset.refl _))⟩
    obtain ⟨tag, _, rfl⟩ := List.mem_map.mp hf
    exact ⟨rfl, fun h => by cases h⟩

/-- A deliverer hands out the next callback, which leaves nothing to decide, or is released. -/
theorem drain {c : Client} (h : Telling id (.todo (.drain id) :: above) c.deliveries) :
    (c.drain id).client.pending = c.pending ∧
      Telling id ((c.drain id).frames ++ above) (c.drain id).client.deliveries := by
  cases hdelivery : c.deliveries.get? id with
  | none =>
    have hdrain : c.drain id = ⟨c, [], []⟩ := by simp [Client.drain, hdelivery]
    rw [hdrain]
    exact ⟨rfl, h.tail⟩
  | some delivery =>
    have hqueue := h.mailbox List.mem_cons_self delivery hdelivery
    rcases hmailbox : delivery.mailbox.queue with _ | ⟨callback, rest⟩
    · let released : Delivery := { delivery with mailbox := .idle }
      have hdrain : c.drain id =
          ⟨{ c with deliveries := c.deliveries.insert id released }, [], []⟩ := by
        simp [Client.drain, hdelivery, Mailbox.pop, hmailbox, released, Mailbox.idle]
      rw [hdrain]
      exact ⟨rfl, h.tail.insert hdelivery (List.nil_subset _)⟩
    · let popped : Delivery :=
        { delivery with mailbox := { delivery.mailbox with queue := rest } }
      have hdrain : c.drain id =
          ⟨{ c with deliveries := c.deliveries.insert id popped },
            [.todo (.raise (.notify id callback)), .todo (.drain id)], []⟩ := by
        simp [Client.drain, hdelivery, Mailbox.pop, hmailbox, popped]
      rw [hmailbox] at hqueue
      rw [hdrain]
      refine ⟨rfl, @append _ _ _ [_] (fun f hf => ?_) (h.insert hdelivery ?_)⟩
      · rw [List.mem_singleton.mp hf]
        exact ⟨by simp [Frame.tells, hqueue callback List.mem_cons_self], fun h => by cases h⟩
      · rw [hmailbox]
        exact List.subset_cons_self _ _

/-- What is told on top of a stack neither decides nor touches the table. -/
theorem perform {t : Task} {c : Client} (h : Telling id (.todo t :: above) c.deliveries) :
    wishes habit c t = [] ∧ (c.perform t).client.pending = c.pending ∧
      Telling id ((c.perform t).frames ++ above) (c.perform t).client.deliveries := by
  have htells := h.frames _ List.mem_cons_self
  cases t with
  | announce o => exact ⟨rfl, rfl, h.tail.append (by simp [Client.perform, Frame.tells])⟩
  | called i callback panicked =>
    refine ⟨rfl, rfl, h.tail.append fun f hf => ?_⟩
    cases houtcome : callback.outcome? with
    | none => simp [Client.perform, Client.called, houtcome] at hf
    | some outcome =>
      obtain rfl : f = _ := by simpa [Client.perform, Client.called, houtcome] using hf
      exact ⟨rfl, fun h => by cases h⟩
  | resolve i outcome => exact ⟨rfl, h.tail.resolve⟩
  | drain i =>
    obtain rfl : i = id := of_decide_eq_true htells
    exact ⟨rfl, h.drain⟩
  | raise u =>
    refine ⟨?_, rfl, @append _ _ _ [.inside u] (fun f hf => ?_) h.tail⟩
    · -- a listener that hears of an end has nothing left to wish for
      cases u with
      | notify i callback =>
        cases callback with
        | prepared result => contradiction
        | _ => rfl
      | _ => rfl
    · rw [List.mem_singleton.mp hf]
      cases u with
      | send m => contradiction
      | _ => exact ⟨rfl, fun h => by cases h⟩
  | _ => contradiction

theorem resume {u : Upcall} {frames : List Frame} (hresumes : u.Resumes frames)
    (h : Telling id (.inside u :: above) deliveries) : Telling id (frames ++ above) deliveries := by
  have htells := h.frames _ List.mem_cons_self
  refine h.tail.append fun f hf => ?_
  cases hresumes with
  | called =>
    rw [List.mem_singleton.mp hf]
    exact ⟨rfl, fun h => by cases h⟩
  | _ => contradiction

end Telling

/-- The end of an operation is announced, and handed out where nothing waits before it. -/
theorem telling_end {id : OperationId} {o : Observation} {delivery : Delivery} {failure : Failure}
    {deliveries : Table Delivery}
    (hidle : delivery.mailbox.delivering = false → delivery.mailbox.queue = [])
    (hdelivery : (deliveries.get? id).map (·.mailbox) =
      some (delivery.mailbox.enqueue (.failed failure)).1) :
    Telling id (.todo (.announce o) :: Client.drainIf id (!delivery.mailbox.delivering))
      deliveries := by
  refine ⟨fun f hf => ?_, fun hdrain found hfound callback hcallback => ?_⟩
  · rcases List.mem_cons.mp hf with rfl | hf
    · rfl
    · cases hdelivering : delivery.mailbox.delivering with
      | false =>
        rw [hdelivering] at hf
        rw [List.mem_singleton.mp hf]
        exact decide_eq_true rfl
      | true =>
        rw [hdelivering] at hf
        contradiction
  · cases hdelivering : delivery.mailbox.delivering with
    | false =>
      have hmailbox : found.mailbox = (delivery.mailbox.enqueue (.failed failure)).1 := by
        simpa [hfound] using hdelivery
      rw [hmailbox, Mailbox.queue_enqueue, hidle hdelivering, List.nil_append] at hcallback
      rw [List.mem_singleton.mp hcallback]
      rfl
    | true => simp [hdelivering, Client.drainIf] at hdrain

/-- **Telling sends nothing, and takes nothing out of the table.** -/
theorem Returns.told {floor : List Frame} {b b' : RecordingClient} (h : Returns habit floor b b')
    {id : OperationId} {above : List Frame} (hstack : b.stack = above ++ floor)
    (htelling : Telling id above b.client.deliveries) :
    b'.channel = b.channel ∧ b'.client.pending = b.client.pending := by
  induction h generalizing above with
  | back h => exact ⟨rfl, rfl⟩
  | @on b b' f others hothers _ ih =>
    -- what is above the floor is the frame that moves, and the others
    obtain rfl : above = f :: others := by
      have happend : above ++ floor = (f :: others) ++ floor := hstack.symm.trans hothers
      exact List.append_cancel_right happend
    rcases f with t | u
    · obtain ⟨hwishes, hpending, hstill⟩ := @Telling.perform habit _ _ _ _ htelling
      have hmove := @move_todo habit b _ _ hothers
      rw [hwishes, List.nil_append] at hmove
      have hstack' : (b.move habit).stack = ((b.client.perform t).frames ++ others) ++ floor := by
        rw [hmove, List.append_assoc]
      obtain ⟨hchannel, hsame⟩ := ih hstack' (by rw [hmove]; exact hstill)
      rw [hmove] at hchannel hsame
      exact ⟨hchannel, hsame.trans hpending⟩
    · have hmove := @move_inside habit b _ _ hothers
      have hchannel : (reply b.channel u).2 = b.channel := by
        cases u with
        | send m => cases htelling.frames _ List.mem_cons_self
        | _ => rfl
      have hstack' : (b.move habit).stack = (u.resume (reply b.channel u).1 ++ others) ++ floor := by
        rw [hmove, List.append_assoc]
      obtain ⟨hsame, hpending⟩ := ih hstack' (by rw [hmove]; exact htelling.resume (u.resumes _))
      rw [hmove] at hsame hpending
      exact ⟨hsame.trans hchannel, hpending⟩

/-! ## Requests to decide -/

/-- A request to decide has come back, and its caller was told how it ended. -/
structure Answered (habit : Listener → OperationId → Value → Policy) (b : RecordingClient)
    (id : OperationId) (d : Decision) (rest : List Frame) (b' : RecordingClient)
    (result : Except ClientError Unit) : Prop where
  returns : Returns habit rest b b'
  told : b'.past.getLast? = some (.moved (.decided id d result) [.decision id d result])

theorem Answered.unique {b : RecordingClient} {id : OperationId} {d : Decision} {rest : List Frame}
    {b' b'' : RecordingClient} {result result' : Except ClientError Unit}
    (h : Answered habit b id d rest b' result) (h' : Answered habit b id d rest b'' result') :
    b' = b'' ∧ result = result' := by
  obtain rfl := h.returns.unique h'.returns
  have hlast := Option.some.inj (h.told.symm.trans h'.told)
  simp only [Mark.moved.injEq, Task.decided.injEq, true_and] at hlast
  exact ⟨rfl, hlast.1⟩

/-- Nothing changed that anyone could notice: of the client only the handles, which remember that they
were asked, and show the results that they showed. -/
structure Unnoticed (b b' : RecordingClient) : Prop where
  channel : b'.channel = b.channel
  client : b'.client = { b.client with handles := b'.client.handles }
  results : ∀ i, (b'.client.handles.get? i).map (·.result) =
    (b.client.handles.get? i).map (·.result)
  turns : ∀ i, b'.clientThreads.turns i = b.clientThreads.turns i

/-- What comes of a request to decide, by what it finds. -/
structure Verdict (habit : Listener → OperationId → Value → Policy) (b : RecordingClient) (id : OperationId)
    (d : Decision) (b' : RecordingClient) (result : Except ClientError Unit) : Prop where
  /-- It comes too late if a copy of the handle was asked before, or the operation is pending no
  more. -/
  finalized : result = .error (.alreadyFinalized id) ↔
    b.Asked id ∨ b.client.phaseOf id = none
  /-- Then nothing changes. -/
  unnoticed : result = .error (.alreadyFinalized id) → Unnoticed b b'
  /-- Otherwise the channel decides. What it takes is the decision and nothing else. -/
  taken : result ≠ .error (.alreadyFinalized id) → (b.channel.send (.decide id d)).1 = .ok () →
    result = .ok () ∧ b'.channel = { b.channel with sent := b.channel.sent ++ [.decide id d] }
  /-- If it takes nothing, the operation leaves the table, and its listener and its handle get that
  failure. -/
  refused : result ≠ .error (.alreadyFinalized id) →
    ∀ e, (b.channel.send (.decide id d)).1 = .error e →
      result = .error (.sendFailed id d e.message) ∧ b'.channel = b.channel ∧
        b'.client.phaseOf id = none ∧
        (b.settle habit).outcomes id = [.failed (.sendFailed d e.message)] ∧
        (Handle.live id).outcome? (b.settle habit).client = some (.failed (.sendFailed d e.message))

/-! ## Move by move -/

section

variable {c c' : Client} {channel : RecordingChannel} {past : List Mark} {id : OperationId}
  {d : Decision} {rest floor : List Frame} {b' : RecordingClient}

theorem Returns.todo {t : Task} {frames : List Frame} {shown : List Event} (above : List Frame)
    (hwish : wish? habit c t = none) (hperform : c.perform t = ⟨c', frames, shown⟩)
    (h : Returns habit floor ⟨c', channel, frames ++ (above ++ floor), past ++ c.marks t⟩ b') :
    Returns habit floor ⟨c, channel, .todo t :: (above ++ floor), past⟩ b' := by
  refine .on rfl ?_
  rw [move_todo rfl, wishes, hwish, hperform]
  exact h

theorem Returns.sent {m : Outbound} {result : Except ChannelError Unit}
    {channel' : RecordingChannel} (hsend : channel.send m = (result, channel'))
    (h : Returns habit floor ⟨c, channel', (Upcall.send m).resume (.sent result) ++ floor,
      past ++ [.answered (.send m) (.sent result)]⟩ b') :
    Returns habit floor ⟨c, channel, .inside (.send m) :: floor, past⟩ b' := by
  refine @Returns.on _ _ _ _ _ [] rfl ?_
  rw [move_inside rfl, reply, hsend]
  exact h

theorem Returns.decided (result : Except ClientError Unit) :
    Returns habit rest ⟨c, channel, .todo (.decided id d result) :: rest, past⟩
      ⟨c, channel, rest, past ++ [.moved (.decided id d result) [.decision id d result]]⟩ :=
  .todo [] rfl rfl (.back rfl)

/-- What is to be told is told, and then the caller is. -/
theorem answered_of_telling {b : RecordingClient} {above : List Frame} {result : Except ClientError Unit}
    (hstack : b.stack = above ++ ([.todo (.decided id d result)] ++ rest))
    (htelling : Telling id above b.client.deliveries) :
    ∃ b', Returns habit rest b b' ∧
      b'.past.getLast? = some (.moved (.decided id d result) [.decision id d result]) ∧
      b'.channel = b.channel ∧ b'.client.pending = b.client.pending := by
  obtain ⟨b₁, hreturns⟩ := @returns_of_above habit _ b above hstack
  obtain ⟨hchannel, hpending⟩ := hreturns.told hstack htelling
  have hdecided := hreturns.stack
  obtain ⟨client, channel, stack, past⟩ := b₁
  obtain rfl : stack = _ := hdecided
  exact ⟨_, hreturns.trans (.decided result), List.getLast?_concat, hchannel, hpending⟩

/-- A request that comes too late is answered at once. -/
theorem answered_of_late {handle : LiveHandle} (hhandle : c.handles.get? id = some handle)
    (hlate : handle.asked = true ∨ c.pending.get? id = none) :
    ∃ b', Answered habit ⟨c, channel, .todo (.decide id d) :: rest, past⟩ id d rest b'
        (.error (.alreadyFinalized id)) ∧
      Unnoticed ⟨c, channel, .todo (.decide id d) :: rest, past⟩ b' := by
  cases hasked : handle.asked with
  | true =>
    have hdecide : c.perform (.decide id d) =
        ⟨c, [.todo (.decided id d (.error (.alreadyFinalized id)))],
          [.noted (.decisionRepeated id d)]⟩ := by
      simp [Client.perform, Client.decide, hhandle, hasked]
    refine ⟨_, ⟨.todo [] rfl hdecide (.decided _), List.getLast?_concat⟩, rfl, rfl, fun _ => rfl,
      fun i => ?_⟩
    simp [ClientThreads.turns, clientThreads, Client.marks, Client.allots, hdecide, Mark.turns,
      Event.begunAbout]
  | false =>
    have hnone : c.pending.get? id = none := hlate.resolve_left (by simp [hasked])
    let asked : Client := { c with handles := c.handles.insert id { handle with asked := true } }
    have hdecide : c.perform (.decide id d) = ⟨asked, [.todo (.claim id d)], []⟩ := by
      simp [Client.perform, Client.decide, hhandle, hasked, asked]
    have hclaim : asked.perform (.claim id d) =
        ⟨asked, [.todo (.decided id d (.error (.alreadyFinalized id)))], []⟩ := by
      simp [Client.perform, Client.claim, hnone, asked]
    refine ⟨_, ⟨.todo [] rfl hdecide (.todo [] rfl hclaim (.decided _)), List.getLast?_concat⟩, rfl,
      rfl, fun i => ?_, fun i => ?_⟩
    · by_cases hid : i = id
      · simp [asked, Table.get?_insert, hid, hhandle]
      · simp [asked, Table.get?_insert, hid]
    · simp [ClientThreads.turns, clientThreads, Client.marks, Client.allots, hdecide, hclaim, Mark.turns,
        Event.begunAbout]

/-- A request that does not come too late is handed to the channel. -/
theorem handed_over {handle : LiveHandle} (hhandle : c.handles.get? id = some handle)
    (hasked : handle.asked = false) {entry : Pending} (hentry : c.pending.get? id = some entry)
    (hphase : entry.phase = .prepared) (hdecision : entry.decision = none)
    {result : Except ChannelError Unit} {channel' : RecordingChannel}
    (hsend : channel.send (.decide id d) = (result, channel')) :
    ∃ c' past', c'.pending.get? id = some { entry with decision := some d } ∧
      c'.deliveries = c.deliveries ∧ ∀ b',
        Returns habit rest ⟨c', channel', .todo (.decisionSent id d result) :: rest, past'⟩ b' →
          Returns habit rest ⟨c, channel, .todo (.decide id d) :: rest, past⟩ b' := by
  let asked : Client := { c with handles := c.handles.insert id { handle with asked := true } }
  have hdecide : c.perform (.decide id d) = ⟨asked, [.todo (.claim id d)], []⟩ := by
    simp [Client.perform, Client.decide, hhandle, hasked, asked]
  let claimed : Client :=
    { asked with pending := asked.pending.insert id { entry with decision := some d } }
  have hclaim : asked.perform (.claim id d) =
      ⟨claimed, [.todo (.raise (.send (.decide id d)))], []⟩ := by
    simp [Client.perform, Client.claim, hentry, hphase, hdecision, asked, claimed]
  have hresume : (Upcall.send (.decide id d)).resume (.sent result) =
      [.todo (.decisionSent id d result)] := by
    cases d <;> rfl
  refine ⟨claimed, past ++ c.marks (.decide id d) ++ asked.marks (.claim id d) ++
    claimed.marks (.raise (.send (.decide id d))) ++
      [.answered (.send (.decide id d)) (.sent result)],
    by simp [claimed, Table.get?_insert], rfl, fun b' h => ?_⟩
  refine .todo [] rfl hdecide (.todo [] rfl hclaim (.todo [] rfl rfl (.sent hsend ?_)))
  rw [hresume]
  exact h

/-- A decision that the channel takes is the only thing that it takes. -/
theorem answered_of_taken {handle : LiveHandle} (hhandle : c.handles.get? id = some handle)
    (hasked : handle.asked = false) {entry : Pending} (hentry : c.pending.get? id = some entry)
    (hphase : entry.phase = .prepared) (hdecision : entry.decision = none)
    {channel' : RecordingChannel} (hsend : channel.send (.decide id d) = (.ok (), channel')) :
    ∃ b', Answered habit ⟨c, channel, .todo (.decide id d) :: rest, past⟩ id d rest b' (.ok ()) ∧
      b'.channel = channel' := by
  obtain ⟨c', past', _, _, hhanded⟩ :=
    @handed_over habit c channel past id d rest handle hhandle hasked entry hentry hphase hdecision
      _ _ hsend
  let sent : RecordingClient := ⟨c', channel',
    [.todo (.announce (.decisionSent id d))] ++ ([.todo (.decided id d (.ok ()))] ++ rest),
    past' ++ c'.marks (.decisionSent id d (.ok ()))⟩
  have htelling : Telling id [.todo (.announce (.decisionSent id d))] sent.client.deliveries := by
    refine ⟨fun f hf => ?_, fun h => ?_⟩
    · rw [List.mem_singleton.mp hf]
      rfl
    · cases List.mem_singleton.mp h
  obtain ⟨b', hreturns, htold, hchannel, _⟩ :=
    @answered_of_telling habit id d rest sent _ _ rfl htelling
  exact ⟨b', ⟨hhanded b' (.todo [] rfl rfl hreturns), htold⟩, hchannel⟩

/-- An operation that fails while its caller waits leaves the table, and its listener is owed the
failure. -/
theorem answered_of_finish {entry : Pending} (hentry : c.pending.get? id = some entry)
    (hphase : entry.phase = .prepared) {delivery : Delivery}
    (hdelivery : c.deliveries.get? id = some delivery)
    (hidle : delivery.mailbox.delivering = false → delivery.mailbox.queue = []) (f : Failure)
    (kind : String) (result : Except ClientError Unit) :
    ∃ b', Returns habit rest ⟨c, channel, .todo (.finish id (.failed f) kind) ::
        ([.todo (.decided id d result)] ++ rest), past⟩ b' ∧
      b'.past.getLast? = some (.moved (.decided id d result) [.decision id d result]) ∧
      b'.channel = channel ∧ b'.client.phaseOf id = none ∧ .failed f ∈ b'.clientThreads.queued id := by
  let owed : Delivery := { delivery with mailbox := (delivery.mailbox.enqueue (.failed f)).1 }
  let finished : Client :=
    { c.without id with deliveries := (c.without id).deliveries.insert id owed }
  have hallows : entry.phase.allows (Client.finalPhase (.failed f)) = true := by
    rw [hphase]
    rfl
  have hfinish : c.perform (.finish id (.failed f) kind) =
      ⟨finished, .todo (.announce (.failed id f)) ::
        Client.drainIf id (!delivery.mailbox.delivering), [.queued id (.failed f)]⟩ := by
    have henqueue := @Client.enqueue_of_found (c.without id) id delivery hdelivery (.failed f)
    rw [Client.perform, Client.finish_of_allows hentry hallows]
    show Client.Stride.mk ((c.without id).enqueue id (.failed f)).1
      (_ :: Client.drainIf id ((c.without id).enqueue id (.failed f)).2) _ = _
    rw [henqueue]
    rfl
  -- what the end leaves above the caller's frame is told first, and then the caller gets its answer
  have htelling := @telling_end id (.failed id f) delivery f finished.deliveries hidle
    (by simp [finished, owed, Table.get?_insert])
  obtain ⟨b', hreturns, htold, hchannel, hpending⟩ := @answered_of_telling habit id d rest
    ⟨finished, channel, _, past ++ c.marks (.finish id (.failed f) kind)⟩ _ result rfl htelling
  refine ⟨b', .todo [_] rfl hfinish hreturns, htold, hchannel, ?_, ?_⟩
  · rw [Client.phaseOf, hpending]
    simp [finished, Client.without, Table.get?_erase]
  · have hmark := hreturns.past.subset (List.mem_append_right past List.mem_cons_self)
    refine List.mem_flatMap.mpr ⟨_, hmark, ?_⟩
    rw [hfinish]
    simp [Mark.queued, Event.queuedFor]

/-- A decision that the channel refuses ends the operation for that reason. -/
theorem answered_of_refused {handle : LiveHandle} (hhandle : c.handles.get? id = some handle)
    (hasked : handle.asked = false) {entry : Pending} (hentry : c.pending.get? id = some entry)
    (hphase : entry.phase = .prepared) (hdecision : entry.decision = none) {delivery : Delivery}
    (hdelivery : c.deliveries.get? id = some delivery)
    (hidle : delivery.mailbox.delivering = false → delivery.mailbox.queue = []) {e : ChannelError}
    (hsend : channel.send (.decide id d) = (.error e, channel)) :
    ∃ b', Answered habit ⟨c, channel, .todo (.decide id d) :: rest, past⟩ id d rest b'
        (.error (.sendFailed id d e.message)) ∧
      b'.channel = channel ∧ b'.client.phaseOf id = none ∧
      .failed (.sendFailed d e.message) ∈ b'.clientThreads.queued id := by
  obtain ⟨c', past', hclaimed, hsame, hhanded⟩ :=
    @handed_over habit c channel past id d rest handle hhandle hasked entry hentry hphase hdecision
      _ _ hsend
  have hin : (c'.count .sendFailures).pending.get? id = some { entry with decision := some d } :=
    hclaimed
  have hfound : (c'.count .sendFailures).deliveries.get? id = some delivery := hsame ▸ hdelivery
  obtain ⟨b', hreturns, htold, hchannel, hgone, hqueued⟩ :=
    @answered_of_finish habit (c'.count .sendFailures) channel
      (past' ++ c'.marks (.decisionSent id d (.error e))) id d rest _ hin hphase _ hfound hidle
      (.sendFailed d e.message) "send_failed" (.error (.sendFailed id d e.message))
  exact ⟨b', ⟨hhanded b' (.todo [] rfl rfl hreturns), htold⟩, hchannel, hgone, hqueued⟩

end

/-! ## What every request comes to -/

/-- An operation with a handle that nobody asked is waiting for its decision, if it is pending. -/
theorem Visited.undecided {config : Config} {b : RecordingClient} (h : Visited habit config b)
    (hgiven : b.clientThreads.given.length < 2 ^ 64 - 1) {id : OperationId} {handle : LiveHandle}
    (hhandle : b.client.handles.get? id = some handle) (hasked : handle.asked = false)
    {entry : Pending} (hentry : b.client.pending.get? id = some entry) :
    entry.phase = .prepared ∧ entry.decision = none := by
  have hguarded := h.guarded hgiven id
  refine ⟨?_, ?_⟩
  · rcases h.books hgiven id with hblank | ⟨⟨delivery, alive⟩, _, _⟩
    · have hnone : b.client.pending.get? id = none :=
        congrArg (fun d : OperationShare => d.view.entry) hblank
      cases hnone.symm.trans hentry
    · have hlife : Life ((b.client.pending.get? id).map (·.phase)) (b.clientThreads.queued id) := alive.life
      rw [hentry, Option.map_some] at hlife
      generalize hphase : entry.phase = phase at hlife
      cases hlife with
      | submitted _ => cases (hguarded.fresh entry hentry hphase).symm.trans hhandle
      | prepared _ => rfl
  · by_contra hdecision
    have hview : (b.client.view id).asked = handle.asked := by
      simp [View.asked, Client.view, hhandle]
    rw [hguarded.decided entry hentry hdecision, hasked] at hview
    contradiction

/-- The end that a request brings about is what listener and handle have heard of in the end. -/
theorem Visited.told_of_answered {config : Config} {b b' : RecordingClient} (h : Visited habit config b)
    (hgiven : b.clientThreads.given.length < 2 ^ 64 - 1) {id : OperationId} {d : Decision}
    {rest : List Frame} (hstack : b.stack = .todo (.decide id d) :: rest)
    (hreturns : Returns habit rest b b') {f : Failure} (hqueued : .failed f ∈ b'.clientThreads.queued id) :
    (b.settle habit).outcomes id = [.failed f] ∧
      (Handle.live id).outcome? (b.settle habit).client = some (.failed f) := by
  have hnothing : ∀ g ∈ b.stack, g.isOpening = false := by
    have htidy := h.tidy
    rw [hstack] at htidy ⊢
    intro g hg
    rcases List.mem_cons.mp hg with rfl | hg
    · rfl
    · exact htidy.opening_below g hg
  obtain ⟨n, rfl⟩ := hreturns.iterate
  refine told_of_queued h.settle (settle_idle b) ?_ ?_
  · rw [given_settle hnothing]
    exact hgiven
  · obtain ⟨mark, hmark, hmem⟩ := List.mem_flatMap.mp hqueued
    exact List.mem_flatMap.mpr ⟨mark, (past_settle n).subset hmark, hmem⟩

/-- **Every request to decide comes back**, with the answer that the two guards and the channel give. -/
theorem Visited.verdict {config : Config} {b : RecordingClient} (h : Visited habit config b)
    (hgiven : b.clientThreads.given.length < 2 ^ 64 - 1) {id : OperationId} {d : Decision}
    {rest : List Frame} (hstack : b.stack = .todo (.decide id d) :: rest) :
    ∃ b' result, Answered habit b id d rest b' result ∧ Verdict habit b id d b' result := by
  obtain ⟨handle, hhandle⟩ := Option.ne_none_iff_exists'.mp (h.handed hgiven id d (by simp [hstack]))
  have hlate : (handle.asked = true ∨ b.client.pending.get? id = none) ↔
      b.Asked id ∨ b.client.phaseOf id = none := by
    have hview : (b.client.view id).asked = handle.asked := by
      simp [View.asked, Client.view, hhandle]
    rw [h.asked_iff hgiven id, hview, Client.phaseOf, Option.map_eq_none_iff]
  obtain ⟨c, channel, stack, past⟩ := b
  obtain rfl : stack = .todo (.decide id d) :: rest := hstack
  by_cases hfinal : handle.asked = true ∨ c.pending.get? id = none
  · obtain ⟨b', hanswered, hunnoticed⟩ :=
      @answered_of_late habit c channel past id d rest handle hhandle hfinal
    exact ⟨b', _, hanswered, iff_of_true rfl (hlate.mp hfinal), fun _ => hunnoticed,
      fun hother => absurd rfl hother, fun hother => absurd rfl hother⟩
  · obtain ⟨hasked, hpending⟩ := not_or.mp hfinal
    have hasked : handle.asked = false := Bool.eq_false_iff.mpr hasked
    obtain ⟨entry, hentry⟩ := Option.ne_none_iff_exists'.mp hpending
    -- the guards agree: a handle that nobody asked finds its entry undecided
    obtain ⟨hphase, hdecision⟩ := h.undecided hgiven hhandle hasked hentry
    rcases channel.send_cases (.decide id d) with hsend | ⟨e, hsend⟩
    · obtain ⟨b', hanswered, hchannel⟩ := @answered_of_taken habit c channel past id d rest handle
        hhandle hasked entry hentry hphase hdecision _ hsend
      refine ⟨b', _, hanswered,
        iff_of_false (fun h => by contradiction) (fun h => hfinal (hlate.mpr h)),
        (fun h => by contradiction), fun _ _ => ⟨rfl, hchannel⟩, fun _ e herror => ?_⟩
      rw [hsend] at herror
      contradiction
    · rcases h.books hgiven id with hblank | ⟨⟨delivery, alive⟩, _, _⟩
      · have hnone : c.pending.get? id = none := congrArg (fun d : OperationShare => d.view.entry) hblank
        exact absurd hnone hpending
      obtain ⟨b', hanswered, hchannel, hgone, hqueued⟩ := @answered_of_refused habit c channel past id d
        rest handle hhandle hasked entry hentry hphase hdecision delivery alive.found
        alive.delivering.idle e hsend
      -- the failure is queued now, and told by the time the recording client stands still
      obtain ⟨houtcomes, houtcome⟩ := h.told_of_answered hgiven rfl hanswered.returns hqueued
      refine ⟨b', _, hanswered, iff_of_false (fun h => by cases h) (fun h => hfinal (hlate.mpr h)),
        (fun h => by cases h), fun _ hok => ?_, fun _ other herror => ?_⟩
      · rw [hsend] at hok
        contradiction
      · rw [hsend] at herror
        obtain rfl : e = other := Except.error.inj herror
        exact ⟨rfl, hchannel, hgone, houtcomes, houtcome⟩

/-- What every caller may rely on about the decision of an operation, at any moment. -/
structure Decisive (habit : Listener → OperationId → Value → Policy) (b : RecordingClient)
    (id : OperationId) : Prop where
  /-- The channel has its submission and one decision at most. -/
  recorded : ∃ payload d, b.sent id <+: [.execute id payload, .decide id d]
  /-- The next move records one message at most, and a decision only while its operation is
  prepared. -/
  prepared : (b.move habit).channel.sent = b.channel.sent ∨
    ∃ m, (b.move habit).channel.sent = b.channel.sent ++ [m] ∧
      (m.isDecision = true → b.client.phaseOf m.id = some .prepared)
  /-- A request to decide, from outside or from inside a callback, comes back with one answer. -/
  answered : ∀ d rest, b.stack = .todo (.decide id d) :: rest →
    ∃ b' result, Answered habit b id d rest b' result ∧ Verdict habit b id d b' result

/-- **Exactly one decision**: at every moment, for every operation. -/
theorem decisive {config : Config} {b : RecordingClient} (h : Visited habit config b)
    (hgiven : b.clientThreads.given.length < 2 ^ 64 - 1) (id : OperationId) : Decisive habit b id where
  recorded := h.sent_in_order hgiven id
  prepared := h.records
  answered _ _ hstack := h.verdict hgiven hstack

/-- An operation that was prepared, whose decision the channel will refuse. -/
def undecidable : RecordingClient :=
  (run (fun _ _ _ => .hold) {} [.execute (.recorder "") ⟨.undefined, [], .discard⟩,
    .deliver (.prepared ⟨1⟩ .undefined), .refuseSends true]).take (.decide ⟨1⟩ .commit)

theorem decisive_of_undecidable :
    Visited (fun _ _ _ => .hold) {} undecidable ∧
      undecidable.clientThreads.given.length < 2 ^ 64 - 1 ∧
      undecidable.stack.length = 1 ∧ (undecidable.channel.send (.commit ⟨1⟩)).1.isOk = false ∧
      Decisive (fun _ _ _ => .hold) undecidable ⟨1⟩ := by
  obtain ⟨hvisited, hidle⟩ := @visited_run (fun _ _ _ => .hold) {} [.execute (.recorder "")
    ⟨.undefined, [], .discard⟩, .deliver (.prepared ⟨1⟩ .undefined), .refuseSends true]
  have hundecidable : Visited (fun _ _ _ => .hold) {} undecidable :=
    hvisited.taken hidle (.decide ⟨1⟩ .commit)
  have hgiven : undecidable.clientThreads.given.length < 2 ^ 64 - 1 := by decide +kernel
  exact ⟨hundecidable, hgiven, by decide +kernel, by decide +kernel,
    decisive hundecidable hgiven ⟨1⟩⟩

end RecordingClient

end TwoPhase
