import TwoPhase.Proofs.Loopback.Labor
import TwoPhase.Rehearsal.Move
/-
Rehearsals over a loopback channel are loopbacks.

A rehearsal has more around its client than a loopback: hooks, recorders and handles by name, replies,
and things to show. Over a loopback channel, with no hooks and a client that the script holds, all of
that is of no account, and what is left is a loopback whose listeners decide as the recorders do
(`Follows`). A move of the loopback takes the rehearsal a few moves, since foreign code is entered and
left there in moves of its own (`Follows.moved`). So where the loopback has come to its end the rehearsal
comes to it as well, and shows it (`Follows.settled`).
-/

set_option autoImplicit false

namespace TwoPhase

namespace Rehearsal

open Client (Task)

variable {σ : Type}

/-! ## What a rehearsal is at a loopback -/

/-- A recorder gets its policy when it is first heard of. -/
def Known (recorders : List (String × Recorder)) : Listener → Prop
  | .recorder name => (recorders.lookup name).isSome = true
  | .waiter _ => True

theorem known_put {recorders : List (String × Recorder)} {name : String} {r : Recorder}
    {listener : Listener} (h : Known recorders listener) :
    Known (Named.put name r recorders) listener := by
  cases listener with
  | waiter n => trivial
  | recorder other =>
    rw [Known, Named.lookup_put]
    split
    · rfl
    · exact h

theorem policies_put {habit : String → Policy} {recorders : List (String × Recorder)}
    (h : ∀ name r, recorders.lookup name = some r → r.policy = habit name) {name : String}
    {r : Recorder} (hr : r.policy = habit name) (other : String) (r' : Recorder)
    (hother : (Named.put name r recorders).lookup other = some r') : r'.policy = habit other := by
  rw [Named.lookup_put] at hother
  split at hother
  · rename_i hsame
    obtain rfl := Option.some.inj hother
    exact hsame ▸ hr
  · exact h other r' hother

/-- What a frame is at a loopback. Foreign code that is about to return is still inside there. -/
def Frame.plain? : Frame → Option Loopback.Frame
  | .client f => some (.client f)
  | .endpoint f => some (.endpoint f)
  | .act (.conclude id p) => some (.conclude id p)
  | .act (.answer (.send m) _) => some (.returning m)
  | .act (.answer u _) | .act (.leave _ u) => some (.client (.inside u))
  | .act (.transmit m _) => some (.client (.inside (.send m)))
  | .act _ => none

/-- What is asked of a frame: nothing is scripted but steps, and foreign code returns. -/
def Frame.Fits (recorders : List (String × Recorder)) : Frame → Prop
  | .client (.todo (.submit _ listener _)) | .client (.todo (.enlist listener _ _)) =>
    Known recorders listener
  | .client (.todo _) | .endpoint _ => True
  | .client (.inside _) => False
  | .act (.conclude ..) | .act (.noteRefusal _) | .act (.give _) => True
  | .act (.answerEndpoint u a) => u.resume a = []
  | .act (.answer (.send _) a) => a = .sent (.ok ())
  | .act (.answer _ a) => a = .returned
  | .act (.leave _ u) => ∀ m, u ≠ .send m
  | .act (.transmit _ error) => error = none
  | .act _ => False

/-- A loopback with the handler of a stage, in which recorders decide as they were told to. -/
def Stage.setting (stage : Stage σ) (store : σ) (habit : String → Policy) (config : Config) :
    Setting σ where
  handler := stage.handler
  store := store
  habit listener _ _ := match listener with
    | .recorder name => habit name
    | .waiter _ => .hold
  clock _ := World.now
  config := config

theorem Frame.Fits.mono {recorders more : List (String × Recorder)} {f : Frame}
    (hmore : ∀ listener, Known recorders listener → Known more listener) (h : f.Fits recorders) :
    f.Fits more := by
  cases f with
  | client f =>
    cases f with
    | inside u => exact h
    | todo t => cases t <;> first | exact hmore _ h | exact h
  | endpoint f => exact h
  | act a =>
    cases a with
    | answer u a => cases u <;> exact h
    | _ => exact h

theorem filterMap_plain_client (frames : List Client.Frame) :
    (frames.map Frame.client).filterMap Frame.plain? = frames.map .client := by
  rw [List.filterMap_map]
  exact congrFun List.filterMap_eq_map frames

theorem filterMap_plain_endpoint (frames : List Endpoint.Frame) :
    (frames.map Frame.endpoint).filterMap Frame.plain? = frames.map .endpoint := by
  rw [List.filterMap_map]
  exact congrFun List.filterMap_eq_map frames

/-- A rehearsal shows a loopback. -/
structure Follows (habit : String → Policy) (w : World σ) (c : Loopback σ) : Prop where
  held : w.connection = .held
  heard : w.receiver = some .client
  unhooked : w.hooks = []
  client : w.client = c.client
  channel : w.channel = .loopback c.isOpen
  endpoint : w.endpoint = c.endpoint
  journal : w.journal = ⟨c.journal, none, false, none⟩
  store : w.store = c.store
  stack : w.stack.filterMap Frame.plain? = c.stack
  fits : ∀ f ∈ w.stack, f.Fits w.recorders
  policies : ∀ name r, w.recorders.lookup name = some r → r.policy = habit name
  known : ∀ id d, c.client.deliveries.get? id = some d → Known w.recorders d.listener
  handles : ∀ name h, w.handles.lookup name = some h →
    ∃ id, h = .live id ∧ c.client.handles.get? id ≠ none

/-- What two rehearsals have in common that differ in their bystanders and their stacks. -/
structure Like (w w' : World σ) : Prop where
  held : w'.connection = w.connection
  heard : w'.receiver = w.receiver
  unhooked : w'.hooks = w.hooks
  client : w'.client = w.client
  channel : w'.channel = w.channel
  endpoint : w'.endpoint = w.endpoint
  journal : w'.journal = w.journal
  store : w'.store = w.store

/-! ## Moves of a rehearsal -/

/-- A rehearsal comes to another one if it is left to itself. -/
def Reaches (stage : Stage σ) (w w' : World σ) : Prop := ∃ n, (fun w => World.move w stage)^[n] w = w'

namespace Reaches

variable {stage : Stage σ} {w w' w'' : World σ}

theorem refl (w : World σ) : Reaches stage w w := ⟨0, rfl⟩

theorem trans (h : Reaches stage w w') (h' : Reaches stage w' w'') : Reaches stage w w'' := by
  obtain ⟨n, rfl⟩ := h
  obtain ⟨m, rfl⟩ := h'
  exact ⟨m + n, Function.iterate_add_apply ..⟩

theorem head (h : Reaches stage (w.move stage) w') : Reaches stage w w' := by
  obtain ⟨n, rfl⟩ := h
  exact ⟨n + 1, rfl⟩

theorem single : Reaches stage w (w.move stage) := head (refl _)

end Reaches

namespace World

variable {stage : Stage σ} {w : World σ} {rest : List Frame}

theorem move_nil (h : w.stack = []) : w.move stage = w := by
  rw [move, h]

theorem move_client {f : Client.Frame} (h : w.stack = .client f :: rest) :
    w.move stage = { w with stack := rest }.moveClient f := by
  rw [move, h]

theorem move_endpoint {f : Endpoint.Frame} (h : w.stack = .endpoint f :: rest) :
    w.move stage = { w with stack := rest }.moveEndpoint stage f := by
  rw [move, h]

theorem move_act {a : Act} (h : w.stack = .act a :: rest) :
    w.move stage = { w with stack := rest }.moveAct stage a := by
  rw [move, h]

/-- What a move of the client shows changes nothing that counts. -/
theorem seeEvents (w : World σ) (events : List Client.Event) :
    ∃ reply seen, events.foldl seeEvent w = { w with reply := reply, seen := seen } := by
  induction events generalizing w with
  | nil => exact ⟨w.reply, w.seen, rfl⟩
  | cons event events ih =>
    rw [List.foldl_cons]
    have hsee : ∃ reply seen, seeEvent w event = { w with reply := reply, seen := seen } := by
      cases event with
      | noted n => exact ⟨w.reply, _, rfl⟩
      | submission id result => exact ⟨_, w.seen, rfl⟩
      | decision id d result => exact ⟨_, w.seen, rfl⟩
      | queued id callback => exact ⟨w.reply, w.seen, rfl⟩
      | began u => exact ⟨w.reply, w.seen, rfl⟩
    obtain ⟨reply, seen, hsee⟩ := hsee
    obtain ⟨reply', seen', hrest⟩ := ih (seeEvent w event)
    exact ⟨reply', seen', by rw [hrest, hsee]⟩

theorem seeNotes (w : World σ) (notes : List Note) :
    ∃ seen, notes.foldl note w = { w with seen := seen } := by
  induction notes generalizing w with
  | nil => exact ⟨w.seen, rfl⟩
  | cons n notes ih =>
    obtain ⟨seen, hrest⟩ := ih (w.note n)
    exact ⟨seen, by rw [List.foldl_cons, hrest]; rfl⟩

theorem moveAct_noteRefusal (w : World σ) (id : OperationId) :
    ∃ seen, w.moveAct stage (.noteRefusal id) = { w with seen := seen } := by
  rw [moveAct]
  split
  · exact ⟨_, rfl⟩
  · exact ⟨w.seen, rfl⟩

/-- Foreign code is entered in a move of its own. -/
theorem move_raise {u : Client.Upcall} (h : w.stack = .client (.todo (.raise u)) :: rest) :
    (w.move stage).move stage = { w with stack := rest }.enter u := by
  rw [move_client h]
  rfl

/-- The observer shows the call or not; then it returns. -/
theorem observe_eq (w : World σ) (o : Observation) : ∃ a seen,
    w.observe o = { w with seen := seen, stack := .act a :: w.stack } ∧
      (a = .leave (observerHook o) (.observe o) ∨ a = .answer (.observe o) .returned) := by
  obtain ⟨client, connection, ⟨shows, logs⟩, channel, receiver, endpoint, journal, store, recorders,
    collectors, captures, captureCount, handles, futures, slots, hooks, stack, reply, seen⟩ := w
  cases shows <;> cases logs
  · exact ⟨_, _, rfl, Or.inr rfl⟩
  · exact ⟨_, _, rfl, Or.inr rfl⟩
  · exact ⟨_, _, rfl, Or.inl rfl⟩
  · exact ⟨_, _, rfl, Or.inl rfl⟩

/-- A sink or a waiter takes a callback in and returns. -/
theorem notify_eq (w : World σ) (id : OperationId) (callback : Callback)
    (hquiet : ∀ d name, w.client.deliveries.get? id = some d → d.listener = .recorder name →
      ∃ severity text, callback = .report severity text) :
    ∃ a collectors slots seen, w.notify id callback =
        { w with
          collectors := collectors, slots := slots, seen := seen, stack := .act a :: w.stack } ∧
      (a = .answer (.notify id callback) .returned ∨
        ∃ name, a = .leave name (.notify id callback)) := by
  cases hdelivery : w.client.deliveries.get? id with
  | none =>
    simp only [notify, hdelivery]
    exact ⟨_, _, _, _, rfl, Or.inl rfl⟩
  | some d =>
    by_cases hreport : ∃ severity text, callback = .report severity text
    · obtain ⟨severity, text, rfl⟩ := hreport
      simp only [notify, hdelivery, tellSink]
      cases d.sink with
      | discard => exact ⟨_, _, _, _, rfl, Or.inl rfl⟩
      | log => exact ⟨_, _, _, _, rfl, Or.inl rfl⟩
      | collector name => exact ⟨_, _, _, _, rfl, Or.inr ⟨_, rfl⟩⟩
    · cases hlistener : d.listener with
      | recorder name => exact absurd (hquiet d name hdelivery hlistener) hreport
      | waiter n =>
        cases callback with
        | report severity text => exact absurd ⟨severity, text, rfl⟩ hreport
        | _ =>
          simp only [notify, hdelivery, hlistener, tellWaiter]
          exact ⟨_, _, _, _, rfl, Or.inl rfl⟩

/-- A recorder takes a callback down. -/
theorem tellRecorder_eq (w : World σ) {name : String} {r : Recorder}
    (hr : w.recorders.lookup name = some r) (id : OperationId) (callback : Callback)
    (hprepared : ∀ result, callback ≠ .prepared result) :
    w.tellRecorder name id callback =
      { w with
        seen := .told name id callback :: w.seen
        recorders := Named.put name (r.hear id callback) w.recorders
        stack := .act (.leave (recorderHook name callback) (.notify id callback)) :: w.stack } := by
  cases callback with
  | prepared result => exact absurd rfl (hprepared result)
  | _ => simp [tellRecorder, see, hr, push]

/-- A recorder that is handed an operation decides from inside the callback, by its policy. -/
theorem tellRecorder_prepared (w : World σ) {name : String} {r : Recorder}
    (hr : w.recorders.lookup name = some r) (id : OperationId) (result : Value) :
    w.tellRecorder name id (.prepared result) =
      { w with
        seen := .told name id (.prepared result) :: w.seen
        recorders := Named.put name (r.hear id (.prepared result)) w.recorders
        handles := Named.put name (.live id) w.handles
        stack := (r.policy.decision?.map fun d =>
            [Frame.client (.todo (.decide id d)), .act (.noteRefusal id)]).getD [] ++
          .act (.leave (recorderHook name (.prepared result)) (.notify id (.prepared result))) ::
            w.stack } := by
  cases hdecision : r.policy.decision? <;> simp [tellRecorder, see, hr, push, keep, hdecision]

theorem takeHook_nil (h : w.hooks = []) (name : String) : w.takeHook name = (w, none) := by
  rw [takeHook, h, Hook.take?]

end World

namespace Follows

variable {habit : String → Policy} {stage : Stage σ} {w : World σ} {c : Loopback σ} {f : Frame}
  {rest : List Frame}

/-- What is replied and shown is of no account. -/
theorem shown (h : Follows habit w c) (reply : Reply) (seen : List Occurrence) :
    Follows habit { w with reply := reply, seen := seen } c :=
  ⟨h.held, h.heard, h.unhooked, h.client, h.channel, h.endpoint, h.journal, h.store, h.stack, h.fits,
    h.policies, h.known, h.handles⟩

/-! ### Frames of no account -/

/-- A frame that is nothing at the loopback may go. -/
theorem drop (h : Follows habit w c) (hstack : w.stack = f :: rest) (hf : f.plain? = none) :
    Follows habit { w with stack := rest } c := by
  refine { h with stack := ?_, fits := fun g hg => h.fits g (hstack ▸ List.mem_cons_of_mem f hg) }
  have hsame := h.stack
  rw [hstack, List.filterMap_cons_none hf] at hsame
  exact hsame

/-- Such a frame does nothing that counts. -/
theorem dropped (h : Follows habit w c) (hstack : w.stack = f :: rest) (hf : f.plain? = none) :
    Follows habit (w.move stage) c ∧ (w.move stage).stack = rest := by
  have hdrop := h.drop hstack hf
  have hfits := h.fits f (hstack ▸ List.mem_cons_self)
  cases f with
  | client f => contradiction
  | endpoint f => contradiction
  | act a =>
    rw [World.move_act hstack]
    cases a with
    | give r => exact ⟨hdrop.shown r w.seen, rfl⟩
    | noteRefusal id =>
      obtain ⟨seen, hnote⟩ := @World.moveAct_noteRefusal σ stage { w with stack := rest } id
      rw [hnote]
      exact ⟨hdrop.shown w.reply seen, rfl⟩
    | answerEndpoint u a =>
      have hnone : u.resume a = [] := hfits
      rw [World.moveAct, World.resumeEndpoint, hnone]
      exact ⟨hdrop, rfl⟩
    | answer u a => cases u <;> contradiction
    | _ => contradiction

variable (stage) in
/-- A rehearsal that is left to itself comes to a frame that counts, or to its end. -/
theorem ready (h : Follows habit w c) : ∃ w', Reaches stage w w' ∧ Follows habit w' c ∧
    (w'.stack = [] ∨ ∃ f rest g, w'.stack = f :: rest ∧ f.plain? = some g) := by
  generalize hframes : w.stack = frames
  induction frames generalizing w with
  | nil => exact ⟨w, .refl w, h, Or.inl hframes⟩
  | cons f rest ih =>
    cases hf : f.plain? with
    | some g => exact ⟨w, .refl w, h, Or.inr ⟨f, rest, g, hframes, hf⟩⟩
    | none =>
      obtain ⟨hmove, hstack⟩ := h.dropped hframes hf
      obtain ⟨w', hreaches, hready⟩ := ih hmove hstack
      exact ⟨w', hreaches.head, hready⟩

/-! ### Moves of the client -/

section

variable {store : σ} {config : Config} {t : Task}

theorem wishes_of_ne {S : Setting σ} {k : Client} (ht : ∀ u, t ≠ .raise u) :
    RecordingClient.wishes S.habit k t = [] := by
  cases hwish : RecordingClient.wish? S.habit k t with
  | none => simp [RecordingClient.wishes, hwish]
  | some wish =>
    obtain ⟨result, rfl⟩ := RecordingClient.wish_eq_some hwish
    exact absurd rfl (ht _)

/-- What a task leaves is fit, if the task was. -/
theorem fits_perform {recorders : List (String × Recorder)} {k : Client}
    (ht : (Frame.client (.todo t)).Fits recorders) (hraise : ∀ u, t ≠ .raise u) :
    ∀ g ∈ (k.perform t).frames, (Frame.client g).Fits recorders := by
  intro g hg
  cases k.perform_leaves t g hg with
  | encoded => exact ht
  | entering => exact absurd rfl (hraise _)
  | @inbound m => cases m <;> exact trivial
  | _ => exact trivial

/-- The client does at a loopback what it does in a rehearsal. -/
theorem performed (h : Follows habit w c) (hstack : w.stack = .client (.todo t) :: rest)
    (ht : ∀ u, t ≠ .raise u) :
    Follows habit (w.move stage) (c.move (stage.setting store habit config)) := by
  have hloopback : c.stack = .client (.todo t) :: rest.filterMap Frame.plain? := by
    rw [← h.stack, hstack]
    rfl
  have htask := h.fits _ (hstack ▸ List.mem_cons_self)
  obtain ⟨reply, seen, hsee⟩ := World.seeEvents
    { w with stack := rest, client := (w.client.perform t).client } (w.client.perform t).events
  have hmove : w.move stage = { w with
      client := (w.client.perform t).client
      stack := (w.client.perform t).frames.map .client ++ rest
      reply := reply
      seen := seen } := by
    rw [World.move_client hstack]
    simp only [World.moveClient, hsee, World.push]
  rw [hmove, Loopback.move_cons hloopback, Loopback.step, wishes_of_ne ht, List.nil_append]
  refine Follows.shown (w := { w with
    client := (w.client.perform t).client
    stack := (w.client.perform t).frames.map .client ++ rest }) ?_ reply seen
  refine { h with client := ?_, stack := ?_, fits := ?_, known := ?_, handles := ?_ }
  · rw [h.client]
  · rw [List.filterMap_append, filterMap_plain_client, h.client]
  · intro g hg
    rcases List.mem_append.mp hg with hg | hg
    · obtain ⟨k, hk, rfl⟩ := List.mem_map.mp hg
      exact fits_perform htask ht k hk
    · exact h.fits g (hstack ▸ List.mem_cons_of_mem _ hg)
  · intro id d hd
    rcases (c.client.perform_touch id t).addressed hd with
      ⟨before, hbefore, hsame, -⟩ | ⟨op, payload, rfl, -⟩
    · exact hsame ▸ h.known id before hbefore
    · exact htask
  · intro name handle hname
    obtain ⟨id, rfl, hid⟩ := h.handles name handle hname
    exact ⟨id, rfl, @OperationShare.handed_move _ _ _ _ _ (c.client.perform_touch id t) .undefined
      (Or.inl hid)⟩

/-- Foreign code is entered, and stands on the stack until it returns. -/
theorem entered {u : Client.Upcall} (h : Follows habit w c)
    (hstack : w.stack = .client (.todo (.raise u)) :: rest) {w' : World σ} (like : Like w w')
    (above : List Frame) (hstack' : w'.stack = above ++ rest)
    (hplain : above.filterMap Frame.plain? = (RecordingClient.wishes
      (stage.setting store habit config).habit c.client (.raise u) ++
        [Client.Frame.inside u]).map Loopback.Frame.client)
    (hfits : ∀ f ∈ above, f.Fits w'.recorders)
    (hknown : ∀ listener, Known w.recorders listener → Known w'.recorders listener)
    (hpolicies : ∀ name r, w'.recorders.lookup name = some r → r.policy = habit name)
    (hhandles : ∀ name handle, w'.handles.lookup name = some handle →
      ∃ id, handle = .live id ∧ c.client.handles.get? id ≠ none) :
    Follows habit w' (c.move (stage.setting store habit config)) := by
  have hloopback : c.stack = .client (.todo (.raise u)) :: rest.filterMap Frame.plain? := by
    rw [← h.stack, hstack]
    rfl
  rw [Loopback.move_cons hloopback]
  refine ⟨like.held.trans h.held, like.heard.trans h.heard, like.unhooked.trans h.unhooked,
    like.client.trans h.client, like.channel.trans h.channel, like.endpoint.trans h.endpoint,
    like.journal.trans h.journal, like.store.trans h.store, ?_, fun f hf => ?_, hpolicies,
    fun id d hd => hknown _ (h.known id d hd), hhandles⟩
  · rw [hstack', List.filterMap_append, hplain]
    rfl
  · rw [hstack'] at hf
    rcases List.mem_append.mp hf with hf | hf
    · exact hfits f hf
    · exact (h.fits f (hstack ▸ List.mem_cons_of_mem _ hf)).mono hknown

/-- The observer is called. -/
theorem observed (h : Follows habit w c) {o : Observation}
    (hstack : w.stack = .client (.todo (.raise (.observe o))) :: rest) :
    Follows habit ({ w with stack := rest }.enter (.observe o))
      (c.move (stage.setting store habit config)) := by
  obtain ⟨a, seen, hobserve, ha⟩ := World.observe_eq { w with stack := rest } o
  rw [World.enter, hobserve]
  refine h.entered hstack ⟨rfl, rfl, rfl, rfl, rfl, rfl, rfl, rfl⟩ [.act a] rfl ?_ ?_ (fun _ hl => hl)
    h.policies h.handles
  · rcases ha with rfl | rfl <;> rfl
  · rcases ha with rfl | rfl <;> simp [Frame.Fits]

/-- The channel is called. -/
theorem sent (h : Follows habit w c) {m : Outbound}
    (hstack : w.stack = .client (.todo (.raise (.send m))) :: rest) :
    Follows habit ({ w with stack := rest }.enter (.send m))
      (c.move (stage.setting store habit config)) := by
  have hhook : ({ w with stack := rest } : World σ).takeHook (sendHook m) =
      ({ w with stack := rest }, none) :=
    World.takeHook_nil (w := { w with stack := rest }) h.unhooked _
  simp only [World.enter, hhook]
  exact h.entered hstack ⟨rfl, rfl, rfl, rfl, rfl, rfl, rfl, rfl⟩ [.act (.transmit _ _)] rfl rfl
    (by simp [Frame.Fits]) (fun _ hl => hl) h.policies h.handles

/-- A subscriber is called. -/
theorem told (h : Follows habit w c) {id : OperationId} {tag : String} {o : Outcome}
    (hstack : w.stack = .client (.todo (.raise (.outcome id tag o))) :: rest) :
    Follows habit ({ w with stack := rest }.enter (.outcome id tag o))
      (c.move (stage.setting store habit config)) :=
  h.entered hstack ⟨rfl, rfl, rfl, rfl, rfl, rfl, rfl, rfl⟩ [.act (.leave _ _)] rfl rfl
    (by simp [Frame.Fits]) (fun _ hl => hl) h.policies h.handles

/-- A recorder is called. -/
theorem recorded (h : Follows habit w c) {id : OperationId} {callback : Callback}
    (hstack : w.stack = .client (.todo (.raise (.notify id callback))) :: rest) {d : Delivery}
    {name : String} (hdelivery : c.client.deliveries.get? id = some d)
    (hlistener : d.listener = .recorder name)
    (hhandle : ∀ result, callback = .prepared result → c.client.handles.get? id ≠ none) :
    Follows habit ({ w with stack := rest }.tellRecorder name id callback)
      (c.move (stage.setting store habit config)) := by
  have hknown := h.known id d hdelivery
  rw [hlistener] at hknown
  obtain ⟨r, hr⟩ := Option.isSome_iff_exists.mp hknown
  have hmore (listener : Listener) : Known w.recorders listener →
      Known (Named.put name (r.hear id callback) w.recorders) listener := known_put
  have hpolicies := policies_put (r := r.hear id callback) h.policies (h.policies name r hr)
  by_cases hprepared : ∃ result, callback = .prepared result
  · obtain ⟨result, rfl⟩ := hprepared
    rw [World.tellRecorder_prepared { w with stack := rest } hr]
    refine h.entered hstack ⟨rfl, rfl, rfl, rfl, rfl, rfl, rfl, rfl⟩ (_ ++ [.act (.leave _ _)])
      (List.append_cons ..) ?_ ?_ hmore hpolicies ?_
    · simp only [RecordingClient.wishes, RecordingClient.wish?, hdelivery, Option.bind_some,
        Stage.setting, hlistener, h.policies name r hr]
      cases (habit name).decision? <;> rfl
    · cases r.policy.decision? <;> simp [Frame.Fits]
    · intro other handle hhandle'
      rw [Named.lookup_put] at hhandle'
      split at hhandle'
      · exact ⟨id, (Option.some.inj hhandle').symm, hhandle result rfl⟩
      · exact h.handles other handle hhandle'
  · have hother : ∀ result, callback ≠ .prepared result := fun result hcallback =>
      hprepared ⟨result, hcallback⟩
    rw [World.tellRecorder_eq { w with stack := rest } hr id callback hother]
    refine h.entered hstack ⟨rfl, rfl, rfl, rfl, rfl, rfl, rfl, rfl⟩ [.act (.leave _ _)] rfl ?_
      (by simp [Frame.Fits]) hmore hpolicies h.handles
    cases callback with
    | prepared result => exact absurd rfl (hother result)
    | _ => rfl

/-- A listener or a sink is called. -/
theorem notified (h : Follows habit w c) {id : OperationId} {callback : Callback}
    (hstack : w.stack = .client (.todo (.raise (.notify id callback))) :: rest)
    (hhandle : ∀ result, callback = .prepared result → c.client.handles.get? id ≠ none) :
    Follows habit ({ w with stack := rest }.enter (.notify id callback))
      (c.move (stage.setting store habit config)) := by
  -- only a recorder acts in a callback, and only where the callback is not a report; everyone else is
  -- entered and returns
  by_cases hquiet : ∀ d name, w.client.deliveries.get? id = some d → d.listener = .recorder name →
      ∃ severity text, callback = .report severity text
  · obtain ⟨a, collectors, slots, seen, hnotify, ha⟩ :=
      World.notify_eq { w with stack := rest } id callback hquiet
    rw [World.enter, hnotify]
    have hwishes : RecordingClient.wishes (stage.setting store habit config).habit c.client
        (.raise (.notify id callback)) = [] := by
      cases callback with
      | prepared result =>
        cases hdelivery : c.client.deliveries.get? id with
        | none => simp [RecordingClient.wishes, RecordingClient.wish?, hdelivery]
        | some d =>
          cases hlistener : d.listener with
          | waiter n =>
            simp [RecordingClient.wishes, RecordingClient.wish?, hdelivery, hlistener, Stage.setting,
              Policy.decision?]
          | recorder name =>
            obtain ⟨severity, text, hreport⟩ := hquiet d name (h.client ▸ hdelivery) hlistener
            contradiction
      | _ => rfl
    refine h.entered hstack ⟨rfl, rfl, rfl, rfl, rfl, rfl, rfl, rfl⟩ [.act a] rfl ?_ ?_ (fun _ hl => hl)
      h.policies h.handles
    · rw [hwishes]
      rcases ha with rfl | ⟨name, rfl⟩ <;> rfl
    · rcases ha with rfl | ⟨name, rfl⟩ <;> simp [Frame.Fits]
  · simp only [not_forall] at hquiet
    obtain ⟨d, name, hdelivery, hlistener, hreport⟩ := hquiet
    have htell : ({ w with stack := rest } : World σ).enter (.notify id callback) =
        ({ w with stack := rest } : World σ).tellRecorder name id callback := by
      cases callback with
      | report severity text => exact absurd ⟨severity, text, rfl⟩ hreport
      | _ => simp only [World.enter, World.notify, hdelivery, hlistener]
    rw [htell]
    exact h.recorded hstack (h.client ▸ hdelivery) hlistener hhandle

/-- Foreign code of the client is entered in a second move. -/
theorem raised (h : Follows habit w c) {u : Client.Upcall}
    (hstack : w.stack = .client (.todo (.raise u)) :: rest)
    (hhandle : ∀ id result, u = .notify id (.prepared result) → c.client.handles.get? id ≠ none) :
    ∃ w', Reaches stage w w' ∧ Follows habit w' (c.move (stage.setting store habit config)) := by
  refine ⟨{ w with stack := rest }.enter u, ?_, ?_⟩
  · rw [← World.move_raise hstack]
    exact .head .single
  · cases u with
    | observe o => exact h.observed hstack
    | send m => exact h.sent hstack
    | outcome id tag o => exact h.told hstack
    | notify id callback =>
      exact h.notified hstack fun result hcallback => hhandle id result (by rw [hcallback])

/-! ### Moves of the participant -/

theorem fits_above (h : Follows habit w c) (hstack : w.stack = f :: rest) (above : List Frame)
    (habove : ∀ g ∈ above, g.Fits w.recorders) : ∀ g ∈ above ++ rest, g.Fits w.recorders := by
  intro g hg
  rcases List.mem_append.mp hg with hg | hg
  · exact habove g hg
  · exact h.fits g (hstack ▸ List.mem_cons_of_mem f hg)

theorem fits_endpoint (recorders : List (String × Recorder)) (frames : List Endpoint.Frame) :
    ∀ g ∈ frames.map Frame.endpoint, g.Fits recorders := by
  intro g hg
  obtain ⟨k, -, rfl⟩ := List.mem_map.mp hg
  trivial

/-- The participant does at a loopback what it does in a rehearsal. -/
theorem served (h : Follows habit w c) {t : Endpoint.Task}
    (hstack : w.stack = .endpoint (.todo t) :: rest) :
    Follows habit (w.move stage) (c.move (stage.setting store habit config)) := by
  have hloopback : c.stack = .endpoint (.todo t) :: rest.filterMap Frame.plain? := by
    rw [← h.stack, hstack]
    rfl
  obtain ⟨seen, hsee⟩ := World.seeNotes
    { w with stack := rest, endpoint := (w.endpoint.perform World.now t).endpoint }
    (w.endpoint.perform World.now t).notes
  have hmove : w.move stage = { w with
      endpoint := (w.endpoint.perform World.now t).endpoint
      stack := (w.endpoint.perform World.now t).frames.map .endpoint ++ rest
      seen := seen } := by
    rw [World.move_endpoint hstack]
    simp only [World.moveEndpoint, hsee, World.push]
  rw [hmove, Loopback.move_cons hloopback]
  refine Follows.shown (w := { w with
    endpoint := (w.endpoint.perform World.now t).endpoint
    stack := (w.endpoint.perform World.now t).frames.map .endpoint ++ rest }) ?_ w.reply seen
  refine { h with endpoint := ?_, stack := ?_, fits := ?_ }
  · rw [h.endpoint]
    rfl
  · rw [List.filterMap_append, filterMap_plain_endpoint, h.endpoint]
    rfl
  · exact h.fits_above hstack _ (fits_endpoint _ _)

/-- So does whoever it calls: the handler, the journal and the client. -/
theorem handled (h : Follows habit w c) {u : Endpoint.Upcall}
    (hstack : w.stack = .endpoint (.inside u) :: rest) :
    Follows habit (w.move stage) (c.move (stage.setting store habit config)) := by
  have hloopback : c.stack = .endpoint (.inside u) :: rest.filterMap Frame.plain? := by
    rw [← h.stack, hstack]
    rfl
  rw [World.move_endpoint hstack, Loopback.move_cons hloopback]
  -- the two agree on the store and the journal, so they give the same answers and push the same frames
  cases u with
  | prepare id p =>
    refine { h with stack := ?_, fits := ?_ }
    · show List.filterMap _ ((List.map _ (stage.handler.reports w.store id p) ++ [_]) ++ rest) =
        List.map _ (stage.handler.reports c.store id p) ++ _
      rw [h.store, List.filterMap_append, List.filterMap_append, List.append_assoc, List.filterMap_map]
      congr 1
      exact congrFun List.filterMap_eq_map _
    · refine h.fits_above hstack _ fun g hg => ?_
      rcases List.mem_append.mp hg with hg | hg
      · obtain ⟨r, -, rfl⟩ := List.mem_map.mp hg
        trivial
      · rw [List.mem_singleton.mp hg]
        trivial
  | finalize t d =>
    refine { h with store := ?_, stack := ?_, fits := ?_ }
    · show (stage.handler.finalize w.store t.id d).2 = (stage.handler.finalize c.store t.id d).2
      rw [h.store]
    · show List.filterMap _ (.endpoint (.todo (.finalized t d
        (stage.handler.finalize w.store t.id d).1)) :: rest) = _
      rw [h.store]
      rfl
    · exact h.fits_above hstack [_] (by simp [Frame.Fits])
  | record id event =>
    refine { h with journal := ?_, stack := ?_, fits := ?_ }
    · show (w.journal.append id event World.now).2 = _
      rw [h.journal]
      rfl
    · show List.filterMap _ (.endpoint (.todo (.recorded id
        (w.journal.append id event World.now).1)) :: rest) = _
      rw [h.journal]
      rfl
    · exact h.fits_above hstack [_] (by simp [Frame.Fits])
  | reply m =>
    -- the channel is heard and holds nothing back, so a reply reaches the client at once
    have hpass : (({ w with stack := rest } : World σ).act [.answerEndpoint (.reply m) .returned]).pass
        m = { w with stack := [.client (.todo (.dispatch m)),
          .act (.answerEndpoint (.reply m) .returned)] ++ rest } := by
      simp [World.pass, World.act, World.push, World.isReachable, h.heard, h.held]
    rw [World.moveEndpoint, World.enterEndpoint, hpass]
    refine { h with stack := rfl, fits := ?_ }
    exact h.fits_above hstack _ (by simp [Frame.Fits, Endpoint.Upcall.resume])

/-! ### Moves of the surroundings -/

/-- The handler decides on a request. -/
theorem concluded (h : Follows habit w c) {id : OperationId} {p : Payload}
    (hstack : w.stack = .act (.conclude id p) :: rest) :
    Follows habit (w.move stage) (c.move (stage.setting store habit config)) := by
  have hloopback : c.stack = .conclude id p :: rest.filterMap Frame.plain? := by
    rw [← h.stack, hstack]
    rfl
  rw [World.move_act hstack, Loopback.move_cons hloopback]
  refine { h with store := ?_, stack := ?_, fits := ?_ }
  · show (stage.handler.prepare w.store id p).2 = (stage.handler.prepare c.store id p).2
    rw [h.store]
  · show List.filterMap _ (.endpoint (.todo (.prepared id
      (stage.handler.prepare w.store id p).1)) :: rest) = _
    rw [h.store]
    rfl
  · exact h.fits_above hstack [_] (by simp [Frame.Fits])

/-- Foreign code has answered, at both. -/
theorem resumed (h : Follows habit w c) (hstack : w.stack = f :: rest) (u : Client.Upcall)
    (a : Client.Answer) :
    Follows habit { w with stack := (u.resume a).map .client ++ rest }
      (Loopback.answer { c with age := c.age + 1 } u a (rest.filterMap Frame.plain?)) := by
  refine { h with stack := ?_, fits := ?_ }
  · rw [List.filterMap_append, filterMap_plain_client]
    rfl
  · refine h.fits_above hstack _ fun g hg => ?_
    obtain ⟨k, hk, rfl⟩ := List.mem_map.mp hg
    have hresume := u.resumes a
    generalize u.resume a = frames at hk hresume
    cases hresume <;> simp at hk <;> rw [hk] <;> trivial

/-- Foreign code returns into the client. -/
theorem answered (h : Follows habit w c) {u : Client.Upcall} {a : Client.Answer}
    (hstack : w.stack = .act (.answer u a) :: rest) :
    Follows habit (w.move stage) (c.move (stage.setting store habit config)) := by
  have hresumed := h.resumed hstack u a
  have hfits := h.fits _ (hstack ▸ List.mem_cons_self)
  have hloopback := h.stack
  rw [hstack] at hloopback
  rw [World.move_act hstack]
  cases u with
  | send m =>
    obtain rfl : a = .sent (.ok ()) := hfits
    rw [Loopback.move_cons hloopback.symm]
    exact hresumed
  | _ =>
    obtain rfl : a = .returned := hfits
    rw [Loopback.move_cons hloopback.symm]
    exact hresumed

/-- Foreign code with nothing left to do answers next. -/
theorem left (h : Follows habit w c) {name : String} {u : Client.Upcall}
    (hstack : w.stack = .act (.leave name u) :: rest) :
    ∃ w', Reaches stage w w' ∧ Follows habit w' (c.move (stage.setting store habit config)) := by
  have hhook : ({ w with stack := rest } : World σ).takeHook name = ({ w with stack := rest }, none) :=
    World.takeHook_nil (w := { w with stack := rest }) h.unhooked _
  have hmove : w.move stage = { w with stack := .act (.answer u .returned) :: rest } := by
    rw [World.move_act hstack]
    simp [World.moveAct, World.leave, hhook, World.hookActs, World.act, World.push]
  have hu := h.fits _ (hstack ▸ List.mem_cons_self)
  have hnext : Follows habit (w.move stage) c := by
    rw [hmove]
    have hloopback := h.stack
    rw [hstack] at hloopback
    refine { h with stack := ?_, fits := ?_ }
    · cases u with
      | send m => exact absurd rfl (hu m)
      | _ => exact hloopback
    · refine h.fits_above hstack [_] fun g hg => ?_
      rw [List.mem_singleton.mp hg]
      cases u with
      | send m => exact absurd rfl (hu m)
      | _ => rfl
  refine ⟨(w.move stage).move stage, .head .single, ?_⟩
  exact hnext.answered (by rw [hmove])

/-- The channel is handed a message. It passes it on, or refuses it. -/
theorem transmitted (h : Follows habit w c) {m : Outbound} {error : Option ChannelError}
    (hstack : w.stack = .act (.transmit m error) :: rest) :
    ∃ w', Reaches stage w w' ∧ Follows habit w' (c.move (stage.setting store habit config)) := by
  have hfits := h.fits _ (hstack ▸ List.mem_cons_self)
  obtain rfl : error = none := hfits
  have hloopback : c.stack = .client (.inside (.send m)) :: rest.filterMap Frame.plain? := by
    rw [← h.stack, hstack]
    rfl
  rw [Loopback.move_cons hloopback]
  -- an open channel passes the message on in one move; a closed one refuses it and answers in the next
  cases hopen : c.isOpen with
  | true =>
    have hmove : w.move stage = { w with
        seen := .sent m :: w.seen
        stack := [.endpoint (.todo (.receive m)), .act (.answer (.send m) (.sent (.ok ())))] ++
          rest } := by
      rw [World.move_act hstack]
      simp [World.moveAct, World.transmit, World.carry, World.see, World.seeSent, World.push,
        h.channel, h.heard, hopen]
    refine ⟨w.move stage, .single, ?_⟩
    rw [hmove]
    refine Follows.shown (w := { w with
      stack := [.endpoint (.todo (.receive m)), .act (.answer (.send m) (.sent (.ok ())))] ++ rest })
      ?_ w.reply _
    simp only [Loopback.step, Loopback.call, if_true]
    refine { h with stack := rfl, fits := ?_, channel := h.channel.trans (by rw [hopen]) }
    exact h.fits_above hstack _ (by simp [Frame.Fits])
  | false =>
    have hmove : w.move stage = { w with
        seen := .notSent m .closed :: .sent m :: w.seen
        stack := .act (.answer (.send m) (.sent (.error .closed))) :: rest } := by
      rw [World.move_act hstack]
      simp [World.moveAct, World.transmit, World.carry, World.see, World.seeSent, World.push,
        h.channel, h.heard, hopen]
    refine ⟨(w.move stage).move stage, .head .single, ?_⟩
    rw [hmove, World.move_act rfl]
    have hresumed := h.resumed hstack (.send m) (.sent (.error .closed))
    rw [hopen] at hresumed
    exact hresumed.shown w.reply (.notSent m .closed :: .sent m :: w.seen)

/-! ### Any move -/

/-- **A rehearsal that shows a loopback comes to show its next move.** -/
theorem moved (h : Follows habit w c) (hvisited : Loopback.Visited (stage.setting store habit config) c)
    (hgiven : c.clientThreads.given.length < 2 ^ 64 - 1) :
    ∃ w', Reaches stage w w' ∧ Follows habit w' (c.move (stage.setting store habit config)) := by
  obtain ⟨ready, hready, follows, hnil | ⟨f, rest, g, hstack, hplain⟩⟩ := h.ready stage
  · have hidle := follows.stack
    rw [hnil] at hidle
    rw [Loopback.move_nil hidle.symm]
    exact ⟨ready, hready, follows⟩
  -- most frames make one move of their own; calls out of the client make a second one
  have hnext (hone : Follows habit (ready.move stage) (c.move (stage.setting store habit config))) :
      ∃ w', Reaches stage ready w' ∧ Follows habit w' (c.move (stage.setting store habit config)) :=
    ⟨_, .single, hone⟩
  have hfits := follows.fits f (hstack ▸ List.mem_cons_self)
  suffices ∃ w', Reaches stage ready w' ∧
      Follows habit w' (c.move (stage.setting store habit config)) by
    obtain ⟨w', hreaches, hfollows⟩ := this
    exact ⟨w', hready.trans hreaches, hfollows⟩
  cases f with
  | client f =>
    cases f with
    | inside u => exact hfits.elim
    | todo t =>
      by_cases hraise : ∃ u, t = .raise u
      · obtain ⟨u, rfl⟩ := hraise
        refine follows.raised hstack ?_
        rintro id result rfl
        -- a recorder keeps the handle that it is given, so there has to be one
        obtain ⟨schedule, hschedule⟩ := Loopback.reachable_clientThreads hvisited
        have hframe :
            Client.Frame.todo (.raise (.notify id (.prepared result))) ∈ c.clientThreads.frames := by
          have hloopback := follows.stack
          rw [hstack] at hloopback
          simp [ClientThreads.frames, Loopback.clientThreads, ← hloopback, Frame.plain?]
        rw [hschedule] at hgiven hframe
        have hhandle := ClientThreads.handed_run _ schedule id hgiven hframe
        rw [← hschedule] at hhandle
        exact hhandle
      · exact hnext (follows.performed hstack fun u hu => hraise ⟨u, hu⟩)
  | endpoint f =>
    cases f with
    | todo t => exact hnext (follows.served hstack)
    | inside u => exact hnext (follows.handled hstack)
  | act a =>
    cases a with
    | conclude id p => exact hnext (follows.concluded hstack)
    | answer u a => exact hnext (follows.answered hstack)
    | leave name u => exact follows.left hstack
    | transmit m error => exact follows.transmitted hstack
    | _ => contradiction

/-- So it comes to show any number of them. -/
theorem iterated (h : Follows habit w c) (hvisited : Loopback.Visited (stage.setting store habit config) c)
    (n : Nat)
    (hgiven : ((Loopback.move
      (stage.setting store habit config))^[n] c).clientThreads.given.length < 2 ^ 64 - 1) :
    ∃ w', Reaches stage w w' ∧
      Follows habit w' ((Loopback.move (stage.setting store habit config))^[n] c) := by
  induction n with
  | zero => exact ⟨w, .refl w, h⟩
  | succ n ih =>
    rw [Function.iterate_succ_apply'] at hgiven ⊢
    have hbefore := Nat.lt_of_le_of_lt (hvisited.iterated n).given_le hgiven
    obtain ⟨w', hreaches, hfollows⟩ := ih hbefore
    obtain ⟨w'', hreaches', hfollows'⟩ := hfollows.moved (hvisited.iterated n) hbefore
    exact ⟨w'', hreaches.trans hreaches', hfollows'⟩

variable (stage) in
/-- Where a loopback stands still, the rehearsal has only frames of no account left. -/
theorem idle (h : Follows habit w c) (hidle : c.stack = []) :
    ∃ w', Reaches stage w w' ∧ w'.stack = [] ∧ Follows habit w' c := by
  obtain ⟨w', hreaches, hfollows, hnil | ⟨f, rest, g, hstack, hplain⟩⟩ := h.ready stage
  · exact ⟨w', hreaches, hnil, hfollows⟩
  · have hplain' := hfollows.stack
    rw [hstack, List.filterMap_cons_some hplain, hidle] at hplain'
    exact absurd hplain' (List.cons_ne_nil _ _)

/-- Both come to their ends together. -/
theorem settled (h : Follows habit w c) (hvisited : Loopback.Visited (stage.setting store habit config) c)
    (hgiven : (c.settle (stage.setting store habit config)).clientThreads.given.length < 2 ^ 64 - 1) :
    ∃ w', Reaches stage w w' ∧ w'.stack = [] ∧
      Follows habit w' (c.settle (stage.setting store habit config)) := by
  obtain ⟨w', hreaches, hfollows⟩ := h.iterated hvisited _ hgiven
  obtain ⟨w'', hreaches', hrest, hfollows'⟩ :=
    hfollows.idle stage (Loopback.settle_idle _ c)
  exact ⟨w'', hreaches.trans hreaches', hrest, hfollows'⟩

end

end Follows

end Rehearsal

end TwoPhase
