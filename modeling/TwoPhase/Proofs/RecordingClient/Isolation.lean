import Mathlib.Data.List.Pairwise
import TwoPhase.Initiator.Handle
import TwoPhase.Proofs.RecordingClient.Labor
import TwoPhase.Proofs.ClientThreads.Callbacks
import TwoPhase.Proofs.ClientThreads.Laws
import TwoPhase.Proofs.ClientThreads.Owners
/-
Operations at a recording client are isolated from each other.

Messages about different operations may be delivered in any order: nobody who has to do with an operation
can tell the difference, and what the client counts comes to the same. Each operation has its own sight
of a recording client (`RecordingClient.sight`). What belongs to another operation does not change it
(`sight_move_of_ne`), and what belongs to the operation itself depends on nothing else (`sight_move`). So
after any deliveries an operation sees what it would see if only the messages about itself had been
delivered (`sight_deliver`), and two lists of messages that are the same for each operation end in the
same sights (`isolated`). What no single operation sees, the tables and the statistics, is put together
from the sights.
-/

set_option autoImplicit false

namespace TwoPhase

open Client (Task Frame Upcall Answer Event)

/-! ## What others hear of a recording client -/

/-- The operation and the callback of a call to a listener or a sink. -/
def Mark.callback? : Mark → Option (OperationId × Callback)
  | .moved (.raise (.notify id callback)) _ => some (id, callback)
  | _ => none

/-- Whether two operations have different listeners and, unless both discard their reports, different
sinks. -/
def Delivery.Apart (d e : Delivery) : Prop :=
  d.listener ≠ e.listener ∧ (d.sink = e.sink → d.sink = .discard)

instance (d e : Delivery) : Decidable (d.Apart e) :=
  inferInstanceAs (Decidable (d.listener ≠ e.listener ∧ (d.sink = e.sink → d.sink = .discard)))

theorem Delivery.Apart.symm {d e : Delivery} (h : d.Apart e) : e.Apart d :=
  ⟨h.1.symm, fun heq => heq.trans (h.2 heq.symm)⟩

/-- Whether each operation of a client has its own listener and its own sink. -/
def Client.Separate (c : Client) : Prop :=
  c.deliveries.entries.Pairwise fun first second => first.2.Apart second.2

instance (c : Client) : Decidable c.Separate :=
  inferInstanceAs (Decidable (c.deliveries.entries.Pairwise fun a b => a.2.Apart b.2))

theorem Client.separate_iff {c : Client} :
    c.Separate ↔ ∀ i j d e, c.deliveries.get? i = some d → c.deliveries.get? j = some e → i ≠ j →
      d.Apart e := by
  constructor
  · intro h i j d e hd he hne
    have hsymm : Std.Symm fun a b : OperationId × Delivery => a.2.Apart b.2 := ⟨fun _ _ => .symm⟩
    exact h.forall ((Table.mem_entries _ i d).mpr hd) ((Table.mem_entries _ j e).mpr he)
      fun heq => hne (congrArg Prod.fst heq)
  · intro h
    refine c.deliveries.ascending.imp_of_mem fun {a b} ha hb hbefore => ?_
    exact h a.1 b.1 a.2 b.2 ((Table.mem_entries _ _ _).mp ha) ((Table.mem_entries _ _ _).mp hb)
      (OperationId.ne_of_lt hbefore)

namespace RecordingClient

/-- The callbacks of some kind that were made to some deliveries, in order. -/
def calls (b : RecordingClient) (kind : Callback → Bool) (mine : Delivery → Bool) :
    List (OperationId × Callback) :=
  b.past.filterMap fun mark => mark.callback?.filter fun call =>
    kind call.2 && (b.client.deliveries.get? call.1).any mine

/-- What a listener heard. -/
def heard (b : RecordingClient) (listener : Listener) : List (OperationId × Callback) :=
  b.calls Callback.isListeners (·.listener = listener)

/-- The reports that went to a sink. -/
def reports (b : RecordingClient) (sink : Sink) : List (OperationId × Callback) :=
  b.calls (fun callback => !callback.isListeners) (·.sink = sink)

/-- Two recording clients with the same operations pending and the same statistics, at which listeners,
sinks, holders of handles and the far end of the channel have seen the same. Which operation got on first
is left open. -/
structure Alike (b b' : RecordingClient) : Prop where
  pending : b.client.pending = b'.client.pending
  stats : b.client.stats = b'.client.stats
  heard : ∀ listener, b.heard listener = b'.heard listener
  reports : ∀ sink, sink ≠ .discard → b.reports sink = b'.reports sink
  outcome : ∀ handle : Handle, handle.outcome? b.client = handle.outcome? b'.client
  sent : ∀ id, b.channel.sent.filter (·.id = id) = b'.channel.sent.filter (·.id = id)

variable (habit : Listener → OperationId → Value → Policy)

/-- The recording client after some messages were delivered one by one, each of which is let come to its
end. -/
def deliver (b : RecordingClient) (messages : List Inbound) : RecordingClient :=
  messages.foldl (fun b m => (b.take (.deliver m)).settle habit) b

variable {habit} {b b' : RecordingClient} {id : OperationId}

/-! ## Stacks that belong to an operation -/

/-- Everything on a stack belongs to one operation. -/
def Owned (id : OperationId) (stack : List Frame) : Prop := ∀ f ∈ stack, f.owner? = some id

/-- What a listener wishes for depends on its own operation only. -/
theorem wishes_of_owner {t : Task} (howner : t.owner? = some id) {c c' : Client}
    (hview : c.view id = c'.view id) : wishes habit c t = wishes habit c' t := by
  have hdelivery := (View.mk.inj hview).2.1
  rw [wishes, wishes, wish?.eq_def, wish?.eq_def]
  split
  · obtain rfl := Option.some.inj howner
    simp only [hdelivery]
  · rfl

theorem owner_wishes {t : Task} (howner : t.owner? = some id) (c : Client) :
    Owned id (wishes habit c t) := by
  intro f hf
  obtain ⟨i, decision, hwish, rfl⟩ := mem_wishes hf
  obtain ⟨result, rfl⟩ := wish_eq_some hwish
  exact howner

theorem owned_take (hidle : b.stack = []) {m : Inbound} (hm : m.id? = some id) :
    Owned id (b.take (.deliver m)).stack := by
  rw [stack_take hidle]
  intro f hf
  rw [List.mem_singleton.mp hf]
  exact hm

theorem owned_move (howned : Owned id b.stack) : Owned id (b.move habit).stack := by
  rcases hstack : b.stack with _ | ⟨t | u, rest⟩
  · rw [move_nil hstack]
    exact howned
  all_goals
    rw [hstack] at howned
    obtain ⟨howner, hrest⟩ := List.forall_mem_cons.mp howned
  · rw [move_todo hstack]
    refine List.forall_mem_append.mpr ⟨List.forall_mem_append.mpr ⟨?_, ?_⟩, hrest⟩
    · exact owner_wishes howner b.client
    · exact (Client.perform_twin howner (Eq.refl (b.client.view id)) rfl).owned
  · rw [move_inside hstack]
    exact List.forall_mem_append.mpr ⟨Upcall.owner_resume howner _, hrest⟩

/-- What survives the moves of an operation survives until they come to their end. -/
theorem settle_keeps {P : RecordingClient → Prop}
    (hkept : ∀ b, Owned id b.stack → P b → P (b.move habit)) (howned : Owned id b.stack)
    (h : P b) : P (b.settle habit) := by
  have hiterate (n : Nat) : Owned id ((move habit)^[n] b).stack ∧ P ((move habit)^[n] b) := by
    induction n with
    | zero => exact ⟨howned, h⟩
    | succ n ih =>
      rw [Function.iterate_succ_apply']
      exact ⟨owned_move ih.1, hkept _ ih.1 ih.2⟩
  exact (hiterate b.labor).2

theorem deliver_concat (messages : List Inbound) (m : Inbound) :
    b.deliver habit (messages ++ [m]) = ((b.deliver habit messages).take (.deliver m)).settle habit := by
  rw [deliver, List.foldl_append]
  rfl

theorem deliver_idle (hidle : b.stack = []) (messages : List Inbound) :
    (b.deliver habit messages).stack = [] := by
  induction messages using List.reverseRecOn with
  | nil => exact hidle
  | append_singleton messages m _ =>
    rw [deliver_concat]
    exact settle_idle _

/-- What survives the moves of every operation survives deliveries. -/
theorem deliver_keeps {P : RecordingClient → Prop}
    (htaken : ∀ (b : RecordingClient) (m : Inbound), P b → P (b.take (.deliver m)))
    (hkept : ∀ (b : RecordingClient) id, Owned id b.stack → P b → P (b.move habit)) (hidle : b.stack = [])
    {messages : List Inbound} (hmessages : ∀ m ∈ messages, m.id?.isSome) (h : P b) :
    P (b.deliver habit messages) := by
  induction messages using List.reverseRecOn with
  | nil => exact h
  | append_singleton messages m ih =>
    obtain ⟨hbefore, hm⟩ := List.forall_mem_append.mp hmessages
    obtain ⟨id, hid⟩ := Option.isSome_iff_exists.mp (hm m (List.mem_singleton_self m))
    rw [deliver_concat]
    exact settle_keeps (fun b => hkept b id) (owned_take (deliver_idle hidle messages) hid)
      (htaken _ m (ih hbefore))

end RecordingClient

/-! ## What an operation sees of a recording client -/

/-- The part of a channel that has to do with an operation. -/
def RecordingChannel.about (c : RecordingChannel) (id : OperationId) : RecordingChannel :=
  { c with sent := c.sent.filter (·.id = id) }

/-- Whether something in the past is no other operation's. -/
def Mark.concerns (id : OperationId) (mark : Mark) : Bool := mark.owner?.all (· = id)

/-- What an operation sees of a recording client: its own part of the client and of the channel, and what
no other operation did. -/
structure RecordingClient.Sight where
  view : View
  nextId : OperationId
  channel : RecordingChannel
  past : List Mark

/-- The sight of an operation. -/
def RecordingClient.sight (b : RecordingClient) (id : OperationId) : RecordingClient.Sight where
  view := b.client.view id
  nextId := b.client.nextId
  channel := b.channel.about id
  past := b.past.filter (Mark.concerns id)

namespace RecordingClient

variable {habit : Listener → OperationId → Value → Policy} {b b' : RecordingClient} {id : OperationId}

theorem concerns_of_owner {mark : Mark} (howner : mark.owner? = some id) (i : OperationId) :
    mark.concerns i = decide (id = i) := by
  rw [Mark.concerns, howner]
  rfl

/-- A call to a listener or a sink belongs to the operation that it is about. -/
theorem owner_of_callback {mark : Mark} {call : OperationId × Callback}
    (h : mark.callback? = some call) : mark.owner? = some call.1 := by
  rw [Mark.callback?.eq_def] at h
  split at h
  · obtain rfl := Option.some.inj h
    rfl
  · contradiction

/-- What the channel answers to an operation depends on the part that has to do with it. -/
theorem reply_of_owner {u : Upcall} (howner : u.owner? = some id) {channel channel' : RecordingChannel}
    (h : channel.about id = channel'.about id) :
    (reply channel u).1 = (reply channel' u).1 ∧
      (reply channel u).2.about id = (reply channel' u).2.about id := by
  obtain ⟨hopen, hrefusing, hsent⟩ := RecordingChannel.mk.inj h
  cases u with
  | send m =>
    simp only [reply, RecordingChannel.send, hopen, hrefusing]
    split
    · split
      · exact ⟨rfl, h⟩
      · exact ⟨rfl, by simp [RecordingChannel.about, hsent]⟩
    · exact ⟨rfl, h⟩
  | _ => exact ⟨rfl, h⟩

theorem reply_of_ne {u : Upcall} (howner : u.owner? = some id) {i : OperationId} (hne : i ≠ id)
    (channel : RecordingChannel) : (reply channel u).2.about i = channel.about i := by
  cases u with
  | send m =>
    obtain rfl : m.id = id := Option.some.inj howner
    rcases channel.send_cases m with hsend | ⟨e, hsend⟩
    · simp [reply, hsend, RecordingChannel.about, Ne.symm hne]
    · simp [reply, hsend]
  | _ => rfl

/-- **What belongs to one operation does not change what another one sees.** -/
theorem sight_move_of_ne (howned : Owned id b.stack) {i : OperationId} (hne : i ≠ id) :
    (b.move habit).sight i = b.sight i := by
  have hunseen (mark : Mark) (howner : mark.owner? = some id) : ¬ mark.concerns i = true := by
    rw [concerns_of_owner howner, decide_eq_true_iff]
    exact Ne.symm hne
  rcases hstack : b.stack with _ | ⟨t | u, rest⟩
  · rw [move_nil hstack]
  all_goals
    rw [hstack] at howned
    have howner := howned _ List.mem_cons_self
  · have hmark := hunseen (.moved t (b.client.perform t).events) howner
    rw [move_todo hstack]
    simp only [sight, Client.view_perform_of_ne howner hne, Client.nextId_of_owner howner,
      Client.marks_of_owner howner, List.filter_append, List.filter_cons_of_neg hmark,
      List.filter_nil, List.append_nil]
  · have hmark := hunseen (.answered u (reply b.channel u).1) howner
    rw [move_inside hstack]
    simp only [sight, reply_of_ne howner hne, List.filter_append, List.filter_cons_of_neg hmark,
      List.filter_nil, List.append_nil]

/-- **What belongs to an operation depends on nothing but what it sees.** -/
theorem sight_move (howned : Owned id b.stack) (hstack : b.stack = b'.stack)
    (hsight : b.sight id = b'.sight id) :
    (b.move habit).sight id = (b'.move habit).sight id ∧
      (b.move habit).stack = (b'.move habit).stack := by
  obtain ⟨hview, hnext, hchannel, hpast⟩ := Sight.mk.inj hsight
  rcases hframes : b.stack with _ | ⟨t | u, rest⟩
  · rw [move_nil hframes, move_nil (hstack.symm.trans hframes)]
    exact ⟨hsight, hstack⟩
  all_goals
    rw [hframes] at howned
    have howner := howned _ List.mem_cons_self
  · obtain ⟨hstride, hleft, hevents, -⟩ := Client.perform_twin howner hview hnext
    rw [move_todo hframes, move_todo (hstack.symm.trans hframes)]
    simp only [sight, Sight.mk.injEq, hstride, Client.nextId_of_owner howner,
      Client.marks_of_owner howner, hevents, List.filter_append, hpast, hleft,
      wishes_of_owner howner hview]
    exact ⟨⟨trivial, hnext, hchannel, trivial⟩, trivial⟩
  · obtain ⟨hanswer, hafter⟩ := reply_of_owner howner hchannel
    rw [move_inside hframes, move_inside (hstack.symm.trans hframes)]
    simp only [sight, Sight.mk.injEq, hanswer, List.filter_append, hpast]
    exact ⟨⟨hview, hnext, hafter, trivial⟩, trivial⟩

/-- What an operation comes to depends on nothing but what it sees. -/
theorem sight_settle (howned : Owned id b.stack) (hstack : b.stack = b'.stack)
    (hsight : b.sight id = b'.sight id) : (b.settle habit).sight id = (b'.settle habit).sight id := by
  have hiterate (n : Nat) : Owned id ((move habit)^[n] b).stack ∧
      ((move habit)^[n] b).stack = ((move habit)^[n] b').stack ∧
      ((move habit)^[n] b).sight id = ((move habit)^[n] b').sight id := by
    induction n with
    | zero => exact ⟨howned, hstack, hsight⟩
    | succ n ih =>
      obtain ⟨howned, hstack, hsight⟩ := ih
      obtain ⟨hsight', hstack'⟩ := sight_move howned hstack hsight
      simp only [Function.iterate_succ_apply']
      exact ⟨owned_move howned, hstack', hsight'⟩
  -- the rest of the two clients may differ, and with it the labor that is left
  rw [← settle_eq (Nat.le_max_left b.labor b'.labor), ← settle_eq (Nat.le_max_right b.labor b'.labor)]
  exact (hiterate _).2.2

/-- **An operation sees what it would see if only the messages about itself had been delivered.** -/
theorem sight_deliver (hidle : b.stack = []) {messages : List Inbound}
    (hmessages : ∀ m ∈ messages, m.id?.isSome) (id : OperationId) :
    (b.deliver habit messages).sight id =
      (b.deliver habit (messages.filter (·.id? = some id))).sight id := by
  induction messages using List.reverseRecOn with
  | nil => rfl
  | append_singleton messages m ih =>
    obtain ⟨hbefore, hm⟩ := List.forall_mem_append.mp hmessages
    obtain ⟨i, hi⟩ := Option.isSome_iff_exists.mp (hm m (List.mem_singleton_self m))
    have hidle' : (b.deliver habit messages).stack = [] := deliver_idle hidle messages
    have hih := ih hbefore
    by_cases hid : i = id
    · subst hid
      have hfilter : (messages ++ [m]).filter (·.id? = some i) =
          messages.filter (·.id? = some i) ++ [m] := by simp [hi]
      rw [hfilter, deliver_concat, deliver_concat]
      refine sight_settle (owned_take hidle' hi) ?_ hih
      rw [stack_take hidle', stack_take (deliver_idle hidle _)]
      rfl
    · have hfilter : (messages ++ [m]).filter (·.id? = some id) =
          messages.filter (·.id? = some id) := by simp [hi, hid]
      rw [hfilter, ← hih, deliver_concat]
      exact settle_keeps (P := fun b' => b'.sight id = (b.deliver habit messages).sight id)
        (fun b' howned h => (sight_move_of_ne howned (Ne.symm hid)).trans h)
        (owned_take hidle' hi) rfl

/-! ## What no single operation sees -/

/-- Deliveries are never made to somebody else. -/
theorem separate_move (howned : Owned id b.stack) (h : b.client.Separate) :
    (b.move habit).client.Separate := by
  rcases hstack : b.stack with _ | ⟨t | u, rest⟩
  · rw [move_nil hstack]
    exact h
  · rw [hstack] at howned
    have howner := howned _ List.mem_cons_self
    rw [move_todo hstack]
    rw [Client.separate_iff] at h ⊢
    intro i j d e hd he hne
    obtain ⟨d', hd', hlistener, hsink⟩ := Client.addressed_of_owner howner hd
    obtain ⟨e', he', hlistener', hsink'⟩ := Client.addressed_of_owner howner he
    have hapart := h i j d' e' hd' he' hne
    rwa [Delivery.Apart, hlistener, hsink, hlistener', hsink'] at hapart
  · rw [move_inside hstack]
    exact h

/-- Whatever a counter shows, it may be taken to have been raised some number of times before. -/
theorem exists_reckoned (b : RecordingClient) (k : Counter) :
    ∃ before, b.clientThreads.Obeys (Law.reckoned before k) := by
  refine ⟨(b.client.stats.get k - UInt64.ofNat (b.clientThreads.posts.count (.counted k))).toNat, ?_⟩
  rw [ClientThreads.Obeys, Law.reckoned, Law.faithful, UInt64.ofNat_add, UInt64.ofNat_toNat,
    UInt64.sub_add_cancel]
  rfl

/-! ## Sights put together -/

section

variable (hsight : ∀ id, b.sight id = b'.sight id)
include hsight

theorem deliveries_of_sights : b.client.deliveries = b'.client.deliveries :=
  Table.ext_get? fun id => (View.mk.inj (Sight.mk.inj (hsight id)).1).2.1

/-- The same things happened, in one order or the other. -/
theorem past_of_sights : b.past.Perm b'.past := by
  refine perm_of_filter_eq Mark.owner? fun k => ?_
  -- what belongs to nobody is in everybody's sight
  have hconcerns (mark : Mark) (h : mark.owner? = k) : mark.concerns (k.getD ⟨0⟩) = true := by
    subst h
    cases howner : mark.owner? <;> simp [Mark.concerns, howner]
  have hfilter (past : List Mark) : past.filter (·.owner? = k) =
      (past.filter (Mark.concerns (k.getD ⟨0⟩))).filter (·.owner? = k) := by
    rw [List.filter_filter]
    refine List.filter_congr fun mark _ => ?_
    by_cases howner : mark.owner? = k
    · simp [howner, hconcerns mark howner]
    · simp [howner]
  rw [hfilter, (Sight.mk.inj (hsight _)).2.2.2, ← hfilter]

/-- What is read off the doings of one operation is in its sight. -/
theorem filterMap_of_sights {β : Type} {f : Mark → Option β} (id : OperationId)
    (hf : ∀ mark x, f mark = some x → mark.owner? = some id) :
    b.past.filterMap f = b'.past.filterMap f := by
  have hfilter (past : List Mark) :
      past.filterMap f = (past.filter (Mark.concerns id)).filterMap f := by
    rw [List.filterMap_filter]
    refine List.filterMap_congr fun mark _ => ?_
    split
    · rfl
    · rename_i hconcerns
      refine Option.eq_none_iff_forall_ne_some.mpr fun x hx => hconcerns ?_
      rw [concerns_of_owner (hf mark x hx)]
      exact decide_eq_true rfl
  rw [hfilter, (Sight.mk.inj (hsight id)).2.2.2, ← hfilter]

/-- Calls to the delivery of a single operation were the same, in the same order. -/
theorem calls_of_sights (kind : Callback → Bool) {mine : Delivery → Bool}
    (hsole : ∀ i j d e, b.client.deliveries.get? i = some d → b.client.deliveries.get? j = some e →
      mine d = true → mine e = true → i = j) : b.calls kind mine = b'.calls kind mine := by
  obtain ⟨id, hid⟩ : ∃ id, ∀ i d, b.client.deliveries.get? i = some d → mine d = true → i = id := by
    by_cases hsome : ∃ i d, b.client.deliveries.get? i = some d ∧ mine d = true
    · obtain ⟨id, e, he, hmine⟩ := hsome
      exact ⟨id, fun i d hd hd' => hsole i id d e hd he hd' hmine⟩
    · exact ⟨⟨0⟩, fun i d hd hd' => absurd ⟨i, d, hd, hd'⟩ hsome⟩
  rw [calls, calls, ← deliveries_of_sights hsight]
  refine filterMap_of_sights hsight id fun mark call hcall => ?_
  obtain ⟨hcallback, hmade⟩ := Option.filter_eq_some_iff.mp hcall
  obtain ⟨d, hd, hmine⟩ := (Option.any_eq_true mine _).mp (Bool.and_eq_true_iff.mp hmade).2
  rw [owner_of_callback hcallback, hid call.1 d hd hmine]

/-- Two recording clients at which every operation sees the same are alike. -/
theorem alike_of_sights (hseparate : b.client.Separate)
    (hreckoned : ∀ k, ∃ before, b.clientThreads.Obeys (Law.reckoned before k) ∧
      b'.clientThreads.Obeys (Law.reckoned before k)) : Alike b b' where
  pending := Table.ext_get? fun id => (View.mk.inj (Sight.mk.inj (hsight id)).1).1
  stats := by
    refine Stats.ext_get fun k => ?_
    obtain ⟨before, hb, hb'⟩ := hreckoned k
    have hposts : b.clientThreads.posts.count (.counted k) = b'.clientThreads.posts.count (.counted k) :=
      ((past_of_sights hsight).flatMap_right Mark.posts).count_eq _
    rw [ClientThreads.Obeys, Law.reckoned, Law.faithful, hposts] at hb
    exact hb.trans hb'.symm
  heard listener := by
    refine calls_of_sights hsight _ fun i j d e hd he hlistener hlistener' => ?_
    by_contra hne
    refine (Client.separate_iff.mp hseparate i j d e hd he hne).1 ?_
    rw [of_decide_eq_true hlistener, of_decide_eq_true hlistener']
  reports sink hsink := by
    refine calls_of_sights hsight _ fun i j d e hd he hsink' hsink'' => ?_
    by_contra hne
    refine hsink ?_
    rw [← of_decide_eq_true hsink']
    refine (Client.separate_iff.mp hseparate i j d e hd he hne).2 ?_
    rw [of_decide_eq_true hsink', of_decide_eq_true hsink'']
  outcome handle := by
    cases handle with
    | live id => rw [Handle.outcome?, Handle.outcome?, Handle.cell, Handle.cell, Client.cell,
        Client.cell, deliveries_of_sights hsight]
    | failed => rfl
  sent id := (RecordingChannel.mk.inj (Sight.mk.inj (hsight id)).2.2.1).2.2

end

/-- **Operations are isolated from each other.** Whatever a client has been through, and whether its
channel takes sends or refuses them: where two lists of messages are the same for each operation, it makes
no difference which of them is delivered. -/
theorem isolated (hidle : b.stack = []) (hseparate : b.client.Separate) {first second : List Inbound}
    (hfirst : ∀ m ∈ first, m.id?.isSome) (hsecond : ∀ m ∈ second, m.id?.isSome)
    (hsame : ∀ id, first.filter (·.id? = some id) = second.filter (·.id? = some id)) :
    Alike (b.deliver habit first) (b.deliver habit second) := by
  refine alike_of_sights (fun id => ?_) ?_ fun k => ?_
  · rw [sight_deliver hidle hfirst, hsame, sight_deliver hidle hsecond]
  · exact deliver_keeps (P := fun b => b.client.Separate) (fun _ _ h => h)
      (fun _ _ howned h => separate_move howned h) hidle hfirst hseparate
  · obtain ⟨before, h⟩ := exists_reckoned b k
    have hkept {messages : List Inbound} (hmessages : ∀ m ∈ messages, m.id?.isSome) :
        (b.deliver habit messages).clientThreads.Obeys (Law.reckoned before k) := by
      refine deliver_keeps (P := fun b => b.clientThreads.Obeys (Law.reckoned before k)) ?_ ?_ hidle
        hmessages h
      · intro b m h
        simpa [take, clientThreads, ClientThreads.Obeys, Law.reckoned, Law.faithful,
          ClientThreads.posts] using h
      · intro b id _ h
        exact clientThreads_move_keeps
          (fun _ _ step => Law.step (Law.reckoned_kept before k) trivial step) h
    exact ⟨before, hkept hfirst, hkept hsecond⟩

/-- One listener commits and the other one rolls back. -/
def atOdds (listener : Listener) (_ : OperationId) (_ : Value) : Policy :=
  if listener = .recorder "a" then .commit else .rollback

/-- Two operations of such listeners, over a channel that refuses whatever they decide. -/
def twoAtOdds : RecordingClient :=
  run atOdds {} [.execute (.recorder "a") ⟨.undefined, [], .collector "a"⟩,
    .execute (.recorder "b") ⟨.undefined, [], .collector "b"⟩, .refuseSends true]

/-- Messages about the first operation, the second one and one that nobody submitted. -/
def oneByOne : List Inbound :=
  [.report ⟨1⟩ .info "", .prepared ⟨1⟩ .undefined, .completed ⟨1⟩ .undefined,
    .completed ⟨2⟩ .undefined, .report ⟨2⟩ .warn "", .prepared ⟨2⟩ .undefined, .prepared ⟨3⟩ .undefined]

/-- The same messages for each of them. -/
def crosswise : List Inbound :=
  [.prepared ⟨3⟩ .undefined, .completed ⟨2⟩ .undefined, .report ⟨1⟩ .info "", .report ⟨2⟩ .warn "",
    .prepared ⟨1⟩ .undefined, .prepared ⟨2⟩ .undefined, .completed ⟨1⟩ .undefined]

theorem isolated_of_crosswise :
    twoAtOdds.stack = [] ∧ twoAtOdds.client.Separate ∧ twoAtOdds.client.pending.size = 2 ∧
      (∀ id, oneByOne.filter (·.id? = some id) = crosswise.filter (·.id? = some id)) ∧
      Alike (twoAtOdds.deliver atOdds oneByOne) (twoAtOdds.deliver atOdds crosswise) := by
  have hidle : twoAtOdds.stack = [] := (visited_run {} _).2
  have hseparate : twoAtOdds.client.Separate := by decide +kernel
  have hsame (id : OperationId) :
      oneByOne.filter (·.id? = some id) = crosswise.filter (·.id? = some id) := by
    by_cases hfirst : ⟨1⟩ = id
    · subst hfirst
      rfl
    · by_cases hsecond : ⟨2⟩ = id
      · subst hsecond
        rfl
      · simp [oneByOne, crosswise, List.filter_cons, Inbound.id?, hfirst, hsecond]
  exact ⟨hidle, hseparate, by decide +kernel, hsame,
    isolated hidle hseparate (by simp [oneByOne, Inbound.id?]) (by simp [crosswise, Inbound.id?]) hsame⟩

end RecordingClient

end TwoPhase
